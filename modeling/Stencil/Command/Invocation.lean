import Stencil.Command.Arguments
import Stencil.Command.Texts

/-!
# Invocations

What a command line asks for: options that hold for every command, and a command with its own
options.
-/

namespace Stencil.Command

structure ParseOptions where
  file : String
  name? : Option String
  isText : Bool
  unminified : Bool
  views? : Option String
  indent : Bool
deriving Repr

structure CheckOptions where
  files : List String
  views? : Option String
deriving Repr

inductive Task where
  | parse (options : ParseOptions)
  | check (options : CheckOptions)
deriving Repr

namespace Task

def name : Task → String
  | .parse _ => "parse"
  | .check _ => "check"

end Task

/-- An option whose value is empty counts as not given. -/
structure Invocation where
  config? : Option String
  logLevel? : Option String
  logFormat? : Option String
  logFile? : Option String
  task? : Option Task
deriving Repr

def mainGrammar : Grammar :=
  { options :=
      [("-h", .shows helpText), ("--help", .shows helpText), ("-v", .shows versionText),
        ("--version", .shows versionText), ("--config", .value []), ("--log-level", .value []),
        ("--log-format", .value ["text", "json"]), ("--log-file", .value [])]
    operands := .command }

def parseGrammar : Grammar :=
  { options :=
      [("-h", .shows parseHelpText), ("--help", .shows parseHelpText), ("--name", .value []),
        ("--string", .flag), ("--unminified", .flag), ("--views", .value []), ("--indent", .flag)]
    operands := .one }

def checkGrammar : Grammar :=
  { options :=
      [("-h", .shows checkHelpText), ("--help", .shows checkHelpText), ("--views", .value [])]
    operands := .oneOrMore }

namespace Given

def value? (g : Given) (spelling : String) : Option String :=
  (Entries.get? spelling g.values).filter (· != "")

def isFlagged (g : Given) (spelling : String) : Bool :=
  g.flags.contains spelling

def withoutExtras (g : Given) : Except Stop Given :=
  if g.hasExtras then .error .misuse else .ok g

end Given

def parseTask (args : List String) : Except Stop Task := do
  let g ← (← parseGrammar.read args).withoutExtras
  return .parse
    { file := g.operands.head?.getD ""
      name? := g.value? "--name"
      isText := g.isFlagged "--string"
      unminified := g.isFlagged "--unminified"
      views? := g.value? "--views"
      indent := g.isFlagged "--indent" }

def checkTask (args : List String) : Except Stop Task := do
  let g ← (← checkGrammar.read args).withoutExtras
  return .check { files := g.operands, views? := g.value? "--views" }

def readTask : List String → Except Stop (Option Task)
  | [] => .ok none
  | "parse" :: args => (parseTask args).map some
  | "check" :: args => (checkTask args).map some
  | _ => .error .misuse

def Invocation.read (args : List String) : Except Stop Invocation := do
  let g ← mainGrammar.read args
  let task? ← readTask g.operands
  let g ← g.withoutExtras
  return { config? := g.value? "--config", logLevel? := g.value? "--log-level",
           logFormat? := g.value? "--log-format", logFile? := g.value? "--log-file", task? }

end Stencil.Command
