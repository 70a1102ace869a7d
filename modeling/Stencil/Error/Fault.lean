import Stencil.Text.Quoted

/-!
# Faults

What can be wrong with an expression at the token where reading stops, with a pattern that is to be
filled, and with a path that is to be opened. Every fault has one wording.
-/

namespace Stencil

inductive Complaint where
  | unexpected
  | expected (what : String)
  | objectKey
  | bracketsAfterPath
  | memberAfterPath
  | callOfName
deriving DecidableEq, Repr

def Complaint.text : Complaint → String
  | .unexpected => "Unexpected token"
  | .expected what => "Expected " ++ what
  | .objectKey => "Expected object key"
  | .bracketsAfterPath => "Brackets must follow a path"
  | .memberAfterPath => "Member access must follow a path"
  | .callOfName => "Only named functions can be called"

inductive FileFault where
  | missing
  | busy
  | present
  | notDirectory
  | directory
  | invalid
  | longName
  | notEmpty
deriving DecidableEq, Repr

namespace FileFault

def number : FileFault → Nat
  | .missing => 2
  | .busy => 16
  | .present => 17
  | .notDirectory => 20
  | .directory => 21
  | .invalid => 22
  | .longName => 36
  | .notEmpty => 39

def text : FileFault → String
  | .missing => "No such file or directory"
  | .busy => "Device or resource busy"
  | .present => "File exists"
  | .notDirectory => "Not a directory"
  | .directory => "Is a directory"
  | .invalid => "Invalid argument"
  | .longName => "File name too long"
  | .notEmpty => "Directory not empty"

def kindName : FileFault → String
  | .missing => "FileNotFoundError"
  | .present => "FileExistsError"
  | .notDirectory => "NotADirectoryError"
  | .directory => "IsADirectoryError"
  | _ => "OSError"

def message (f : FileFault) (path : String) : String :=
  "[Errno " ++ toString f.number ++ "] " ++ f.text ++ ": " ++ Text.quote path

end FileFault

inductive LayoutFault where
  | manyDigits
  | bothSeparators
  | noLimit
  | tooMuch (layout : String)
  | separatorWith (separator code : Char)
  | unknownCode (code : Char)
  | space
  | sign
  | zeroSign
  | alternate
  | afterSign
deriving DecidableEq, Repr

/-- A character as patterns name it: as it is if its number lies above that of the space and below
the limit, by its number otherwise. -/
def shownCode (limit : Nat) (c : Char) : String :=
  if 32 < c.toNat ∧ c.toNat < limit then String.singleton c
  else "\\x" ++ String.ofList (Nat.toDigits 16 c.toNat)

def LayoutFault.message : LayoutFault → String
  | .manyDigits => "Too many decimal digits in format string"
  | .bothSeparators => "Cannot specify both ',' and '_'."
  | .noLimit => "Format specifier missing precision"
  | .tooMuch layout => "Invalid format specifier '" ++ layout ++ "' for object of type 'str'"
  | .separatorWith separator code =>
    "Cannot specify '" ++ String.singleton separator ++ "' with '" ++ shownCode 128 code ++ "'."
  | .unknownCode code =>
    "Unknown format code '" ++ shownCode 128 code ++ "' for object of type 'str'"
  | .space => "Space not allowed in string format specifier"
  | .sign => "Sign not allowed in string format specifier"
  | .zeroSign => "Negative zero coercion (z) not allowed in string format specifier"
  | .alternate => "Alternate form (#) not allowed in string format specifier"
  | .afterSign => "'=' alignment not allowed in string format specifier"

/-- What is wrong with a pattern, or with a placeholder in it. -/
inductive PatternFault where
  | loneClose
  | loneOpen
  | openInName
  | unclosed
  | noConversion
  | noColon
  | openLayout
  | unknownConversion (c : Char)
  | emptyStep
  | openBracket
  | afterBracket
  | deep
  | layout (fault : LayoutFault)
deriving DecidableEq, Repr

def PatternFault.message : PatternFault → String
  | .loneClose => "Single '\x7d' encountered in format string"
  | .loneOpen => "Single '\x7b' encountered in format string"
  | .openInName => "unexpected '\x7b' in field name"
  | .unclosed => "expected '\x7d' before end of string"
  | .noConversion => "end of string while looking for conversion specifier"
  | .noColon => "expected ':' after conversion specifier"
  | .openLayout => "unmatched '\x7b' in format spec"
  | .unknownConversion c => "Unknown conversion specifier " ++ shownCode 127 c
  | .emptyStep => "Empty attribute in format string"
  | .openBracket => "Missing ']' in format string"
  | .afterBracket => "Only '.' or '[' may follow ']' in format field specifier"
  | .deep => "Max string recursion exceeded"
  | .layout fault => fault.message

end Stencil
