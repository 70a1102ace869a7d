import Stencil.Error.Fault

/-!
# Kinds of errors

The classes into which errors fall, as reports name them. The template language has classes of its
own; the others are those of the tasks around it.
-/

namespace Stencil

inductive Kind where
  | template
  | lexical
  | structural
  | resolution (name : Option String)
  | grammar (position : Int)
  | value
  | assertion
  | noAttribute
  | type
  | index
  | key
  | overflow
  | abstract
  | file (fault : FileFault)
  | decoding
  | jsonText
  | other (name : String)
deriving DecidableEq, Repr

namespace Kind

def name : Kind → String
  | .template => "TemplateError"
  | .lexical => "TemplateLexicalError"
  | .structural => "TemplateStructureError"
  | .resolution _ => "ViewResolutionError"
  | .grammar _ => "ExpressionSyntaxError"
  | .value => "ValueError"
  | .assertion => "AssertionError"
  | .noAttribute => "AttributeError"
  | .type => "TypeError"
  | .index => "IndexError"
  | .key => "KeyError"
  | .overflow => "OverflowError"
  | .abstract => "NotImplementedError"
  | .file fault => fault.kindName
  | .decoding => "UnicodeDecodeError"
  | .jsonText => "JSONDecodeError"
  | .other name => name

def isOwn : Kind → Bool
  | .template | .lexical | .structural | .resolution _ | .grammar _ => true
  | _ => false

def isFile : Kind → Bool
  | .file _ => true
  | _ => false

end Kind

end Stencil
