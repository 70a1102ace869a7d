import Stencil.Error.Kind
import Stencil.Value.Shown

/-!
# Causes

Why something failed. A cause determines the kind of the error and its wording, so both stand here
and nowhere else.
-/

namespace Stencil

/-- The causes stand in the order of what they are about: expressions, text, markup, the nesting of
blocks, views, files and settings, patterns; the last one is raised by a caller. -/
inductive Cause where
  | badCharacter (c : Char) (position : Nat)
  | openString (position : Nat)
  | badDigit
  | longInteger (digits : Nat)
  | stopped (complaint : Complaint) (found : Option Value) (position : Nat)
  | cannotApply (operator : String) (value : Value)
  | notObject (got : String)
  | unbalancedBraces (text : String)
  | stalledText (text : String)
  | duplicateAttribute (name tag : String)
  | sectionName (text : String)
  | sectionKeyword (text : String)
  | strayEndTag (tag : String)
  | wrongEndTag (tag : String)
  | badDeclaration (tag : String)
  | unbalancedAttribute (name value : String)
  | emptyAttribute (name value : String)
  | notLiteralText (name : String)
  | strayBlockEnd (source : String)
  | wrongBlockEnd (source : String)
  | badContinuation (source : String)
  | unclosed (opened : String)
  | unnamedView
  | unnamedChild (tag : String)
  | notArray (name : String)
  | badViewName (source : String)
  | unknownView (name : String)
  | unknownOption (name : String)
  | notList (value : Value)
  | notKey (value : Value)
  | notText (value : Value)
  | file (fault : FileFault) (path : String)
  | nullInPath
  | emptyFileName (path : String)
  | badFilePattern
  | notUtf8
  | notJson
  | notWritable
  | settingsNotObject (path : String)
  | noItemAssignment (holder : Value)
  | noFields (holder : Value)
  | unknownLevelName (name : String)
  | unknownLevel (value : Value)
  | takenName (name : String)
  | notError (value : Value)
  | abstractMethod
  | badPattern (fault : PatternFault)
  | noSuchName (name : String)
  | noSuchPosition (position : Nat)
  | noSuchMember (name : String)
  | notPosition
  | noRoom
  | reported (kind : Kind) (text : String)
deriving Repr

namespace Cause

def kind : Cause → Kind
  | .badCharacter _ position => .grammar position
  | .openString position => .grammar position
  | .badDigit => .noAttribute
  | .longInteger _ => .value
  | .stopped _ _ position => .grammar position
  | .cannotApply _ _ => .grammar (-1)
  | .notObject _ => .grammar (-1)
  | .unbalancedBraces _ => .lexical
  | .stalledText _ => .lexical
  | .sectionName _ => .assertion
  | .sectionKeyword _ => .assertion
  | .unknownView name => .resolution (some name)
  | .unknownOption _ => .type
  | .notList _ => .type
  | .notKey _ => .type
  | .notText _ => .noAttribute
  | .file fault _ => .file fault
  | .nullInPath => .value
  | .emptyFileName _ => .value
  | .badFilePattern => .value
  | .notUtf8 => .decoding
  | .notJson => .jsonText
  | .notWritable => .type
  | .settingsNotObject _ => .value
  | .noItemAssignment _ => .type
  | .noFields _ => .noAttribute
  | .unknownLevelName _ => .value
  | .unknownLevel _ => .value
  | .takenName _ => .type
  | .notError _ => .noAttribute
  | .abstractMethod => .abstract
  | .badPattern _ => .value
  | .noSuchName _ => .key
  | .noSuchPosition _ => .index
  | .noSuchMember _ => .noAttribute
  | .notPosition => .type
  | .noRoom => .other "MemoryError"
  | .reported kind _ => kind
  | _ => .structural

def message : Cause → String
  | .badCharacter c position =>
    "Unexpected character " ++ Text.quote (String.singleton c) ++ " at position " ++
      toString position
  | .openString position => "Unterminated string literal at position " ++ toString position
  | .badDigit => "'NoneType' object has no attribute 'group'"
  | .longInteger digits =>
    "Exceeds the limit (" ++ toString integerDigitLimit ++
      " digits) for integer string conversion: value has " ++ toString digits ++
      " digits; use sys.set_int_max_str_digits() to increase the limit"
  | .stopped complaint found position =>
    complaint.text ++ ", found " ++
      (match found with
        | some v => v.shown
        | none => "end of expression") ++ " at position " ++ toString position
  | .cannotApply operator value =>
    "Cannot apply " ++ Text.quote operator ++ " to " ++ value.shown
  | .notObject got => "Expected an object, got " ++ got
  | .unbalancedBraces text => "Mismatched braces in: " ++ text
  | .stalledText text => "Error parsing template text: " ++ text
  | .duplicateAttribute name tag =>
    "Duplicate attribute " ++ Text.quote name ++ " on <" ++ tag ++ ">"
  | .sectionName text => "expected name token at " ++ Text.quote text
  | .sectionKeyword text =>
    "unknown status keyword " ++ Text.quote text ++ " in marked section"
  | .strayEndTag tag => "Unexpected closing HTML tag: " ++ tag
  | .wrongEndTag tag => "Mismatched closing HTML tag: " ++ tag
  | .badDeclaration tag => "Error parsing template: " ++ tag
  | .unbalancedAttribute name value =>
    "Unbalanced block in " ++ name ++ " attribute: " ++ value
  | .emptyAttribute name value => "Error parsing " ++ name ++ " attribute: " ++ value
  | .notLiteralText name => "The " ++ name ++ " attribute must be a literal string"
  | .strayBlockEnd source => "Unexpected closing template tag: " ++ source
  | .wrongBlockEnd source => "Mismatched closing template tag: " ++ source
  | .badContinuation source => "Error parsing template: " ++ source
  | .unclosed opened => "Unclosed " ++ opened ++ " at end of template"
  | .unnamedView => "The <view> element requires a name attribute"
  | .unnamedChild tag => "The <" ++ tag ++ "> element requires a literal name attribute"
  | .notArray name => "The " ++ name ++ " attribute is not an array"
  | .badViewName source => "Invalid view name: " ++ source
  | .unknownView name => "No view found for \"" ++ name ++ "\""
  | .unknownOption name => "unexpected keyword argument " ++ Text.quote name
  | .notList value => "'" ++ value.kindName ++ "' object is not iterable"
  | .notKey value => "unhashable type: '" ++ value.kindName ++ "'"
  | .notText value => "'" ++ value.kindName ++ "' object has no attribute 'partition'"
  | .file fault path => fault.message path
  | .nullInPath => "embedded null byte"
  | .emptyFileName path => "PosixPath(" ++ Text.quote path ++ ") has an empty name"
  | .badFilePattern => "Invalid pattern: '**' can only be an entire path component"
  | .notUtf8 => "invalid UTF-8"
  | .notJson => "invalid JSON"
  | .notWritable => "Type is not JSON serializable"
  | .settingsNotObject path => "Configuration file " ++ path ++ " must contain an object"
  | .noItemAssignment (.list _) => "list indices must be integers or slices, not str"
  | .noItemAssignment holder =>
    "'" ++ holder.kindName ++ "' object does not support item assignment"
  | .noFields holder => "'" ++ holder.kindName ++ "' object has no attribute 'setdefault'"
  | .unknownLevelName name => "Unknown log level: " ++ name
  | .unknownLevel value => value.shown ++ " is not a valid LogLevel"
  | .takenName name => "got multiple values for argument " ++ Text.quote name
  | .notError value => "'" ++ value.kindName ++ "' object has no attribute '__traceback__'"
  | .abstractMethod => ""
  | .badPattern fault => fault.message
  | .noSuchName name => Text.quote name
  | .noSuchPosition position => "index " ++ toString position ++ " out of range"
  | .noSuchMember name => "'str' object has no attribute " ++ Text.quote name
  | .notPosition => "string indices must be integers"
  | .noRoom => ""
  | .reported _ text => text

end Cause

end Stencil
