import Stencil.Decimal.Notation
import Stencil.Text.Quoted
import Stencil.Value.Basic

/-!
# Values in messages

How a value is written in a message or in a log line. `shown` quotes texts; `plain` leaves a text
that stands alone as it is.
-/

namespace Stencil.Value

mutual

def shown : Value → String
  | .null => "None"
  | .bool b => if b then "True" else "False"
  | .int n => toString n
  | .float x => x.text
  | .text s => Text.quote s
  | .list xs => "[" ++ shownItems xs ++ "]"
  | .object fs => "\x7b" ++ shownFields fs ++ "\x7d"
termination_by structural v => v

def shownItems : List Value → String
  | [] => ""
  | x :: xs => shown x ++ shownMore xs
termination_by structural xs => xs

def shownMore : List Value → String
  | [] => ""
  | x :: xs => ", " ++ shown x ++ shownMore xs
termination_by structural xs => xs

def shownFields : List (String × Value) → String
  | [] => ""
  | (k, x) :: fs => Text.quote k ++ ": " ++ shown x ++ shownMoreFields fs
termination_by structural fs => fs

def shownMoreFields : List (String × Value) → String
  | [] => ""
  | (k, x) :: fs => ", " ++ Text.quote k ++ ": " ++ shown x ++ shownMoreFields fs
termination_by structural fs => fs

end

def plain : Value → String
  | .text s => s
  | v => v.shown

def kindName : Value → String
  | .null => "NoneType"
  | .bool _ => "bool"
  | .int _ => "int"
  | .float _ => "float"
  | .text _ => "str"
  | .list _ => "list"
  | .object _ => "dict"

end Stencil.Value
