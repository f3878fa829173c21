import BinaryStrings.Decimal.Shortest
import BinaryStrings.Json.Basic
import BinaryStrings.Text.Quoted

/-!
# JSON values in sentences

How a value reads inside a message: a text alone stands as it is, and inside a list or an object it
is quoted.
-/

namespace BinaryStrings.Json

/-- The word for a truth value. -/
def truthWord (value : Bool) : String :=
  if value then "True" else "False"

mutual

/-- A value with its texts quoted. -/
def literal : Json → String
  | .null => "None"
  | .bool value => truthWord value
  | .int value => toString value
  | .float value => value.write Binary64.layout
  | .str text => Text.quoted text
  | .arr items => Text.bracketed (literals items)
  | .obj members => "\x7b" ++ String.intercalate ", " (memberLiterals members) ++ "\x7d"

/-- The items of a list, one by one. -/
def literals : List Json → List String
  | [] => []
  | item :: rest => literal item :: literals rest

/-- The members of an object, one by one. -/
def memberLiterals : List (String × Json) → List String
  | [] => []
  | member :: rest => memberLiteral member :: memberLiterals rest

/-- A name, a colon and a value. -/
def memberLiteral : String × Json → String
  | (name, value) => Text.quoted name ++ ": " ++ literal value

end

/-- A value as part of a sentence. -/
def phrase : Json → String
  | .str text => text
  | value => literal value

/-- The word for a kind of value. -/
def kindWord : Json → String
  | .null => "NoneType"
  | .bool _ => "bool"
  | .int _ => "int"
  | .float _ => "float"
  | .str _ => "str"
  | .arr _ => "list"
  | .obj _ => "dict"

end BinaryStrings.Json
