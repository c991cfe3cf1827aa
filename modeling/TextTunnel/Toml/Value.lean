/-!
# TOML values

A document is a table: a list of names with their values. Floats and dates are kept as their text,
since nothing here computes with them.
-/

namespace TextTunnel.Toml

/-- A value of a TOML document. -/
inductive Value where
  | string (s : String)
  | integer (i : Int)
  | float (text : String)
  | boolean (b : Bool)
  | datetime (text : String)
  | array (items : List Value)
  /-- A table of any origin: a header, dotted keys or braces. -/
  | table (entries : List (String × Value))

namespace Value

/-- The text of a string. -/
def string? : Value → Option String
  | .string s => some s
  | _ => none

/-- The value of an integer. -/
def integer? : Value → Option Int
  | .integer i => some i
  | _ => none

end Value

/-- The value with the given name. -/
def lookup (name : String) (entries : List (String × Value)) : Option Value :=
  (entries.find? fun e => e.1 == name).map (·.2)

end TextTunnel.Toml
