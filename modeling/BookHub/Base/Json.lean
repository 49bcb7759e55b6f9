/-!
# JSON values

The value of a JSON text, as the services put it on the wire. A number keeps apart the literals
without fraction and exponent, which decode into an integer, from the others, which no integer
decoder accepts and which are kept as written. The fields of an object are in the order of the text
and may repeat.
-/

namespace BookHub

inductive Json where
  | null
  | bool (value : Bool)
  | int (value : Int)
  | frac (literal : String)
  | str (value : String)
  | arr (items : List Json)
  | obj (fields : List (String × Json))
  deriving Repr

namespace Json

/-- The value of the first field with this name. -/
def field? : Json → String → Option Json
  | obj fields, name => (fields.find? fun field => field.1 == name).map Prod.snd
  | _, _ => none

/-- The integer a value is, if it is one. -/
def int? : Json → Option Int
  | int value => some value
  | _ => none

end Json

end BookHub
