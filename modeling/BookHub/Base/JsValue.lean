/-!
# JavaScript values

The values that a parsed JSON body can hold, with `undefined` for what it leaves out, and the loose
comparison `==` of the language. How a string reads as a number, and how a number is written, are
parameters. Two objects of a body are never the same object, so they are never equal.
-/

namespace BookHub

/-- A number other than `NaN`. -/
inductive JsNumber where
  | finite (value : Rat)
  | infinite (negative : Bool)
  deriving DecidableEq

inductive JsValue where
  | undefined
  | null
  | bool (value : Bool)
  | number (value : JsNumber)
  | string (value : String)
  | array (items : List JsValue)
  | object (fields : List (String × JsValue))

/-- The conversions between numbers and strings. -/
structure JsRuntime where
  numberOf : String → Option JsNumber
  numberText : JsNumber → String

namespace JsValue

/-- `value.name`; the names of an object are distinct. -/
def property : JsValue → String → JsValue
  | object fields, name => (fields.lookup name).getD undefined
  | _, _ => undefined

def isNullish : JsValue → Bool
  | undefined => true
  | null => true
  | _ => false

def isObject : JsValue → Bool
  | array _ => true
  | object _ => true
  | _ => false

/-- The integer `n` as a value. -/
def ofNat (n : Nat) : JsValue := number (.finite n)

instance decidableEqString (value : JsValue) (text : String) : Decidable (value = string text) :=
  match value with
  | string value => decidable_of_iff (value = text) (string.injEq value text).symm.to_iff
  | undefined => .isFalse JsValue.noConfusion
  | null => .isFalse JsValue.noConfusion
  | bool _ => .isFalse JsValue.noConfusion
  | number _ => .isFalse JsValue.noConfusion
  | array _ => .isFalse JsValue.noConfusion
  | object _ => .isFalse JsValue.noConfusion

end JsValue

namespace JsRuntime

variable (js : JsRuntime)

mutual

/-- `String(value)`; an object whose `toString` was replaced by a field cannot be converted. -/
def text? : JsValue → Option String
  | .undefined => some "undefined"
  | .null => some "null"
  | .bool value => some (toString value)
  | .number value => some (js.numberText value)
  | .string value => some value
  | .array items => (itemTexts? items).map (String.intercalate ",")
  | .object fields => if fields.any fun field => field.1 == "toString" then none
      else some "[object Object]"

/-- The texts that `join` puts between its commas. -/
def itemTexts? : List JsValue → Option (List String)
  | [] => some []
  | item :: rest => do
      let text ← if item.isNullish then some "" else text? item
      return text :: (← itemTexts? rest)

end

/-- The number a primitive value converts to, unless that is `NaN`. -/
def number? : JsValue → Option JsNumber
  | .null => some (.finite 0)
  | .bool value => some (.finite (if value then 1 else 0))
  | .number value => some value
  | .string value => js.numberOf value
  | _ => none

/-- `==` on values that are neither objects nor nullish. -/
def primitiveEq : JsValue → JsValue → Bool
  | .string x, .string y => x == y
  | x, y =>
      match js.number? x, js.number? y with
      | some m, some n => m == n
      | _, _ => false

/-- An object converts to its text; any other value stays. -/
def primitive? (value : JsValue) : Option JsValue :=
  if value.isObject then (js.text? value).map JsValue.string else some value

/-- `x == y`, unless the conversion of an object throws. -/
def looseEq? (x y : JsValue) : Option Bool :=
  if x.isNullish || y.isNullish then some (x.isNullish && y.isNullish)
  else if x.isObject && y.isObject then some false
  else do return js.primitiveEq (← js.primitive? x) (← js.primitive? y)

end JsRuntime

end BookHub
