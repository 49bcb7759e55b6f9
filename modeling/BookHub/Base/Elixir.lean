import Mathlib.Data.Option.Basic

/-!
# Elixir terms

The terms that a decoded JSON body can hold, with the operators the health monitor applies to them:
`||`, access by a key, and interpolation into a string. The entries of a map are listed by key in
increasing order, so equal maps are equal terms; a float is the text it is written as.
-/

namespace BookHub.Elixir

mutual

inductive Term where
  | atom (name : String)
  | int (value : Int)
  | float (text : String)
  | binary (value : String)
  | list (items : Terms)
  | map (entries : Entries)
  deriving DecidableEq, Repr

inductive Terms where
  | nil
  | cons (head : Term) (tail : Terms)
  deriving DecidableEq, Repr

inductive Entries where
  | nil
  | cons (key : String) (value : Term) (rest : Entries)
  deriving DecidableEq, Repr

end

/-- The calls that raise, by what they were asked to do. -/
inductive Raise where
  | access
  | fromIso8601
  | diff
  | toString
  deriving DecidableEq, Repr

namespace Term

/-- `nil` is an atom, and so are the booleans. -/
def nil : Term := atom "nil"

def truthy (term : Term) : Bool := term ≠ nil && term ≠ atom "false"

/-- `new || old`. -/
def orElse (new old : Term) : Term := if new.truthy then new else old

end Term

def Entries.find? : Entries → String → Option Term
  | nil, _ => none
  | cons key value rest, name => if key = name then some value else rest.find? name

/-- `term[name]`. -/
def Term.access : Term → String → Except Raise Term
  | map entries, name => .ok ((entries.find? name).getD nil)
  | atom name, _ => if name = "nil" then .ok nil else .error .access
  | _, _ => .error .access

/-- The character of a code point in chardata. -/
def codepoint? (value : Int) : Option String :=
  if 0 ≤ value ∧ value.toNat.isValidChar then some (String.singleton (Char.ofNat value.toNat))
  else none

mutual

/-- `to_string`, which interpolation calls; a map has none. -/
def Term.text? : Term → Option String
  | .atom name => some (if name = "nil" then "" else name)
  | .int value => some (toString value)
  | .float text => some text
  | .binary value => some value
  | .list items => items.chardata?
  | .map _ => none

/-- The text of a list is its chardata: code points, strings and lists of these. -/
def Terms.chardata? : Terms → Option String
  | .nil => some ""
  | .cons head tail => do return (← head.item?) ++ (← tail.chardata?)

def Term.item? : Term → Option String
  | .int value => codepoint? value
  | .binary value => some value
  | .list items => items.chardata?
  | _ => none

end

/-- `"#{term}"`. -/
def interpolate (term : Term) : Except Raise String :=
  match term.text? with
  | some text => .ok text
  | none => .error .toString

end BookHub.Elixir
