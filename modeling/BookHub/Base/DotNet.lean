/-!
# The .NET library

What the services in C# use of it on characters, and the exceptions that leave their methods.
-/

namespace BookHub

inductive CsException where
  | argumentException
  | argumentNullException
  | formatException
  | indexOutOfRangeException
  | invalidDataException
  | invalidOperationException
  | jsonException
  | nullReferenceException
  | uriFormatException
  deriving DecidableEq

/-- `char.IsWhiteSpace` -/
def isWhiteSpace (c : Char) : Bool :=
  (0x09 ≤ c.toNat && c.toNat ≤ 0x0D) || (0x2000 ≤ c.toNat && c.toNat ≤ 0x200A) ||
    [0x20, 0x85, 0xA0, 0x1680, 0x2028, 0x2029, 0x202F, 0x205F, 0x3000].contains c.toNat

/-- `string.IsNullOrWhiteSpace`, of what is not null. -/
def isNullOrWhiteSpace (text : List Char) : Bool := text.all isWhiteSpace

/-- `StringComparison.OrdinalIgnoreCase` -/
def equalsIgnoreCase (x y : List Char) : Bool := x.map Char.toLower == y.map Char.toLower

end BookHub
