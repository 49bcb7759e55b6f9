import BookHub.Base.DateTime
import BookHub.Base.Lists

/-!
# The JSON encoder of Elixir terms

`Jason.encode!` on the terms that a decoded body can hold, and on dates. A member of an object is
named by an atom's name, by a string, or by what `to_string` makes of any other key.
-/

namespace BookHub.Elixir

/-! ### Dates -/

/-- The last decimal digits of a number. -/
def pad (width value : Nat) : List Char :=
  (List.range width).reverse.map fun i => Char.ofNat ('0'.toNat + value / 10 ^ i % 10)

namespace DateTime

/-- The year that a day since the start of the year 0 lies in. -/
def yearOfIsoDays (days : Int) : Int :=
  let guess := days * 400 / 146097
  if daysInPreviousYears (guess + 1) ≤ days then guess + 1
  else if daysInPreviousYears guess ≤ days then guess
  else guess - 1

def dateFromIsoDays (days : Int) : Int × Nat × Nat :=
  let year := yearOfIsoDays days
  let dayOfYear := (days - daysInPreviousYears year).toNat
  let month := ((List.range 12).filter fun m => daysBeforeMonth year (m + 1) ≤ dayOfYear).length
  (year, month, dayOfYear - daysBeforeMonth year month + 1)

/-- `DateTime.to_iso8601`, in UTC. -/
def toIso8601 (dt : DateTime) : String :=
  let (year, month, day) := dateFromIsoDays (dt.micros / 86400000000)
  let micros := (dt.micros % 86400000000).toNat
  let seconds := micros / 1000000
  let sign := if year < 0 then ['-'] else []
  let fraction :=
    if dt.precision = 0 then [] else '.' :: (pad 6 (micros % 1000000)).take dt.precision
  String.ofList (sign ++ pad 4 year.natAbs ++ '-' :: pad 2 month ++ '-' :: pad 2 day ++
    'T' :: pad 2 (seconds / 3600) ++ ':' :: pad 2 (seconds / 60 % 60) ++ ':' :: pad 2 (seconds % 60) ++
    fraction ++ ['Z'])

example : (parseUtc? "2024-02-29T23:59:59.50+01:00").map toIso8601 =
    some "2024-02-29T22:59:59.50Z" := by decide

end DateTime

/-! ### Terms -/

namespace Jason

def escape (c : Char) : List Char :=
  if c = '"' then ['\\', '"']
  else if c = '\\' then ['\\', '\\']
  else if c = '\n' then ['\\', 'n']
  else if c = '\r' then ['\\', 'r']
  else if c = '\t' then ['\\', 't']
  else if c.toNat = 8 then ['\\', 'b']
  else if c.toNat = 12 then ['\\', 'f']
  else if c.toNat < 32 then
    ['\\', 'u', '0', '0', Char.ofNat ('0'.toNat + c.toNat / 16),
      (Nat.digitChar (c.toNat % 16)).toUpper]
  else [c]

def encodeString (value : String) : String :=
  "\"" ++ String.ofList (value.toList.flatMap escape) ++ "\""

/-- The members of an object, as they stand between its braces. -/
def encodeMembers (members : List (String × String)) : String :=
  ",".intercalate (members.map fun member => encodeString member.1 ++ ":" ++ member.2)

def encodeObject (members : List (String × String)) : String :=
  "\x7b" ++ encodeMembers members ++ "\x7d"

def encodeAtom (name : String) : String :=
  if name = "nil" then "null"
  else if name = "true" ∨ name = "false" then name
  else encodeString name

mutual

def encode : Term → String
  | .atom name => encodeAtom name
  | .int value => toString value
  | .float text => text
  | .binary value => encodeString value
  | .list items => "[" ++ ",".intercalate (encodeItems items) ++ "]"
  | .map entries => encodeObject (encodeEntries entries)

def encodeItems : Terms → List String
  | .nil => []
  | .cons head tail => encode head :: encodeItems tail

def encodeEntries : Entries → List (String × String)
  | .nil => []
  | .cons key value rest => (key, encode value) :: encodeEntries rest

end

/-- The name of a member; only a string is a string's own name, and `nil` has one. -/
def key? : Term → Option String
  | .atom name => some name
  | term => term.text?

/-- One member of a map, or what `to_string` raises on its key. -/
def member {α : Type} (encodeValue : α → String) (entry : Term × α) : Except Raise (String × String) :=
  match key? entry.1 with
  | some name => .ok (name, encodeValue entry.2)
  | none => .error .toString

def members {α : Type} (encodeValue : α → String) (entries : List (Term × α)) :
    Except Raise (List (String × String)) :=
  entries.mapM (member encodeValue)

section Members

variable {α : Type} {encodeValue : α → String}

theorem member_eq_ok_iff {entry : Term × α} {result : String × String} :
    member encodeValue entry = .ok result ↔
      key? entry.1 = some result.1 ∧ result.2 = encodeValue entry.2 := by
  unfold member
  cases hname : key? entry.1 with
  | none => simp
  | some name =>
      rw [Except.ok.injEq, Option.some_inj, Prod.ext_iff]
      exact and_congr_right' eq_comm

/-- A map is encoded exactly if each of its keys has a name. -/
theorem members_ok_iff {entries : List (Term × α)} :
    (∃ result, members encodeValue entries = .ok result) ↔
      ∀ entry ∈ entries, ∃ name, key? entry.1 = some name := by
  rw [members, mapM_ok_iff]
  apply forall₂_congr
  intro entry _
  constructor
  · intro ⟨result, hresult⟩
    exact ⟨result.1, (member_eq_ok_iff.mp hresult).1⟩
  · intro ⟨name, hname⟩
    exact ⟨(name, encodeValue entry.2), member_eq_ok_iff.mpr ⟨hname, rfl⟩⟩

/-- There is one member for each entry, with its name. -/
theorem names_of_members {entries : List (Term × α)} {result : List (String × String)}
    (h : members encodeValue entries = .ok result) :
    (result.map Prod.fst).map some = entries.map fun entry => key? entry.1 := by
  induction entries generalizing result with
  | nil =>
      cases h
      rfl
  | cons entry rest ih =>
      rw [members, List.mapM_cons] at h
      obtain ⟨first, hfirst, h⟩ := bind_eq_ok_iff.mp h
      obtain ⟨others, hothers, h⟩ := bind_eq_ok_iff.mp h
      cases h
      rw [List.map_cons, List.map_cons, List.map_cons, ih hothers, (member_eq_ok_iff.mp hfirst).1]

end Members

end Jason

end BookHub.Elixir
