import Mathlib.Algebra.GroupWithZero.Nat
import BookHub.Base.JsonText

/-!
# JSON values in JavaScript

`JSON.parse` makes the nearest double of a number and sets the fields of an object one after the other,
and an object lists the fields that are named by indices first. The literal of a fraction stands for the
double that is nearest to it.
-/

namespace BookHub.Json

/-! ### Numbers -/

/-- The nearest number of 53 binary digits and any zeros behind them, the even one of two. -/
def roundDigits (n : Nat) : Nat :=
  let unit := 2 ^ (n.log2 + 1 - 53)
  let rest := n % unit
  if unit < 2 * rest ∨ unit = 2 * rest ∧ n / unit % 2 = 1 then n - rest + unit else n - rest

/-- The integer as a double, where it is a finite one. -/
def nearestDouble? (value : Int) : Option Int :=
  if (roundDigits value.natAbs).log2 < 1024 then some (value.sign * roundDigits value.natAbs) else none

example : nearestDouble? (-12345678901234567890) = some (-12345678901234567168) := by decide +kernel

def parseInt (value : Int) : Json :=
  match nearestDouble? value with
  | some value => .int value
  | none => .frac (if value < 0 then "-Infinity" else "Infinity")

theorem log2_lt {n digits : Nat} (h : n < 2 ^ digits) (hdigits : 0 < digits) : n.log2 < digits := by
  by_cases hzero : n = 0
  · subst hzero
    exact hdigits
  · exact (Nat.log2_lt hzero).mpr h

theorem roundDigits_of_lt {n : Nat} (h : n < 2 ^ 53) : roundDigits n = n := by
  have hlog := log2_lt h (by decide)
  have hunit : n.log2 + 1 - 53 = 0 := by omega
  unfold roundDigits
  rw [hunit, Nat.pow_zero]
  dsimp only
  rw [Nat.mod_one, if_neg (by omega), Nat.sub_zero]

theorem parseInt_of_lt {value : Int} (h : value.natAbs < 2 ^ 53) : parseInt value = .int value := by
  have hfinite : value.natAbs.log2 < 1024 := Nat.lt_trans (log2_lt h (by decide)) (by decide)
  rw [parseInt, nearestDouble?, roundDigits_of_lt h, if_pos hfinite, Int.sign_mul_natAbs]

/-! ### Objects -/

/-- `object[name] = value`; a field that is there keeps its place. -/
def setField (name : String) (value : Json) : List (String × Json) → List (String × Json)
  | [] => [(name, value)]
  | field :: rest => if field.1 = name then (name, value) :: rest else field :: setField name value rest

/-- An object whose fields are set one after the other. -/
def object (fields : List (String × Json)) : List (String × Json) :=
  fields.foldl (fun object field => setField field.1 field.2 object) []

/-- A name that is an index of an array. -/
def arrayIndex? (name : String) : Option Nat :=
  if name.toList.all Char.isDigit then
    (natural? name.toList).filter fun index => index < 2 ^ 32 - 1
  else none

/-- The fields in the order of the language: indices come first, by their number. -/
def ordered (fields : List (String × Json)) : List (String × Json) :=
  (fields.filter fun field => (arrayIndex? field.1).isSome).mergeSort
      (fun x y => (arrayIndex? x.1).getD 0 ≤ (arrayIndex? y.1).getD 0) ++
    fields.filter fun field => !(arrayIndex? field.1).isSome

theorem setField_of_not_mem {name : String} {value : Json} {fields : List (String × Json)}
    (h : name ∉ fields.map Prod.fst) : setField name value fields = fields ++ [(name, value)] := by
  induction fields with
  | nil => rfl
  | cons field rest ih =>
      rw [List.map_cons, List.mem_cons, not_or] at h
      rw [setField, if_neg (Ne.symm h.1), ih h.2]
      rfl

theorem foldl_setField {fields object : List (String × Json)}
    (h : ((object ++ fields).map Prod.fst).Nodup) :
    fields.foldl (fun object field => setField field.1 field.2 object) object = object ++ fields := by
  induction fields generalizing object with
  | nil => exact (List.append_nil object).symm
  | cons field rest ih =>
      have hnew : field.1 ∉ object.map Prod.fst := by
        intro hmem
        rw [List.map_append, List.map_cons] at h
        exact (List.nodup_append.mp h).2.2 field.1 hmem field.1 List.mem_cons_self rfl
      rw [List.foldl_cons, setField_of_not_mem hnew, ih, List.append_assoc]
      · rfl
      · rwa [List.append_assoc]

/-- Fields of different names are the fields of the object. -/
theorem object_of_nodup {fields : List (String × Json)} (h : (fields.map Prod.fst).Nodup) :
    object fields = fields := foldl_setField h

theorem ordered_perm (fields : List (String × Json)) : (ordered fields).Perm fields := by
  unfold ordered
  exact (List.Perm.append_right _ (List.mergeSort_perm _ _)).trans (List.filter_append_perm _ _)

theorem ordered_of_none {fields : List (String × Json)}
    (h : ∀ field ∈ fields, arrayIndex? field.1 = none) : ordered fields = fields := by
  unfold ordered
  have hindices : (fields.filter fun field => (arrayIndex? field.1).isSome) = [] := by
    rw [List.filter_eq_nil_iff]
    intro field hfield
    rw [h field hfield]
    exact Bool.false_ne_true
  have hothers : (fields.filter fun field => !(arrayIndex? field.1).isSome) = fields := by
    rw [List.filter_eq_self]
    intro field hfield
    rw [h field hfield]
    rfl
  rw [hindices, hothers, List.mergeSort_nil, List.nil_append]

/-! ### Values -/

mutual

/-- The value that `JSON.parse` makes of a text with this value. -/
def parse : Json → Json
  | .null => .null
  | .bool value => .bool value
  | .int value => parseInt value
  | .frac literal => .frac literal
  | .str value => .str value
  | .arr items => .arr (parseItems items)
  | .obj fields => .obj (ordered (object (parseFields fields)))

def parseItems : List Json → List Json
  | [] => []
  | item :: rest => parse item :: parseItems rest

def parseFields : List (String × Json) → List (String × Json)
  | [] => []
  | (name, value) :: rest => (name, parse value) :: parseFields rest

end

mutual

/-- The numbers can be written, and the names of each object increase. -/
def Normal : Json → Prop
  | .null => True
  | .bool _ => True
  | .int _ => True
  | .frac literal => IsLiteral literal
  | .str _ => True
  | .arr items => NormalItems items
  | .obj fields => (fields.map Prod.fst).Pairwise (· < ·) ∧ NormalFields fields

def NormalItems : List Json → Prop
  | [] => True
  | item :: rest => Normal item ∧ NormalItems rest

def NormalFields : List (String × Json) → Prop
  | [] => True
  | (_, value) :: rest => Normal value ∧ NormalFields rest

end

mutual

/-- The integers are ones that doubles keep apart, and no field is named by an index. -/
def Kept : Json → Prop
  | .null => True
  | .bool _ => True
  | .int value => value.natAbs < 2 ^ 53
  | .frac _ => True
  | .str _ => True
  | .arr items => KeptItems items
  | .obj fields => (∀ field ∈ fields, arrayIndex? field.1 = none) ∧ KeptFields fields

def KeptItems : List Json → Prop
  | [] => True
  | item :: rest => Kept item ∧ KeptItems rest

def KeptFields : List (String × Json) → Prop
  | [] => True
  | (_, value) :: rest => Kept value ∧ KeptFields rest

end

theorem parseFields_eq (fields : List (String × Json)) :
    parseFields fields = fields.map fun field => (field.1, parse field.2) := by
  induction fields with
  | nil => rfl
  | cons field rest ih => rw [parseFields, ih, List.map_cons]

theorem names_parseFields (fields : List (String × Json)) :
    (parseFields fields).map Prod.fst = fields.map Prod.fst := by
  rw [parseFields_eq, List.map_map]
  rfl

mutual

theorem Normal.wellFormed : (value : Json) → value.Normal → value.WellFormed
  | .null, _ => trivial
  | .bool _, _ => trivial
  | .int _, _ => trivial
  | .frac _, h => h
  | .str _, _ => trivial
  | .arr items, h => NormalItems.wellFormed items h
  | .obj fields, h => NormalFields.wellFormed fields h.2

theorem NormalItems.wellFormed : (items : List Json) → NormalItems items → WellFormedItems items
  | [], _ => trivial
  | item :: rest, h => ⟨Normal.wellFormed item h.1, NormalItems.wellFormed rest h.2⟩

theorem NormalFields.wellFormed : (fields : List (String × Json)) → NormalFields fields →
    WellFormedFields fields
  | [], _ => trivial
  | (_, value) :: rest, h => ⟨Normal.wellFormed value h.1, NormalFields.wellFormed rest h.2⟩

end

theorem nodup_of_increasing {names : List String} (h : names.Pairwise (· < ·)) : names.Nodup := by
  apply h.imp
  rintro name _ hless rfl
  exact String.lt_irrefl name hless

mutual

theorem parse_of_kept : (value : Json) → value.Normal → value.Kept → parse value = value
  | .null, _, _ => rfl
  | .bool _, _, _ => rfl
  | .int _, _, h => parseInt_of_lt h
  | .frac _, _, _ => rfl
  | .str _, _, _ => rfl
  | .arr items, hnormal, h => by rw [parse, parseItems_of_kept items hnormal h]
  | .obj fields, hnormal, h => by
      rw [parse, parseFields_of_kept fields hnormal.2 h.2,
        object_of_nodup (nodup_of_increasing hnormal.1), ordered_of_none h.1]

theorem parseItems_of_kept : (items : List Json) → NormalItems items → KeptItems items →
    parseItems items = items
  | [], _, _ => rfl
  | item :: rest, hnormal, h => by
      rw [parseItems, parse_of_kept item hnormal.1 h.1, parseItems_of_kept rest hnormal.2 h.2]

theorem parseFields_of_kept : (fields : List (String × Json)) → NormalFields fields →
    KeptFields fields → parseFields fields = fields
  | [], _, _ => rfl
  | (_, value) :: rest, hnormal, h => by
      rw [parseFields, parse_of_kept value hnormal.1 h.1, parseFields_of_kept rest hnormal.2 h.2]

end

end BookHub.Json
