import BookHub.Base.Jason
import BookHub.Base.JsonText

/-!
# The texts of the Elixir encoder

The encoder of Elixir terms writes what an encoder of JSON values writes, without blanks and with capital
digits, of the value that a term stands for. So its texts are read back as that value.
-/

namespace BookHub.Elixir

/-! ### The value of a term -/

/-- An atom other than `nil` and the booleans is written as a string. -/
def atomJson (name : String) : Json :=
  if name = "nil" then .null
  else if name = "true" then .bool true
  else if name = "false" then .bool false
  else .str name

mutual

def Term.json : Term → Json
  | .atom name => atomJson name
  | .int value => .int value
  | .float text => .frac text
  | .binary value => .str value
  | .list items => .arr (Terms.json items)
  | .map entries => .obj (Entries.json entries)

def Terms.json : Terms → List Json
  | .nil => []
  | .cons head tail => head.json :: tail.json

def Entries.json : Entries → List (String × Json)
  | .nil => []
  | .cons key value rest => (key, value.json) :: rest.json

end

namespace Jason

def encoder : Json.Encoder :=
  .ofSets Json.hexUpper Json.readsDigits_hexUpper (· != '/') (fun c => Json.isPlain c && true)
    (fun _ h => Json.of_isPlain h) false

theorem escape_low : ∀ n < 32, escape (Char.ofNat n) = encoder.escape (Char.ofNat n) := by decide

/-- No short escape is used for a character that stands for itself. -/
theorem find?_shortEscapes {c : Char} (hlow : ¬c.toNat < 32) (hquote : c ≠ '"') (hback : c ≠ '\\') :
    Json.shortEscapes.find? (fun short => short.2 == c && c != '/') = none := by
  have hlist : ∀ short ∈ Json.shortEscapes, short.2 = '"' ∨ short.2 = '\\' ∨ short.2 = '/' ∨
      short.2.toNat < 32 := by
    decide
  rw [List.find?_eq_none]
  intro short hshort hmatch
  rw [Bool.and_eq_true, beq_iff_eq, bne_iff_ne] at hmatch
  obtain ⟨rfl, hslash⟩ := hmatch
  obtain h | h | h | h := hlist short hshort
  · exact hquote h
  · exact hback h
  · exact hslash h
  · exact hlow h

theorem escape_eq (c : Char) : escape c = encoder.escape c := by
  by_cases hlow : c.toNat < 32
  · rw [← Char.ofNat_toNat c]
    exact escape_low c.toNat hlow
  by_cases hquote : c = '"'
  · subst hquote
    decide
  by_cases hback : c = '\\'
  · subst hback
    decide
  have hne : ∀ d : Char, d.toNat < 32 → c ≠ d := by
    rintro d hd rfl
    exact hlow hd
  have hraw : (Json.isPlain c && true) = true := by
    simp only [Json.isPlain, Bool.and_true, Bool.and_eq_true, bne_iff_ne, decide_eq_true_eq]
    exact ⟨⟨hback, hquote⟩, Nat.not_lt.mp hlow⟩
  have hwritten : encoder.escape c = [c] := by
    show Json.escapeWith Json.hexUpper (· != '/') (fun c => Json.isPlain c && true) c = [c]
    rw [Json.escapeWith, find?_shortEscapes hlow hquote hback]
    exact if_pos hraw
  rw [hwritten, escape, if_neg hquote, if_neg hback, if_neg (hne '\n' (by decide)),
    if_neg (hne '\r' (by decide)), if_neg (hne '\t' (by decide)), if_neg, if_neg, if_neg hlow]
  · exact fun h => hlow (by omega)
  · exact fun h => hlow (by omega)

/-! ### What is encoded -/

/-- The text of a value. -/
def render (value : Json) : String := String.ofList (encoder.write value)

theorem toList_render (value : Json) : (render value).toList = encoder.write value := String.toList_ofList

theorem encodeString_eq (value : String) : encodeString value = render (.str value) := by
  have hescape : escape = encoder.escape := funext escape_eq
  apply String.toList_injective
  simp only [encodeString, hescape, String.toList_append, toList_render, String.toList_ofList]
  rfl

theorem encodeAtom_eq (name : String) : encodeAtom name = render (atomJson name) := by
  unfold encodeAtom atomJson
  by_cases hnil : name = "nil"
  · rw [if_pos hnil, if_pos hnil]
    rfl
  rw [if_neg hnil, if_neg hnil]
  by_cases htrue : name = "true"
  · subst htrue
    rfl
  by_cases hfalse : name = "false"
  · subst hfalse
    rfl
  rw [if_neg htrue, if_neg hfalse, if_neg fun h => h.elim htrue hfalse]
  exact encodeString_eq name

theorem toString_int (value : Int) : toString value = render (.int value) := by
  apply String.toList_injective
  rw [toList_render]
  cases value with
  | ofNat n => exact Nat.toList_repr
  | negSucc n =>
      show ("-" ++ (n + 1).repr).toList = '-' :: Nat.toDigits 10 (n + 1)
      rw [String.toList_append, Nat.toList_repr]
      rfl

/-- The commas between the items of a list. -/
theorem intercalate_render : (items : List Json) → Json.WellFormedItems items →
    (",".intercalate (items.map render)).toList = encoder.writeItems items
  | [], _ => rfl
  | [item], _ => by
      rw [List.map_singleton, String.intercalate_singleton, toList_render]
      exact (List.append_nil _).symm
  | item :: next :: rest, h => by
      have hmore := intercalate_render (next :: rest) h.2
      have hne : (next :: rest).map render ≠ [] := by simp
      rw [List.map_cons, String.intercalate_cons_of_ne_nil hne, String.toList_append,
        String.toList_append, hmore, toList_render, List.append_assoc, Json.Encoder.writeItems.eq_2 encoder item,
        Json.Encoder.separated, Json.writeItems_ne_nil encoder h.2 (List.cons_ne_nil _ _)]
      rfl

/-- A member of an object, as it is written. -/
def renderField (field : String × Json) : String := encodeString field.1 ++ ":" ++ render field.2

theorem toList_renderField (key : String) (value : Json) :
    (renderField (key, value)).toList = encoder.string key.toList ++ ':' :: encoder.write value := by
  rw [renderField, String.toList_append, String.toList_append, encodeString_eq, toList_render, toList_render,
    List.append_assoc]
  rfl

theorem intercalate_renderField : (fields : List (String × Json)) →
    (",".intercalate (fields.map renderField)).toList = encoder.writeFields fields
  | [] => rfl
  | [(key, value)] => by
      rw [List.map_singleton, String.intercalate_singleton, toList_renderField]
      exact (List.append_nil _).symm
  | (key, value) :: next :: rest => by
      have hmore := intercalate_renderField (next :: rest)
      have hne : (next :: rest).map renderField ≠ [] := by simp
      rw [List.map_cons, String.intercalate_cons_of_ne_nil hne, String.toList_append,
        String.toList_append, hmore, toList_renderField, List.append_assoc,
        Json.Encoder.writeFields.eq_2 encoder key, Json.Encoder.separated,
        Json.writeFields_ne_nil encoder (List.cons_ne_nil _ _)]
      rfl

theorem encodeObject_eq (fields : List (String × Json)) :
    encodeObject (fields.map fun field => (field.1, render field.2)) = render (.obj fields) := by
  apply String.toList_injective
  rw [encodeObject, encodeMembers, List.map_map, String.toList_append, String.toList_append, toList_render]
  show _ ++ (",".intercalate (fields.map renderField)).toList ++ _ = _
  rw [intercalate_renderField]
  rfl

mutual

theorem encode_eq : (term : Term) → term.json.WellFormed → encode term = render term.json
  | .atom name, _ => encodeAtom_eq name
  | .int value, _ => toString_int value
  | .float text, _ => (String.ofList_toList).symm
  | .binary value, _ => encodeString_eq value
  | .list items, h => by
      apply String.toList_injective
      rw [encode, encodeItems_eq items h, String.toList_append, String.toList_append,
        intercalate_render _ h, toList_render]
      rfl
  | .map entries, h => by
      rw [encode, encodeEntries_eq entries h, encodeObject_eq]
      rfl

theorem encodeItems_eq : (items : Terms) → Json.WellFormedItems items.json →
    encodeItems items = items.json.map render
  | .nil, _ => rfl
  | .cons head tail, h => by
      rw [encodeItems, encode_eq head h.1, encodeItems_eq tail h.2]
      rfl

theorem encodeEntries_eq : (entries : Entries) → Json.WellFormedFields entries.json →
    encodeEntries entries = entries.json.map fun field => (field.1, render field.2)
  | .nil, _ => rfl
  | .cons key value rest, h => by
      rw [encodeEntries, encode_eq value h.1, encodeEntries_eq rest h.2]
      rfl

end

/-- What the encoder has written is read as the value of the term. -/
theorem read_render {value : Json} (h : value.WellFormed) : Json.read (render value).toList = some value := by
  rw [render, String.toList_ofList]
  exact Json.read_write encoder h

end Jason
end BookHub.Elixir
