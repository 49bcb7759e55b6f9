import BookHub.Base.Utf8

/-!
# Percent escapes

The bytes that a text with escapes stands for, and what a server makes of the path of a request: it
decodes the escapes that are characters, but for the slash, once. The decoded path may hold a percent
sign in front of two digits by then, so it stands for fewer bytes where it is decoded again.
-/

namespace BookHub.Uri

def escapedByte? (a b : Char) : Option UInt8 := do
  let high ← hexValue? a
  let low ← hexValue? b
  return UInt8.ofNat (16 * high + low)

/-- The bytes that a text stands for. -/
def octets : List Char → List UInt8
  | '%' :: a :: b :: rest =>
      match escapedByte? a b with
      | some byte => byte :: octets rest
      | none => Utf8.encodeChar '%' ++ octets (a :: b :: rest)
  | c :: rest => Utf8.encodeChar c ++ octets rest
  | [] => []

/-! ### The path of a request -/

/-- The bytes of the first `n` escapes. -/
def escapes? : Nat → List Char → Option (List UInt8)
  | 0, _ => some []
  | n + 1, '%' :: a :: b :: rest => do
      let byte ← escapedByte? a b
      let bytes ← escapes? n rest
      return byte :: bytes
  | _ + 1, _ => none

/-- The character that the first `n` escapes are; a slash stays as it is. -/
def escapedCharOf? (n : Nat) (text : List Char) : Option Char := do
  let bytes ← escapes? n text
  match Utf8.decode bytes with
  | [c] => if Utf8.encodeChar c = bytes ∧ c ≠ '/' then some c else none
  | _ => none

def escapedChar? (text : List Char) : Option Char :=
  [1, 2, 3, 4].findSome? fun n => escapedCharOf? n text

/-- Decode a text whose first `skipped` characters have been. -/
def decodeFrom : Nat → List Char → List Char
  | _, [] => []
  | skipped + 1, _ :: rest => decodeFrom skipped rest
  | 0, c :: rest =>
      match escapedChar? (c :: rest) with
      | some decoded => decoded :: decodeFrom (3 * (Utf8.encodeChar decoded).length - 1) rest
      | none => c :: decodeFrom 0 rest

def decodePath (text : List Char) : List Char := decodeFrom 0 text

example : decodePath "a%20b%2Fc%C3%AB%FF%2541".toList = "a b%2Fcë%FF%41".toList := by decide

def beginsHex : List Char → Bool
  | a :: b :: _ => (escapedByte? a b).isSome
  | _ => false

/-- A percent sign, escaped or not, comes to stand in front of two digits when the text is decoded. -/
def hidesEscape : List Char → Bool
  | '%' :: a :: b :: rest =>
      match escapedByte? a b with
      | some byte => (byte == 37 && beginsHex (decodePath rest)) || hidesEscape rest
      | none => beginsHex (decodePath (a :: b :: rest)) || hidesEscape (a :: b :: rest)
  | _ :: rest => hidesEscape rest
  | [] => false

example : ["%2541", "%25%341", "%4%31", "100%25", "%25z1", "%2F%41"].map (hidesEscape ∘ String.toList) =
    [true, true, true, false, false, false] := by decide

/-! ### Bytes -/

theorem octets_escape {a b : Char} {byte : UInt8} (h : escapedByte? a b = some byte)
    (rest : List Char) : octets ('%' :: a :: b :: rest) = byte :: octets rest := by
  rw [octets, h]

/-- No escape begins with the first character. -/
theorem octets_cons {c : Char} {rest : List Char}
    (h : c = '%' → ∀ a b tail, rest = a :: b :: tail → escapedByte? a b = none) :
    octets (c :: rest) = Utf8.encodeChar c ++ octets rest := by
  rw [octets.eq_def (c :: rest)]
  split
  · rename_i a b tail heq
    obtain ⟨rfl, rfl⟩ := List.cons.inj heq
    rw [h rfl a b tail rfl]
  · rename_i heq
    obtain ⟨rfl, rfl⟩ := List.cons.inj heq
    rfl
  · rename_i heq
    cases heq

theorem octets_cons_of_ne {c : Char} (h : c ≠ '%') (rest : List Char) :
    octets (c :: rest) = Utf8.encodeChar c ++ octets rest :=
  octets_cons fun heq => absurd heq h

theorem escapedByte?_of_not_hex {a b : Char} (h : hexValue? a = none ∨ hexValue? b = none) :
    escapedByte? a b = none := by
  unfold escapedByte?
  obtain h | h := h
  · rw [h]
    rfl
  · rw [h]
    cases hexValue? a with
    | none => rfl
    | some high => rfl

theorem escapedByte?_of_isSome {a b : Char}
    (h : ((hexValue? a).isSome && (hexValue? b).isSome) = true) :
    ∃ high low, hexValue? a = some high ∧ hexValue? b = some low ∧
      escapedByte? a b = some (UInt8.ofNat (16 * high + low)) := by
  obtain ⟨hhigh, hlow⟩ := Bool.and_eq_true_iff.mp h
  obtain ⟨high, hhigh⟩ := Option.isSome_iff_exists.mp hhigh
  obtain ⟨low, hlow⟩ := Option.isSome_iff_exists.mp hlow
  refine ⟨high, low, hhigh, hlow, ?_⟩
  rw [escapedByte?, hhigh, hlow]
  rfl

/-- A percent sign that is no escape, in front of what is no hexadecimal number or too short for one. -/
theorem octets_percent {a b : Char} {rest : List Char}
    (h : ¬ ((hexValue? a).isSome && (hexValue? b).isSome) = true) :
    octets ('%' :: a :: b :: rest) = Utf8.encodeChar '%' ++ octets (a :: b :: rest) := by
  apply octets_cons
  intro _ a' b' tail heq
  cases heq
  apply escapedByte?_of_not_hex
  rw [Bool.and_eq_true, not_and_or, Option.not_isSome_iff_eq_none, Option.not_isSome_iff_eq_none] at h
  exact h

theorem octets_of_short {c : Char} {rest : List Char}
    (h : ∀ a b tail, c = '%' → rest = a :: b :: tail → False) :
    octets (c :: rest) = Utf8.encodeChar c ++ octets rest := by
  apply octets_cons
  intro hc a b tail hrest
  cases h a b tail hc hrest

theorem hexValue?_percent : hexValue? '%' = none := by decide

/-- An escape ends where no hexadecimal digit follows. -/
theorem octets_append {c : Char} (hc : hexValue? c = none) (first rest : List Char) :
    octets (first ++ c :: rest) = octets first ++ octets (c :: rest) := by
  induction first using octets.induct with
  | case1 a b tail byte hbyte ih =>
      rw [octets_escape hbyte, List.cons_append, List.cons_append, List.cons_append,
        octets_escape hbyte, ih]
      rfl
  | case2 a b tail hbyte ih =>
      have hno : ∀ tail', '%' = '%' →
          ∀ a' b' t, a :: b :: tail' = a' :: b' :: t → escapedByte? a' b' = none := by
        intro tail' _ a' b' t heq
        cases heq
        exact hbyte
      rw [octets_cons (hno tail), List.cons_append, List.append_assoc, ← ih]
      exact octets_cons (hno _)
  | case3 d tail hnot ih =>
      have hno : d = '%' → ∀ a b t, tail ++ c :: rest = a :: b :: t → escapedByte? a b = none := by
        intro hd a b t heq
        apply escapedByte?_of_not_hex
        cases tail with
        | nil =>
            cases heq
            exact .inl hc
        | cons a' tail =>
            cases tail with
            | nil =>
                cases heq
                exact .inr hc
            | cons b' tail => exact absurd rfl (hnot a' b' tail hd)
      have hno' : d = '%' → ∀ a b t, tail = a :: b :: t → escapedByte? a b = none := by
        intro hd a b t heq
        exact absurd heq (hnot a b t hd)
      rw [List.cons_append, octets_cons hno, octets_cons hno', ih, List.append_assoc]
  | case4 => rfl

theorem ne_percent_of_hexValue {c : Char} {n : Nat} (h : hexValue? c = some n) : c ≠ '%' := by
  rintro rfl
  rw [hexValue?_percent] at h
  cases h

theorem escapedByte?_eq_some {a b : Char} {byte : UInt8} (h : escapedByte? a b = some byte) :
    ∃ high low, hexValue? a = some high ∧ hexValue? b = some low ∧
      byte = UInt8.ofNat (16 * high + low) := by
  obtain ⟨high, hhigh, h⟩ := Option.bind_eq_some_iff.mp h
  obtain ⟨low, hlow, h⟩ := Option.bind_eq_some_iff.mp h
  cases h
  exact ⟨high, low, hhigh, hlow, rfl⟩

theorem length_encodeChar_pos (c : Char) : 0 < (Utf8.encodeChar c).length := by
  rw [Utf8.encodeChar, List.length_map]
  unfold utf8Bytes
  split
  · exact Nat.zero_lt_succ _
  · split
    · exact Nat.zero_lt_succ _
    · split <;> exact Nat.zero_lt_succ _

/-! ### A canonical segment stands for the same bytes -/

theorem hexValue?_hexDigit {n : Nat} (h : n < 16) : hexValue? (hexDigit n) = some n := by
  have hall : ((List.range 16).all fun n => hexValue? (hexDigit n) == some n) = true := by decide
  exact beq_iff_eq.mp (List.all_eq_true.mp hall n (List.mem_range.mpr h))

theorem octets_escape_append (c : Char) (rest : List Char) :
    octets (escape c ++ rest) = Utf8.encodeChar c ++ octets rest := by
  have hbytes : ∀ bytes : List Nat, (∀ b ∈ bytes, b < 0xF8) →
      octets ((bytes.flatMap fun byte => ['%', hexDigit (byte / 16), hexDigit (byte % 16)]) ++ rest) =
        bytes.map UInt8.ofNat ++ octets rest := by
    intro bytes hlt
    induction bytes with
    | nil => rfl
    | cons byte bytes ih =>
        have hbyte := hlt byte List.mem_cons_self
        have hescaped : escapedByte? (hexDigit (byte / 16)) (hexDigit (byte % 16)) =
            some (UInt8.ofNat byte) := by
          have hsum : 16 * (byte / 16) + byte % 16 = byte := Nat.div_add_mod byte 16
          rw [escapedByte?, hexValue?_hexDigit (by omega),
            hexValue?_hexDigit (Nat.mod_lt _ (by decide))]
          show some (UInt8.ofNat (16 * (byte / 16) + byte % 16)) = _
          rw [hsum]
        rw [List.flatMap_cons, List.append_assoc]
        show octets ('%' :: _ :: _ :: _) = _
        rw [octets_escape hescaped, List.map_cons, List.cons_append]
        exact congrArg _ (ih fun b hb => hlt b (List.mem_cons_of_mem _ hb))
  exact hbytes _ fun b hb => Utf8.utf8Bytes_lt hb

theorem hexValue?_lt {c : Char} {n : Nat} (h : hexValue? c = some n) : n < 16 := by
  unfold hexValue? at h
  dsimp only at h
  split at h
  · rename_i hmem
    cases h
    exact List.idxOf_lt_length_iff.mpr (List.contains_iff_mem.mp hmem)
  · cases h

/-- What needs no escape is one byte. -/
theorem encodeChar_of_unescaped {a b c : Char} (h : unescaped? a b = some c) :
    ∃ byte, escapedByte? a b = some byte ∧ Utf8.encodeChar c = [byte] := by
  obtain ⟨high, hhigh, h⟩ := Option.bind_eq_some_iff.mp h
  obtain ⟨low, hlow, h⟩ := Option.bind_eq_some_iff.mp h
  have hhigh16 := hexValue?_lt hhigh
  have hlow16 := hexValue?_lt hlow
  have hall : ((List.range 256).all fun n =>
      !isUnreserved (Char.ofNat n) || Utf8.encodeChar (Char.ofNat n) == [UInt8.ofNat n]) = true := by
    decide +kernel
  have hn := List.all_eq_true.mp hall (16 * high + low) (List.mem_range.mpr (by omega))
  refine ⟨UInt8.ofNat (16 * high + low), ?_, ?_⟩
  · rw [escapedByte?, hhigh, hlow]
    rfl
  · dsimp only at h
    split at h
    · rename_i hunreserved
      cases h
      rw [hunreserved] at hn
      exact beq_iff_eq.mp hn
    · cases h

theorem octets_canonicalSegment (segment : List Char) :
    octets (canonicalSegment segment) = octets segment := by
  induction segment using canonicalSegment.induct with
  | case1 a b rest c hc ih =>
      obtain ⟨byte, hbyte, hencode⟩ := encodeChar_of_unescaped hc
      have hne : c ≠ '%' := by
        rintro rfl
        exact absurd (isUnreserved_of_unescaped hc) (by decide)
      rw [canonicalSegment, hc, octets_escape hbyte]
      dsimp only
      rw [octets_cons_of_ne hne, hencode, ih]
      rfl
  | case2 a b rest hnone hboth ih =>
      obtain ⟨high, low, hhigh, hlow, hbyte⟩ := escapedByte?_of_isSome hboth
      rw [canonicalSegment, hnone]
      dsimp only
      rw [if_pos hboth, octets_escape hbyte, octets_escape hbyte, ih]
  | case3 a b rest hnone hnot ih =>
      rw [canonicalSegment, hnone]
      dsimp only
      rw [if_neg hnot, octets_escape_append, ih, octets_percent hnot]
  | case4 c rest hnot ih =>
      rw [canonicalSegment, octets_of_short hnot]
      · split
        · rename_i hplain
          have hne : c ≠ '%' := by
            rintro rfl
            exact absurd hplain (by decide)
          rw [List.singleton_append, octets_cons_of_ne hne, ih]
        · rw [octets_escape_append, ih]
      · exact hnot
  | case5 => rfl

/-! ### Decoding once -/

theorem decodeFrom_eq (skipped : Nat) (text : List Char) :
    decodeFrom skipped text = decodePath (text.drop skipped) := by
  induction skipped generalizing text with
  | zero => rfl
  | succ skipped ih =>
      cases text with
      | nil => rfl
      | cons c rest => exact ih rest

theorem escapes?_succ {n : Nat} {text : List Char} {bytes : List UInt8}
    (h : escapes? (n + 1) text = some bytes) :
    ∃ a b rest byte others, text = '%' :: a :: b :: rest ∧ escapedByte? a b = some byte ∧
      escapes? n rest = some others ∧ bytes = byte :: others := by
  rw [escapes?.eq_def] at h
  split at h
  · rename_i heq
    cases heq
  · rename_i a b rest heq
    cases heq
    obtain ⟨byte, hbyte, h⟩ := Option.bind_eq_some_iff.mp h
    obtain ⟨others, hothers, h⟩ := Option.bind_eq_some_iff.mp h
    cases h
    exact ⟨a, b, rest, byte, others, rfl, hbyte, hothers, rfl⟩
  · cases h

theorem octets_of_escapes {n : Nat} {text : List Char} {bytes : List UInt8}
    (h : escapes? n text = some bytes) :
    bytes.length = n ∧ 3 * n ≤ text.length ∧ octets text = bytes ++ octets (text.drop (3 * n)) := by
  induction n generalizing text bytes with
  | zero =>
      cases h
      exact ⟨rfl, Nat.zero_le _, rfl⟩
  | succ n ih =>
      obtain ⟨a, b, rest, byte, others, rfl, hbyte, hothers, rfl⟩ := escapes?_succ h
      obtain ⟨hlength, hshort, hoctets⟩ := ih hothers
      refine ⟨congrArg (· + 1) hlength, ?_, ?_⟩
      · simp only [List.length_cons]
        omega
      · rw [octets_escape hbyte, hoctets]
        rfl

/-- What is decoded are the bytes of a character, and no slash. -/
theorem octets_of_escapedChar {text : List Char} {c : Char} (h : escapedChar? text = some c) :
    c ≠ '/' ∧ escapes? (Utf8.encodeChar c).length text = some (Utf8.encodeChar c) := by
  obtain ⟨n, -, h⟩ := List.exists_of_findSome?_eq_some h
  obtain ⟨bytes, hbytes, h⟩ := Option.bind_eq_some_iff.mp h
  split at h
  · split at h
    · rename_i hvalid
      cases h
      obtain ⟨hencode, hslash⟩ := hvalid
      rw [hencode, (octets_of_escapes hbytes).1]
      exact ⟨hslash, hbytes⟩
    · cases h
  · cases h

theorem escapedChar?_of_ne {c : Char} (h : c ≠ '%') (rest : List Char) :
    escapedChar? (c :: rest) = none := by
  have hnone : ∀ n, escapes? (n + 1) (c :: rest) = none := by
    intro n
    rw [escapes?]
    intro a b tail heq
    exact h (List.cons.inj heq).1
  simp [escapedChar?, escapedCharOf?, hnone]

theorem decodePath_of_none {c : Char} {rest : List Char} (h : escapedChar? (c :: rest) = none) :
    decodePath (c :: rest) = c :: decodePath rest := by
  rw [decodePath, decodeFrom, h]
  rfl

theorem decodePath_of_some {c decoded : Char} {rest : List Char}
    (h : escapedChar? (c :: rest) = some decoded) :
    decodePath (c :: rest) =
      decoded :: decodePath ((c :: rest).drop (3 * (Utf8.encodeChar decoded).length)) := by
  have hpos := length_encodeChar_pos decoded
  obtain ⟨k, hk⟩ : ∃ k, 3 * (Utf8.encodeChar decoded).length = k + 1 :=
    ⟨3 * (Utf8.encodeChar decoded).length - 1, by omega⟩
  rw [decodePath, decodeFrom, h]
  dsimp only
  rw [decodeFrom_eq, hk]
  rfl

/-- A percent sign in front of two digits takes their bytes away. -/
theorem octets_percent_cons (text : List Char) :
    (beginsHex text = false → octets ('%' :: text) = Utf8.encodeChar '%' ++ octets text) ∧
      (beginsHex text = true →
        (octets ('%' :: text)).length < (Utf8.encodeChar '%').length + (octets text).length) := by
  constructor
  · intro hno
    apply octets_cons
    intro _ a b tail htext
    rw [htext] at hno
    exact Option.isSome_eq_false_iff.mp hno |> Option.isNone_iff_eq_none.mp
  · intro hhex
    unfold beginsHex at hhex
    split at hhex
    · rename_i a b tail
      obtain ⟨byte, hbyte⟩ := Option.isSome_iff_exists.mp hhex
      obtain ⟨high, low, hhigh, hlow, -⟩ := escapedByte?_eq_some hbyte
      have ha := length_encodeChar_pos a
      have hb := length_encodeChar_pos b
      have hpercent := length_encodeChar_pos '%'
      rw [octets_escape hbyte, octets_cons_of_ne (ne_percent_of_hexValue hhigh),
        octets_cons_of_ne (ne_percent_of_hexValue hlow), List.length_cons, List.length_append,
        List.length_append]
      omega
    · cases hhex

theorem hidesEscape_cons_of_ne {c : Char} (h : c ≠ '%') (rest : List Char) :
    hidesEscape (c :: rest) = hidesEscape rest := by
  rw [hidesEscape]
  intro a b tail hc
  exact absurd hc h

theorem hidesEscape_escape {a b : Char} {byte : UInt8} (h : escapedByte? a b = some byte)
    (rest : List Char) : hidesEscape ('%' :: a :: b :: rest) =
      ((byte == 37 && beginsHex (decodePath rest)) || hidesEscape rest) := by
  rw [hidesEscape, h]

/-- A percent sign that is no escape. -/
theorem hidesEscape_percent {rest : List Char}
    (h : ∀ a b tail, rest = a :: b :: tail → escapedByte? a b = none) :
    hidesEscape ('%' :: rest) = (beginsHex (decodePath rest) || hidesEscape rest) := by
  cases rest with
  | nil => rfl
  | cons a rest =>
      cases rest with
      | nil =>
          have hnone : escapedChar? [a] = none := by
            rw [Option.eq_none_iff_forall_ne_some]
            intro decoded hdecoded
            obtain ⟨-, hshort, -⟩ := octets_of_escapes (octets_of_escapedChar hdecoded).2
            have hpos := length_encodeChar_pos decoded
            rw [List.length_singleton] at hshort
            omega
          rw [decodePath_of_none hnone, hidesEscape]
          · rfl
          · intro a' b' tail _ heq
            cases heq
      | cons b tail => rw [hidesEscape, h a b tail rfl]

theorem hidesEscape_drop {n : Nat} {text : List Char} {bytes : List UInt8}
    (h : escapes? n text = some bytes) (hbytes : 37 ∉ bytes) :
    hidesEscape text = hidesEscape (text.drop (3 * n)) := by
  induction n generalizing text bytes with
  | zero => rfl
  | succ n ih =>
      obtain ⟨a, b, rest, byte, others, rfl, hbyte, hothers, rfl⟩ := escapes?_succ h
      rw [List.mem_cons, not_or] at hbytes
      have hne : (byte == 37) = false := beq_eq_false_iff_ne.mpr (Ne.symm hbytes.1)
      rw [hidesEscape_escape hbyte, hne, ih hothers hbytes.2]
      rfl

/-- The bytes of a text that decodes to a character and what follows it. -/
theorem octets_decodePath_cons {text after : List Char} {decoded : Char}
    (ih : (hidesEscape after = false → octets (decodePath after) = octets after) ∧
      (hidesEscape after = true → (octets (decodePath after)).length < (octets after).length))
    (hoctets : octets text = Utf8.encodeChar decoded ++ octets after)
    (hhides : hidesEscape text =
      ((decoded == '%' && beginsHex (decodePath after)) || hidesEscape after))
    (hdecoded : decodePath text = decoded :: decodePath after) :
    (hidesEscape text = false → octets (decodePath text) = octets text) ∧
      (hidesEscape text = true → (octets (decodePath text)).length < (octets text).length) := by
  rw [hdecoded, hoctets, hhides, List.length_append]
  cases hmade : decoded == '%' && beginsHex (decodePath after) with
  | false =>
      have hcons : octets (decoded :: decodePath after) =
          Utf8.encodeChar decoded ++ octets (decodePath after) := by
        obtain hne | hbegins := Bool.and_eq_false_iff.mp hmade
        · exact octets_cons_of_ne (beq_eq_false_iff_ne.mp hne) _
        · by_cases hpercent : decoded = '%'
          · subst hpercent
            exact (octets_percent_cons _).1 hbegins
          · exact octets_cons_of_ne hpercent _
      rw [Bool.false_or, hcons, List.length_append]
      refine ⟨fun h => congrArg _ (ih.1 h), ?_⟩
      intro h
      have hlt := ih.2 h
      omega
  | true =>
      obtain ⟨hpercent, hbegins⟩ := Bool.and_eq_true_iff.mp hmade
      rw [beq_iff_eq.mp hpercent]
      have hlt := (octets_percent_cons _).2 hbegins
      refine ⟨fun h => absurd h (by simp), fun _ => ?_⟩
      cases hafter : hidesEscape after with
      | false =>
          rw [← ih.1 hafter]
          exact hlt
      | true =>
          have hle := ih.2 hafter
          omega

theorem escapedChar?_of_byte {a b c : Char} {byte : UInt8} (h : escapedByte? a b = some byte)
    (hc : Utf8.encodeChar c = [byte]) (hslash : c ≠ '/') (rest : List Char) :
    escapedChar? ('%' :: a :: b :: rest) = some c := by
  have hdecode : Utf8.decode [byte] = [c] := by
    rw [← hc, ← Utf8.decode_encode [c], Utf8.encode, List.flatMap_singleton]
  have hone : escapedCharOf? 1 ('%' :: a :: b :: rest) = some c := by
    rw [escapedCharOf?, escapes?, h]
    simp only [escapes?, Option.bind_eq_bind, Option.bind_some, Option.pure_def, hdecode, hc, true_and]
    exact if_pos hslash
  rw [escapedChar?, List.findSome?_cons, hone]

/-- The bytes of the first character, where it is decoded and where it is not. -/
theorem hidesEscape_of_escapedChar {text : List Char} {decoded : Char}
    (h : escapedChar? text = some decoded) :
    hidesEscape text =
      ((decoded == '%' && beginsHex (decodePath (text.drop (3 * (Utf8.encodeChar decoded).length)))) ||
        hidesEscape (text.drop (3 * (Utf8.encodeChar decoded).length))) := by
  obtain ⟨-, hescapes⟩ := octets_of_escapedChar h
  by_cases hpercent : decoded = '%'
  · subst hpercent
    have hone : (Utf8.encodeChar '%') = [37] := by decide
    rw [hone] at hescapes ⊢
    obtain ⟨a, b, rest, byte, others, rfl, hbyte, -, hbytes⟩ := escapes?_succ hescapes
    cases hbytes
    exact hidesEscape_escape hbyte rest
  · rw [beq_eq_false_iff_ne.mpr hpercent, Bool.false_and, Bool.false_or]
    apply hidesEscape_drop hescapes
    intro hmem
    have hbyte : (37 : UInt8) ∈ Utf8.encode [decoded] := by
      rw [Utf8.encode, List.flatMap_singleton]
      exact hmem
    have hdecoded := Utf8.mem_of_ascii_mem_encode (b := 37) (by decide) hbyte
    exact hpercent (List.mem_singleton.mp hdecoded).symm

/-- Decoding leaves the bytes, or an escape that it makes takes some away. -/
theorem octets_decodePath (text : List Char) :
    (hidesEscape text = false → octets (decodePath text) = octets text) ∧
      (hidesEscape text = true → (octets (decodePath text)).length < (octets text).length) := by
  induction text using length_induction with
  | nil => exact ⟨fun _ => rfl, fun h => by cases h⟩
  | cons c rest ih =>
      cases hchar : escapedChar? (c :: rest) with
      | some decoded =>
          obtain ⟨-, hescapes⟩ := octets_of_escapedChar hchar
          obtain ⟨-, hshort, hoctets⟩ := octets_of_escapes hescapes
          have hpos := length_encodeChar_pos decoded
          apply octets_decodePath_cons (ih _ ?_) hoctets (hidesEscape_of_escapedChar hchar)
            (decodePath_of_some hchar)
          rw [List.length_drop, List.length_cons]
          omega
      | none =>
          have hdecoded := decodePath_of_none hchar
          by_cases hescape : c = '%' ∧
              ∃ a b tail byte, rest = a :: b :: tail ∧ escapedByte? a b = some byte
          · -- an escape that is kept
            obtain ⟨rfl, a, b, tail, byte, rfl, hbyte⟩ := hescape
            obtain ⟨high, low, hhigh, hlow, -⟩ := escapedByte?_eq_some hbyte
            have hne : (byte == 37) = false := by
              apply beq_eq_false_iff_ne.mpr
              rintro rfl
              rw [escapedChar?_of_byte (c := '%') hbyte (by decide) (by decide)] at hchar
              cases hchar
            obtain ⟨hsame, hless⟩ := ih tail (by simp only [List.length_cons]; omega)
            rw [hdecoded, decodePath_of_none (escapedChar?_of_ne (ne_percent_of_hexValue hhigh) _),
              decodePath_of_none (escapedChar?_of_ne (ne_percent_of_hexValue hlow) _),
              octets_escape hbyte, octets_escape hbyte, hidesEscape_escape hbyte, hne]
            exact ⟨fun h => congrArg _ (hsame h), fun h => Nat.succ_lt_succ (hless h)⟩
          · have hno : c = '%' → ∀ a b tail, rest = a :: b :: tail → escapedByte? a b = none := by
              intro hc a b tail hrest
              rw [Option.eq_none_iff_forall_ne_some]
              intro byte hbyte
              exact hescape ⟨hc, a, b, tail, byte, hrest, hbyte⟩
            apply octets_decodePath_cons (ih rest (Nat.lt_succ_self _)) (octets_cons hno) ?_ hdecoded
            by_cases hc : c = '%'
            · subst hc
              exact hidesEscape_percent (hno rfl)
            · rw [hidesEscape_cons_of_ne hc, beq_eq_false_iff_ne.mpr hc]
              rfl

theorem length_octets_decodePath_le (text : List Char) :
    (octets (decodePath text)).length ≤ (octets text).length := by
  obtain ⟨hsame, hless⟩ := octets_decodePath text
  cases hhides : hidesEscape text with
  | false => rw [hsame hhides]
  | true => exact Nat.le_of_lt (hless hhides)

/-! ### Segment by segment -/

theorem escapes?_append_slash (n : Nat) (first rest : List Char) :
    escapes? n (first ++ '/' :: rest) = escapes? n first := by
  have hslash : hexValue? '/' = none := by decide
  induction n generalizing first with
  | zero => rfl
  | succ n ih =>
      cases first with
      | nil => rfl
      | cons c first =>
          by_cases hc : c = '%'
          · subst hc
            cases first with
            | nil =>
                cases rest with
                | nil => rfl
                | cons b rest =>
                    show Option.bind (escapedByte? '/' b) (fun byte =>
                      (escapes? n rest).bind fun bytes => some (byte :: bytes)) = none
                    rw [escapedByte?_of_not_hex (.inl hslash)]
                    rfl
            | cons a first =>
                cases first with
                | nil =>
                    show Option.bind (escapedByte? a '/') (fun byte =>
                      (escapes? n rest).bind fun bytes => some (byte :: bytes)) = none
                    rw [escapedByte?_of_not_hex (.inr hslash)]
                    rfl
                | cons b tail =>
                    show (escapedByte? a b).bind (fun byte =>
                      (escapes? n (tail ++ '/' :: rest)).bind fun bytes => some (byte :: bytes)) = _
                    rw [ih]
                    rfl
          · have hnone : ∀ text, escapes? (n + 1) (c :: text) = none := by
              intro text
              rw [escapes?]
              intro a b tail heq
              exact hc (List.cons.inj heq).1
            rw [List.cons_append, hnone, hnone]

theorem decodePath_append_slash (first rest : List Char) :
    decodePath (first ++ '/' :: rest) = decodePath first ++ '/' :: decodePath rest := by
  have hsame : ∀ text, escapedChar? (text ++ '/' :: rest) = escapedChar? text := by
    intro text
    simp only [escapedChar?, escapedCharOf?, escapes?_append_slash]
  induction first using length_induction with
  | nil => exact decodePath_of_none (escapedChar?_of_ne (by decide) rest)
  | cons c tail ih =>
      have hwhole := hsame (c :: tail)
      cases hdecoded : escapedChar? (c :: tail) with
      | some decoded =>
          obtain ⟨-, hescapes⟩ := octets_of_escapedChar hdecoded
          obtain ⟨-, hshort, -⟩ := octets_of_escapes hescapes
          have hpos := length_encodeChar_pos decoded
          rw [hdecoded, List.cons_append] at hwhole
          rw [List.cons_append, decodePath_of_some hwhole, decodePath_of_some hdecoded,
            ← List.cons_append, List.drop_append_of_le_length hshort, ih, List.cons_append]
          rw [List.length_drop, List.length_cons]
          omega
      | none =>
          rw [hdecoded, List.cons_append] at hwhole
          rw [List.cons_append, decodePath_of_none hwhole, decodePath_of_none hdecoded,
            ih tail (Nat.lt_succ_self _), List.cons_append]

theorem slash_not_mem_decodePath {text : List Char} (h : '/' ∉ text) : '/' ∉ decodePath text := by
  induction text using length_induction with
  | nil => exact List.not_mem_nil
  | cons c rest ih =>
      cases hdecoded : escapedChar? (c :: rest) with
      | some decoded =>
          obtain ⟨hslash, hescapes⟩ := octets_of_escapedChar hdecoded
          have hpos := length_encodeChar_pos decoded
          rw [decodePath_of_some hdecoded]
          apply List.not_mem_cons_of_ne_of_not_mem hslash.symm
          apply ih
          · rw [List.length_drop, List.length_cons]
            omega
          · exact fun hmem => h (List.mem_of_mem_drop hmem)
      | none =>
          rw [decodePath_of_none hdecoded]
          rw [List.mem_cons, not_or] at h
          exact List.not_mem_cons_of_ne_of_not_mem h.1 (ih rest (Nat.lt_succ_self _) h.2)

/-- A path is decoded segment by segment. -/
theorem splitOn_decodePath (text : List Char) :
    (decodePath text).splitOn '/' = (text.splitOn '/').map decodePath := by
  have hintercalate : ∀ segments : List (List Char), decodePath (List.intercalate ['/'] segments) =
      List.intercalate ['/'] (segments.map decodePath) := by
    intro segments
    induction segments with
    | nil => rfl
    | cons segment others ih =>
        cases others with
        | nil => simp
        | cons second others =>
            rw [List.intercalate_cons_cons, List.append_assoc, List.singleton_append,
              decodePath_append_slash, ih, List.map_cons, List.map_cons, List.map_cons,
              List.intercalate_cons_cons, List.append_assoc, List.singleton_append]
  have hfree : ∀ segment ∈ (text.splitOn '/').map decodePath, '/' ∉ segment := by
    intro segment hsegment
    obtain ⟨raw, hraw, rfl⟩ := List.mem_map.mp hsegment
    apply slash_not_mem_decodePath
    intro hmem
    exact absurd (not_of_mem_splitOnP raw hraw '/' hmem) (by decide)
  have hne : (text.splitOn '/').map decodePath ≠ [] := by simp
  rw [← List.splitOn_intercalate '/' hfree hne, ← hintercalate, List.intercalate_splitOn]

end BookHub.Uri
