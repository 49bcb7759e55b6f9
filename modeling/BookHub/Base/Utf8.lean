import BookHub.Base.Uri

/-!
# Text in bytes

UTF-8 as text is written in it, and as it is read: what is not UTF-8 is read as the replacement
character, once for each maximal part that could have begun one. So writing what was read gives the
bytes back exactly where they are UTF-8. A reader that looks for a byte-order mark first drops the mark,
and reads the rest in the encoding that the mark is of.
-/

namespace BookHub

namespace Utf8

def replacement : Char := Char.ofNat 0xFFFD

def encodeChar (c : Char) : List UInt8 := (Uri.utf8Bytes c.toNat).map UInt8.ofNat

def encode (text : List Char) : List UInt8 := text.flatMap encodeChar

/-! ### Reading -/

/-- A character of which some bytes are still to come, with what the next one may be. -/
structure Pending where
  value : Nat
  needed : Nat
  low : Nat
  high : Nat
  deriving DecidableEq

/-- The first byte of a character. -/
def start (b : Nat) : List Char × Option Pending :=
  if b < 0x80 then ([Char.ofNat b], none)
  else if 0xC2 ≤ b ∧ b ≤ 0xDF then ([], some ⟨b - 0xC0, 1, 0x80, 0xBF⟩)
  else if 0xE0 ≤ b ∧ b ≤ 0xEF then
    ([], some ⟨b - 0xE0, 2, if b = 0xE0 then 0xA0 else 0x80, if b = 0xED then 0x9F else 0xBF⟩)
  else if 0xF0 ≤ b ∧ b ≤ 0xF4 then
    ([], some ⟨b - 0xF0, 3, if b = 0xF0 then 0x90 else 0x80, if b = 0xF4 then 0x8F else 0xBF⟩)
  else ([replacement], none)

/-- One of the bytes that follow, or a byte that cannot follow: it is the first one of the next. -/
def next (p : Pending) (b : Nat) : List Char × Option Pending :=
  if p.low ≤ b ∧ b ≤ p.high then
    if p.needed ≤ 1 then ([Char.ofNat (p.value * 0x40 + (b - 0x80))], none)
    else ([], some ⟨p.value * 0x40 + (b - 0x80), p.needed - 1, 0x80, 0xBF⟩)
  else (replacement :: (start b).1, (start b).2)

def decodeFrom : Option Pending → List Nat → List Char
  | none, [] => []
  | some _, [] => [replacement]
  | none, b :: rest => (start b).1 ++ decodeFrom (start b).2 rest
  | some p, b :: rest => (next p b).1 ++ decodeFrom (next p b).2 rest

def decode (bytes : List UInt8) : List Char := decodeFrom none (bytes.map UInt8.toNat)

/-- The bytes are those of a text. -/
def IsUtf8 (bytes : List UInt8) : Prop := ∃ text, encode text = bytes

/-- What is cut off is the first bytes of a character. -/
example : decode [0x61, 0xE2, 0x82, 0x62] = ['a', replacement, 'b'] := by decide

/-! ### What was written is read -/

/-- A code point is no surrogate. -/
theorem toNat_scalar (c : Char) : c.toNat < 0x110000 ∧ (c.toNat < 0xD800 ∨ 0xDFFF < c.toNat) := by
  have hvalid := c.valid
  simp only [UInt32.isValidChar, Nat.isValidChar] at hvalid
  show c.val.toNat < _ ∧ (c.val.toNat < _ ∨ _ < c.val.toNat)
  omega

theorem utf8Bytes_lt {c : Char} {b : Nat} (hb : b ∈ Uri.utf8Bytes c.toNat) : b < 0xF8 := by
  have hmax := (toNat_scalar c).1
  unfold Uri.utf8Bytes at hb
  split at hb
  · simp only [List.mem_cons, List.not_mem_nil, or_false] at hb
    omega
  · split at hb
    · simp only [List.mem_cons, List.not_mem_nil, or_false] at hb
      omega
    · split at hb
      · simp only [List.mem_cons, List.not_mem_nil, or_false] at hb
        omega
      · simp only [List.mem_cons, List.not_mem_nil, or_false] at hb
        omega

theorem toNat_encodeChar (c : Char) : (encodeChar c).map UInt8.toNat = Uri.utf8Bytes c.toNat := by
  rw [encodeChar, List.map_map]
  have hsame : ∀ b ∈ Uri.utf8Bytes c.toNat, (UInt8.toNat ∘ UInt8.ofNat) b = b := by
    intro b hb
    have hlt := utf8Bytes_lt hb
    show (UInt8.ofNat b).toNat = b
    rw [UInt8.toNat_ofNat']
    omega
  rw [List.map_congr_left hsame, List.map_id']

theorem decodeFrom_two (n : Nat) (hlow : 0x80 ≤ n) (hhigh : n < 0x800) (rest : List Nat) :
    decodeFrom none ((0xC0 + n / 0x40) :: (0x80 + n % 0x40) :: rest) =
      Char.ofNat n :: decodeFrom none rest := by
  have hfirst : start (0xC0 + n / 0x40) = ([], some ⟨n / 0x40, 1, 0x80, 0xBF⟩) := by
    rw [start, if_neg (by omega), if_pos (by omega), Nat.add_sub_cancel_left]
  have hsecond : next ⟨n / 0x40, 1, 0x80, 0xBF⟩ (0x80 + n % 0x40) = ([Char.ofNat n], none) := by
    have hvalue : n / 0x40 * 0x40 + (0x80 + n % 0x40 - 0x80) = n := by omega
    simp only [next]
    rw [if_pos (by omega), if_pos (by omega), hvalue]
  simp only [decodeFrom, hfirst, hsecond, List.nil_append, List.singleton_append]

theorem decodeFrom_three (n : Nat) (hlow : 0x800 ≤ n) (hhigh : n < 0x10000)
    (hscalar : n < 0xD800 ∨ 0xDFFF < n) (rest : List Nat) :
    decodeFrom none ((0xE0 + n / 0x1000) :: (0x80 + n / 0x40 % 0x40) :: (0x80 + n % 0x40) :: rest) =
      Char.ofNat n :: decodeFrom none rest := by
  have hfirst : start (0xE0 + n / 0x1000) = ([], some ⟨n / 0x1000, 2,
      if 0xE0 + n / 0x1000 = 0xE0 then 0xA0 else 0x80,
      if 0xE0 + n / 0x1000 = 0xED then 0x9F else 0xBF⟩) := by
    rw [start, if_neg (by omega), if_neg (by omega), if_pos (by omega), Nat.add_sub_cancel_left]
  have hsecond : next ⟨n / 0x1000, 2, if 0xE0 + n / 0x1000 = 0xE0 then 0xA0 else 0x80,
      if 0xE0 + n / 0x1000 = 0xED then 0x9F else 0xBF⟩ (0x80 + n / 0x40 % 0x40) =
      ([], some ⟨n / 0x40, 1, 0x80, 0xBF⟩) := by
    have hvalue : n / 0x1000 * 0x40 + (0x80 + n / 0x40 % 0x40 - 0x80) = n / 0x40 := by omega
    simp only [next]
    rw [if_pos, if_neg (by omega), hvalue]
    constructor
    · split <;> omega
    · split <;> omega
  have hthird : next ⟨n / 0x40, 1, 0x80, 0xBF⟩ (0x80 + n % 0x40) = ([Char.ofNat n], none) := by
    have hvalue : n / 0x40 * 0x40 + (0x80 + n % 0x40 - 0x80) = n := by omega
    simp only [next]
    rw [if_pos (by omega), if_pos (by omega), hvalue]
  simp only [decodeFrom, hfirst, hsecond, hthird, List.nil_append, List.singleton_append]

theorem decodeFrom_four (n : Nat) (hlow : 0x10000 ≤ n) (hhigh : n < 0x110000) (rest : List Nat) :
    decodeFrom none ((0xF0 + n / 0x40000) :: (0x80 + n / 0x1000 % 0x40) :: (0x80 + n / 0x40 % 0x40) ::
        (0x80 + n % 0x40) :: rest) = Char.ofNat n :: decodeFrom none rest := by
  have hfirst : start (0xF0 + n / 0x40000) = ([], some ⟨n / 0x40000, 3,
      if 0xF0 + n / 0x40000 = 0xF0 then 0x90 else 0x80,
      if 0xF0 + n / 0x40000 = 0xF4 then 0x8F else 0xBF⟩) := by
    rw [start, if_neg (by omega), if_neg (by omega), if_neg (by omega), if_pos (by omega),
      Nat.add_sub_cancel_left]
  have hsecond : next ⟨n / 0x40000, 3, if 0xF0 + n / 0x40000 = 0xF0 then 0x90 else 0x80,
      if 0xF0 + n / 0x40000 = 0xF4 then 0x8F else 0xBF⟩ (0x80 + n / 0x1000 % 0x40) =
      ([], some ⟨n / 0x1000, 2, 0x80, 0xBF⟩) := by
    have hvalue : n / 0x40000 * 0x40 + (0x80 + n / 0x1000 % 0x40 - 0x80) = n / 0x1000 := by omega
    simp only [next]
    rw [if_pos, if_neg (by omega), hvalue]
    constructor
    · split <;> omega
    · split <;> omega
  have hthird : next ⟨n / 0x1000, 2, 0x80, 0xBF⟩ (0x80 + n / 0x40 % 0x40) =
      ([], some ⟨n / 0x40, 1, 0x80, 0xBF⟩) := by
    have hvalue : n / 0x1000 * 0x40 + (0x80 + n / 0x40 % 0x40 - 0x80) = n / 0x40 := by omega
    simp only [next]
    rw [if_pos (by omega), if_neg (by omega), hvalue]
  have hfourth : next ⟨n / 0x40, 1, 0x80, 0xBF⟩ (0x80 + n % 0x40) = ([Char.ofNat n], none) := by
    have hvalue : n / 0x40 * 0x40 + (0x80 + n % 0x40 - 0x80) = n := by omega
    simp only [next]
    rw [if_pos (by omega), if_pos (by omega), hvalue]
  simp only [decodeFrom, hfirst, hsecond, hthird, hfourth, List.nil_append, List.singleton_append]

theorem decodeFrom_utf8Bytes (c : Char) (rest : List Nat) :
    decodeFrom none (Uri.utf8Bytes c.toNat ++ rest) = c :: decodeFrom none rest := by
  have hc : Char.ofNat c.toNat = c := Char.ofNat_toNat c
  obtain ⟨hmax, hscalar⟩ := toNat_scalar c
  unfold Uri.utf8Bytes
  split
  · rename_i hlow
    show (start c.toNat).1 ++ decodeFrom (start c.toNat).2 rest = _
    rw [start, if_pos hlow, hc]
    rfl
  · rename_i hone
    split
    · rename_i hlow
      exact (decodeFrom_two c.toNat (by omega) hlow rest).trans (by rw [hc])
    · rename_i htwo
      split
      · rename_i hlow
        exact (decodeFrom_three c.toNat (by omega) hlow hscalar rest).trans (by rw [hc])
      · exact (decodeFrom_four c.toNat (by omega) hmax rest).trans (by rw [hc])

theorem decode_encodeChar_append (c : Char) (bytes : List UInt8) :
    decode (encodeChar c ++ bytes) = c :: decode bytes := by
  rw [decode, List.map_append, toNat_encodeChar, decodeFrom_utf8Bytes]
  rfl

theorem decode_encode_append (text : List Char) (bytes : List UInt8) :
    decode (encode text ++ bytes) = text ++ decode bytes := by
  induction text with
  | nil => rfl
  | cons c rest ih =>
      rw [encode, List.flatMap_cons, List.append_assoc, decode_encodeChar_append]
      exact congrArg (c :: ·) ih

theorem decode_encode (text : List Char) : decode (encode text) = text := by
  have happend := decode_encode_append text []
  rw [List.append_nil] at happend
  rw [happend]
  exact List.append_nil text

theorem encode_append (first second : List Char) :
    encode (first ++ second) = encode first ++ encode second := List.flatMap_append

theorem isUtf8_encode (text : List Char) : IsUtf8 (encode text) := ⟨text, rfl⟩

/-- Writing what was read gives the bytes back where they are UTF-8, and only there. -/
theorem encode_decode_iff {bytes : List UInt8} : encode (decode bytes) = bytes ↔ IsUtf8 bytes := by
  constructor
  · intro h
    exact ⟨decode bytes, h⟩
  · intro ⟨text, htext⟩
    rw [← htext, decode_encode]

instance decidableIsUtf8 (bytes : List UInt8) : Decidable (IsUtf8 bytes) :=
  decidable_of_iff _ encode_decode_iff

/-- What stands behind a text is UTF-8 where the whole is. -/
theorem isUtf8_append_iff {text : List Char} {bytes : List UInt8} :
    IsUtf8 (encode text ++ bytes) ↔ IsUtf8 bytes := by
  constructor
  · intro h
    refine ⟨decode bytes, ?_⟩
    have hall := encode_decode_iff.mpr h
    rw [decode_encode_append, encode_append] at hall
    exact List.append_cancel_left hall
  · intro ⟨rest, hrest⟩
    exact ⟨text ++ rest, by rw [encode_append, hrest]⟩

/-! ### Cutting at an ASCII character -/

theorem low_start (b : Nat) : ∀ p ∈ (start b).2, 0x80 ≤ p.low := by
  intro p hp
  have hlow : ∀ q : Pending, 0x80 ≤ q.low → p ∈ some q → 0x80 ≤ p.low := by
    intro q hq heq
    rw [← Option.mem_some.mp heq]
    exact hq
  unfold start at hp
  split at hp
  · cases hp
  · split at hp
    · exact hlow _ (Nat.le_refl _) hp
    · split at hp
      · refine hlow _ ?_ hp
        dsimp only
        split <;> decide
      · split at hp
        · refine hlow _ ?_ hp
          dsimp only
          split <;> decide
        · cases hp

theorem low_next (p : Pending) (b : Nat) : ∀ q ∈ (next p b).2, 0x80 ≤ q.low := by
  intro q hq
  unfold next at hq
  split at hq
  · split at hq
    · cases hq
    · rw [← Option.mem_some.mp hq]
  · exact low_start b q hq

/-- No part of a character is ASCII, so an ASCII character is read as itself after anything. -/
theorem decodeFrom_append_ascii {state : Option Pending} (hstate : ∀ p ∈ state, 0x80 ≤ p.low) {b : Nat}
    (hb : b < 0x80) (bytes rest : List Nat) :
    decodeFrom state (bytes ++ b :: rest) =
      decodeFrom state bytes ++ Char.ofNat b :: decodeFrom none rest := by
  have hstart : start b = ([Char.ofNat b], none) := if_pos hb
  induction bytes generalizing state with
  | nil =>
      cases state with
      | none => simp only [List.nil_append, decodeFrom, hstart, List.singleton_append]
      | some p =>
          have hlow := hstate p rfl
          have hnext : next p b = (replacement :: (start b).1, (start b).2) := if_neg (by omega)
          simp only [List.nil_append, decodeFrom, hnext, hstart, List.cons_append]
  | cons c bytes ih =>
      cases state with
      | none => simp only [List.cons_append, decodeFrom, ih (low_start c), List.append_assoc]
      | some p => simp only [List.cons_append, decodeFrom, ih (low_next p c), List.append_assoc]

theorem decode_append_ascii (bytes rest : List UInt8) {b : UInt8} (hb : b.toNat < 0x80) :
    decode (bytes ++ b :: rest) = decode bytes ++ Char.ofNat b.toNat :: decode rest := by
  unfold decode
  rw [List.map_append, List.map_cons]
  apply decodeFrom_append_ascii _ hb
  intro p hp
  cases hp

theorem mem_of_ascii_mem_encode {text : List Char} {b : UInt8} (hb : b.toNat < 0x80)
    (h : b ∈ encode text) : Char.ofNat b.toNat ∈ text := by
  obtain ⟨c, hc, hmem⟩ := List.mem_flatMap.mp h
  have hnat := List.mem_map_of_mem (f := UInt8.toNat) hmem
  rw [toNat_encodeChar] at hnat
  have hsame : b.toNat = c.toNat := by
    unfold Uri.utf8Bytes at hnat
    split at hnat
    · exact List.mem_singleton.mp hnat
    · split at hnat
      · simp only [List.mem_cons, List.not_mem_nil, or_false] at hnat
        omega
      · split at hnat
        · simp only [List.mem_cons, List.not_mem_nil, or_false] at hnat
          omega
        · simp only [List.mem_cons, List.not_mem_nil, or_false] at hnat
          omega
  rw [hsame, Char.ofNat_toNat]
  exact hc

theorem byte_lt_of_isUtf8 {bytes : List UInt8} (h : IsUtf8 bytes) {b : UInt8} (hb : b ∈ bytes) :
    b.toNat < 0xF8 := by
  obtain ⟨text, rfl⟩ := h
  obtain ⟨c, -, hmem⟩ := List.mem_flatMap.mp hb
  have hnat := List.mem_map_of_mem (f := UInt8.toNat) hmem
  rw [toNat_encodeChar] at hnat
  exact utf8Bytes_lt hnat

end Utf8

/-! ### Other encodings -/

namespace Utf16

/-- Two bytes to a unit; a byte that is left over makes `none`. -/
def units (big : Bool) : List UInt8 → List (Option Nat)
  | a :: b :: rest =>
      some (if big then a.toNat * 0x100 + b.toNat else b.toNat * 0x100 + a.toNat) :: units big rest
  | [_] => [none]
  | [] => []

/-- A surrogate without its other half is replaced. -/
def ofUnits : List (Option Nat) → List Char
  | some high :: some low :: rest =>
      if 0xD800 ≤ high ∧ high < 0xDC00 ∧ 0xDC00 ≤ low ∧ low < 0xE000 then
        Char.ofNat (0x10000 + (high - 0xD800) * 0x400 + (low - 0xDC00)) :: ofUnits rest
      else (if 0xD800 ≤ high ∧ high < 0xE000 then Utf8.replacement else Char.ofNat high) ::
        ofUnits (some low :: rest)
  | some unit :: rest =>
      (if 0xD800 ≤ unit ∧ unit < 0xE000 then Utf8.replacement else Char.ofNat unit) :: ofUnits rest
  | none :: rest => Utf8.replacement :: ofUnits rest
  | [] => []

def decode (big : Bool) (bytes : List UInt8) : List Char := ofUnits (units big bytes)

/-- The bytes of a unit, the low one first. -/
def unitBytes (unit : Nat) : List UInt8 := [UInt8.ofNat (unit % 0x100), UInt8.ofNat (unit / 0x100)]

def encodeChar (c : Char) : List UInt8 :=
  if c.toNat < 0x10000 then unitBytes c.toNat
  else
    unitBytes (0xD800 + (c.toNat - 0x10000) / 0x400) ++ unitBytes (0xDC00 + (c.toNat - 0x10000) % 0x400)

/-- The low byte of each unit comes first. -/
def encode (text : List Char) : List UInt8 := text.flatMap encodeChar

theorem units_unitBytes {unit : Nat} (h : unit < 0x10000) (bytes : List UInt8) :
    units false (unitBytes unit ++ bytes) = some unit :: units false bytes := by
  have hvalue : (UInt8.ofNat (unit / 0x100)).toNat * 0x100 + (UInt8.ofNat (unit % 0x100)).toNat = unit := by
    rw [UInt8.toNat_ofNat', UInt8.toNat_ofNat']
    omega
  show some (if false = true then _ else _) :: units false bytes = _
  rw [if_neg Bool.false_ne_true, hvalue]

theorem ofUnits_char {unit : Nat} (h : unit < 0xD800 ∨ 0xDFFF < unit) (rest : List (Option Nat)) :
    ofUnits (some unit :: rest) = Char.ofNat unit :: ofUnits rest := by
  have hno : ¬(0xD800 ≤ unit ∧ unit < 0xE000) := by omega
  have hpair : ∀ low, ¬(0xD800 ≤ unit ∧ unit < 0xDC00 ∧ 0xDC00 ≤ low ∧ low < 0xE000) := by
    intro low
    omega
  match rest with
  | some low :: rest => rw [ofUnits, if_neg (hpair low), if_neg hno]
  | none :: rest => rw [ofUnits, if_neg hno]; nofun
  | [] => rw [ofUnits, if_neg hno]; nofun

theorem decode_encodeChar_append (c : Char) (bytes : List UInt8) :
    decode false (encodeChar c ++ bytes) = c :: decode false bytes := by
  obtain ⟨hmax, hscalar⟩ := Utf8.toNat_scalar c
  unfold decode encodeChar
  split
  · rename_i hlow
    rw [units_unitBytes hlow, ofUnits_char hscalar, Char.ofNat_toNat]
  · rename_i hhigh
    rw [List.append_assoc, units_unitBytes (by omega), units_unitBytes (by omega), ofUnits,
      if_pos (by omega)]
    have hsum : 0x10000 + (0xD800 + (c.toNat - 0x10000) / 0x400 - 0xD800) * 0x400 +
        (0xDC00 + (c.toNat - 0x10000) % 0x400 - 0xDC00) = c.toNat := by omega
    rw [hsum, Char.ofNat_toNat]

theorem decode_encode (text : List Char) : decode false (encode text) = text := by
  induction text with
  | nil => rfl
  | cons c rest ih =>
      rw [encode, List.flatMap_cons, decode_encodeChar_append]
      exact congrArg (c :: ·) ih

theorem length_encodeChar_le (c : Char) : (encodeChar c).length ≤ 4 := by
  unfold encodeChar
  split
  · exact Nat.le_of_ble_eq_true rfl
  · exact Nat.le_refl _

theorem length_encodeChar_of_lt {c : Char} (h : c.toNat < 0x10000) : (encodeChar c).length = 2 := by
  rw [encodeChar, if_pos h]
  rfl

theorem length_encodeChar_ofNat {unit : Nat} (h : unit < 0x10000) :
    (encodeChar (Char.ofNat unit)).length = 2 := by
  apply length_encodeChar_of_lt
  by_cases hvalid : unit.isValidChar
  · have hchar : Char.ofNat unit = Char.ofNatAux unit hvalid := dif_pos hvalid
    rw [hchar]
    exact h
  · have hchar : Char.ofNat unit = ⟨0, .inl (by decide)⟩ := dif_neg hvalid
    rw [hchar]
    decide

theorem length_units_le (bytes : List UInt8) :
    2 * (units false bytes).length ≤ bytes.length + 1 ∧
      ∀ unit, some unit ∈ units false bytes → unit < 0x10000 := by
  fun_induction units false bytes with
  | case1 a b rest ih =>
      refine ⟨by simp only [List.length_cons]; omega, ?_⟩
      intro unit hunit
      obtain heq | hmem := List.mem_cons.mp hunit
      · have ha := UInt8.toNat_lt a
        have hb := UInt8.toNat_lt b
        simp only [Bool.false_eq_true, if_false, Option.some.injEq] at heq
        omega
      · exact ih.2 unit hmem
  | case2 a => exact ⟨by simp, by simp⟩
  | case3 => exact ⟨by simp, by simp⟩

/-- A unit makes two bytes, and a pair of them four. -/
theorem length_encode_ofUnits_le {units : List (Option Nat)}
    (h : ∀ unit, some unit ∈ units → unit < 0x10000) :
    (encode (ofUnits units)).length ≤ 2 * units.length := by
  have hreplacement : (encodeChar Utf8.replacement).length = 2 := rfl
  fun_induction ofUnits units with
  | case1 high low rest hpair ih =>
      have hrest := ih fun unit hunit => h unit (by simp [hunit])
      have hfirst := length_encodeChar_le (Char.ofNat (0x10000 + (high - 0xD800) * 0x400 + (low - 0xDC00)))
      rw [encode, List.flatMap_cons, List.length_append, ← encode]
      simp only [List.length_cons]
      omega
  | case2 high low rest hpair ih =>
      have hrest := ih fun unit hunit => h unit (by simp [hunit])
      have hhigh := length_encodeChar_ofNat (h high List.mem_cons_self)
      rw [encode, List.flatMap_cons, List.length_append, ← encode]
      simp only [List.length_cons] at hrest ⊢
      split
      · omega
      · omega
  | case3 unit rest _ ih =>
      have hrest := ih fun unit hunit => h unit (by simp [hunit])
      have hunit := length_encodeChar_ofNat (h unit List.mem_cons_self)
      rw [encode, List.flatMap_cons, List.length_append, ← encode]
      simp only [List.length_cons]
      split
      · omega
      · omega
  | case4 rest ih =>
      have hrest := ih fun unit hunit => h unit (by simp [hunit])
      rw [encode, List.flatMap_cons, List.length_append, ← encode, hreplacement]
      simp only [List.length_cons]
      omega
  | case5 => exact Nat.le_refl _

/-- What is read and written again is longer by half a unit at most. -/
theorem length_encode_decode_le (bytes : List UInt8) :
    (encode (decode false bytes)).length ≤ bytes.length + 1 := by
  obtain ⟨hlength, hlt⟩ := length_units_le bytes
  exact Nat.le_trans (length_encode_ofUnits_le hlt) hlength

end Utf16

namespace Utf32

def decode (big : Bool) : List UInt8 → List Char
  | a :: b :: c :: d :: rest =>
      let bytes := if big then [a, b, c, d] else [d, c, b, a]
      let value := bytes.foldl (fun value byte => value * 0x100 + byte.toNat) 0
      (if value.isValidChar then Char.ofNat value else Utf8.replacement) :: decode big rest
  | [] => []
  | _ => [Utf8.replacement]

end Utf32

/-! ### Marks -/

/-- A byte-order mark, with the reader of what follows it. -/
structure ByteOrderMark where
  bytes : List UInt8
  decode : List UInt8 → List Char

namespace ByteOrderMark

def utf8 : ByteOrderMark := ⟨[0xEF, 0xBB, 0xBF], Utf8.decode⟩

def utf16Be : ByteOrderMark := ⟨[0xFE, 0xFF], Utf16.decode true⟩

def utf16Le : ByteOrderMark := ⟨[0xFF, 0xFE], Utf16.decode false⟩

def utf32Be : ByteOrderMark := ⟨[0x00, 0x00, 0xFE, 0xFF], Utf32.decode true⟩

def utf32Le : ByteOrderMark := ⟨[0xFF, 0xFE, 0x00, 0x00], Utf32.decode false⟩

/-- Read a text with the first of the marks that it begins with, and as UTF-8 without one. -/
def read (marks : List ByteOrderMark) (bytes : List UInt8) : List Char :=
  match marks.find? fun mark => mark.bytes.isPrefixOf bytes with
  | some mark => mark.decode (bytes.drop mark.bytes.length)
  | none => Utf8.decode bytes

/-- The mark of UTF-8, or one that no UTF-8 begins with. -/
def Known (mark : ByteOrderMark) : Prop := mark = utf8 ∨ ∃ b ∈ mark.bytes, 0xF8 ≤ b.toNat

/-- UTF-8 without a mark: what is written again as it was. -/
def Unmarked (bytes : List UInt8) : Prop := Utf8.IsUtf8 bytes ∧ ¬ utf8.bytes <+: bytes

instance (bytes : List UInt8) : Decidable (Unmarked bytes) :=
  inferInstanceAs (Decidable (_ ∧ _))

theorem utf8_bytes_eq : utf8.bytes = Utf8.encode [Char.ofNat 0xFEFF] := by decide

/-- A mark of UTF-8 is not read, so it is not written again. -/
theorem encode_decode_ne (rest : List UInt8) : Utf8.encode (Utf8.decode rest) ≠ utf8.bytes ++ rest := by
  intro h
  have hutf8 : Utf8.IsUtf8 (utf8.bytes ++ rest) := ⟨_, h⟩
  rw [utf8_bytes_eq, Utf8.isUtf8_append_iff] at hutf8
  rw [Utf8.encode_decode_iff.mpr hutf8] at h
  have hlength := congrArg List.length h
  rw [List.length_append] at hlength
  have hthree : utf8.bytes.length = 3 := rfl
  omega

/-- A reader of marks loses nothing exactly on UTF-8 without a mark. -/
theorem encode_read_iff {marks : List ByteOrderMark} (hknown : ∀ mark ∈ marks, Known mark)
    (hutf8 : utf8 ∈ marks) {bytes : List UInt8} :
    Utf8.encode (read marks bytes) = bytes ↔ Unmarked bytes := by
  unfold read
  cases hfind : marks.find? fun mark => mark.bytes.isPrefixOf bytes with
  | none =>
      have hnot : ¬ utf8.bytes <+: bytes := by
        intro hstart
        exact List.find?_eq_none.mp hfind utf8 hutf8 (List.isPrefixOf_iff_prefix.mpr hstart)
      rw [Unmarked, and_iff_left hnot]
      exact Utf8.encode_decode_iff
  | some mark =>
      obtain ⟨rest, rfl⟩ : mark.bytes <+: bytes := by
        have hstart := List.find?_some hfind
        exact List.isPrefixOf_iff_prefix.mp hstart
      dsimp only
      rw [List.drop_left]
      obtain rfl | ⟨b, hb, hhigh⟩ := hknown mark (List.mem_of_find?_eq_some hfind)
      · refine iff_of_false (encode_decode_ne rest) ?_
        intro hunmarked
        exact hunmarked.2 (List.prefix_append _ _)
      · have hinvalid : ¬ Utf8.IsUtf8 (mark.bytes ++ rest) := by
          intro hvalid
          have hlow := Utf8.byte_lt_of_isUtf8 hvalid (List.mem_append_left rest hb)
          omega
        refine iff_of_false ?_ fun hunmarked => hinvalid hunmarked.1
        intro h
        exact hinvalid ⟨_, h⟩

end ByteOrderMark

end BookHub
