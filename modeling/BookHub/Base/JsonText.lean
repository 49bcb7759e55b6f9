import Mathlib.Data.List.TakeWhile
import BookHub.Base.Json

/-!
# JSON texts

The grammar of JSON, and encoders that write values in it. Encoders differ in the characters that they
escape, in the letters of their hexadecimal digits and in the blanks behind commas and colons. What any
of them writes is read as the value that was written.
-/

namespace BookHub.Json

/-! ### The characters of a string -/

def hexValue? (c : Char) : Option Nat :=
  if c.isDigit then some (c.toNat - 48)
  else if 97 ≤ c.toNat ∧ c.toNat ≤ 102 then some (c.toNat - 87)
  else if 65 ≤ c.toNat ∧ c.toNat ≤ 70 then some (c.toNat - 55)
  else none

/-- A code unit of four hexadecimal digits. -/
def readUnit : List Char → Option (Nat × List Char)
  | a :: b :: c :: d :: rest =>
      (hexValue? a).bind fun a => (hexValue? b).bind fun b => (hexValue? c).bind fun c =>
        (hexValue? d).map fun d => (a * 4096 + b * 256 + c * 16 + d, rest)
  | _ => none

/-- The letter of a short escape, for what it stands for. -/
def shortEscapes : List (Char × Char) :=
  [('"', '"'), ('\\', '\\'), ('/', '/'), ('b', '\x08'), ('f', '\x0c'), ('n', '\n'), ('r', '\r'),
    ('t', '\t')]

/-- What follows `\u`; a unit of a pair alone is refused. -/
def readUnicode (text : List Char) : Option (Char × List Char) :=
  (readUnit text).bind fun unit =>
    if unit.1 < 0xD800 ∨ 0xE000 ≤ unit.1 then some (Char.ofNat unit.1, unit.2)
    else if 0xDC00 ≤ unit.1 ∨ unit.2.take 2 ≠ ['\\', 'u'] then none
    else (readUnit (unit.2.drop 2)).bind fun low =>
      if low.1 < 0xDC00 ∨ 0xE000 ≤ low.1 then none
      else some (Char.ofNat (0x10000 + (unit.1 - 0xD800) * 1024 + (low.1 - 0xDC00)), low.2)

/-- What follows a backslash. -/
def readEscape : List Char → Option (Char × List Char)
  | [] => none
  | c :: rest => if c = 'u' then readUnicode rest else (shortEscapes.lookup c).map fun d => (d, rest)

def readChar : List Char → Option (Char × List Char)
  | [] => none
  | c :: rest =>
      if c = '\\' then readEscape rest else if c = '"' ∨ c.toNat < 0x20 then none else some (c, rest)

/-- What follows the opening quote. -/
def readString : Nat → List Char → Option (List Char × List Char)
  | 0, _ => none
  | fuel + 1, text =>
      if text.head? = some '"' then some ([], text.tail)
      else (readChar text).bind fun next =>
        (readString fuel next.2).map fun string => (next.1 :: string.1, string.2)

/-! ### Numbers -/

def isNumberChar (c : Char) : Bool := c.isDigit || "+-.eE".toList.contains c

/-- Digits without a zero in front of others. -/
def natural? (digits : List Char) : Option Nat :=
  if digits.isEmpty || (digits.head? == some '0' && digits.length != 1) then none
  else some (Nat.ofDigitChars 10 digits 0)

def isExponent (text : List Char) : Bool :=
  let digits := if text.tail.head? = some '+' ∨ text.tail.head? = some '-' then text.tail.tail else text.tail
  (text.head? = some 'e' ∨ text.head? = some 'E') && !digits.isEmpty && digits.all Char.isDigit

/-- What follows the digits before the point. -/
def isFraction (text : List Char) : Bool :=
  if text.head? = some '.' then
    !(text.tail.takeWhile Char.isDigit).isEmpty &&
      ((text.tail.dropWhile Char.isDigit).isEmpty || isExponent (text.tail.dropWhile Char.isDigit))
  else isExponent text

def number? (literal : List Char) : Option Json :=
  let negative := literal.head? = some '-'
  let digits := if negative then literal.tail else literal
  (natural? (digits.takeWhile Char.isDigit)).bind fun n =>
    if (digits.dropWhile Char.isDigit).isEmpty then some (.int (if negative then -n else n))
    else if isFraction (digits.dropWhile Char.isDigit) then some (.frac (String.ofList literal))
    else none

def readNumber (text : List Char) : Option (Json × List Char) :=
  (number? (text.takeWhile isNumberChar)).map fun value => (value, text.dropWhile isNumberChar)

/-! ### Values -/

def isSpace (c : Char) : Bool := " \t\n\r".toList.contains c

def skip (text : List Char) : List Char := text.dropWhile isSpace

/-- The character comes next, behind blanks. -/
def expect (c : Char) (text : List Char) : Option (List Char) :=
  if (skip text).head? = some c then some (skip text).tail else none

/-- A comma comes next, which is `true`, or the end. -/
def separator (close : Char) (text : List Char) : Option (Bool × List Char) :=
  if (skip text).head? = some ',' then some (true, (skip text).tail)
  else (expect close text).map fun rest => (false, rest)

def keyword (word : List Char) (value : Json) (text : List Char) : Option (Json × List Char) :=
  if word.isPrefixOf text then some (value, text.drop word.length) else none

mutual

def readValue : Nat → List Char → Option (Json × List Char)
  | 0, _ => none
  | fuel + 1, text =>
      let start := (skip text).head?
      let rest := (skip text).tail
      if start = some '"' then
        (readString fuel rest).map fun string => (.str (String.ofList string.1), string.2)
      else if start = some '[' then
        if (skip rest).head? = some ']' then some (.arr [], (skip rest).tail)
        else (readItems fuel rest).map fun items => (.arr items.1, items.2)
      else if start = some '\x7b' then
        if (skip rest).head? = some '\x7d' then some (.obj [], (skip rest).tail)
        else (readFields fuel rest).map fun fields => (.obj fields.1, fields.2)
      else if start = some 'n' then keyword "null".toList .null (skip text)
      else if start = some 't' then keyword "true".toList (.bool true) (skip text)
      else if start = some 'f' then keyword "false".toList (.bool false) (skip text)
      else readNumber (skip text)

def readItems : Nat → List Char → Option (List Json × List Char)
  | 0, _ => none
  | fuel + 1, text =>
      (readValue fuel text).bind fun item => (separator ']' item.2).bind fun next =>
        if next.1 then (readItems fuel next.2).map fun items => (item.1 :: items.1, items.2)
        else some ([item.1], next.2)

def readFields : Nat → List Char → Option (List (String × Json) × List Char)
  | 0, _ => none
  | fuel + 1, text =>
      (expect '"' text).bind fun rest => (readString fuel rest).bind fun key =>
        (expect ':' key.2).bind fun rest => (readValue fuel rest).bind fun value =>
          (separator '\x7d' value.2).bind fun next =>
            if next.1 then
              (readFields fuel next.2).map fun fields =>
                ((String.ofList key.1, value.1) :: fields.1, fields.2)
            else some ([(String.ofList key.1, value.1)], next.2)

end

/-- The value of a text; every value is read with so much fuel. -/
def read (text : List Char) : Option Json :=
  (readValue (2 * text.length) text).bind fun value =>
    if (skip value.2).isEmpty then some value.1 else none

/-! ### Encoders -/

def hexLower (n : Nat) : Char := Char.ofNat (if n < 10 then 48 + n else 87 + n)

def hexUpper (n : Nat) : Char := Char.ofNat (if n < 10 then 48 + n else 55 + n)

def unit (digit : Nat → Char) (n : Nat) : List Char :=
  ['\\', 'u', digit (n / 4096), digit (n / 256 % 16), digit (n / 16 % 16), digit (n % 16)]

/-- One unit, or a pair of two. -/
def escapeUnicode (digit : Nat → Char) (c : Char) : List Char :=
  if c.toNat < 0x10000 then unit digit c.toNat
  else unit digit (0xD800 + (c.toNat - 0x10000) / 1024) ++ unit digit (0xDC00 + (c.toNat - 0x10000) % 1024)

/-- An encoder: how it writes a character in a string, and its blanks. -/
structure Encoder where
  escape : Char → List Char
  blank : List Char
  readChar_escape : ∀ c rest, readChar (escape c ++ rest) = some (c, rest)
  head_escape : ∀ c, ∃ d ∈ (escape c).head?, d ≠ '"'
  isSpace_blank : blank.all isSpace = true

def intText : Int → List Char
  | .ofNat n => Nat.toDigits 10 n
  | .negSucc n => '-' :: Nat.toDigits 10 (n + 1)

namespace Encoder

variable (encoder : Encoder)

def string (text : List Char) : List Char := '"' :: (text.flatMap encoder.escape ++ ['"'])

def separated (more : List Char) : List Char :=
  if more.isEmpty then [] else ',' :: (encoder.blank ++ more)

mutual

def write : Json → List Char
  | .null => "null".toList
  | .bool value => if value then "true".toList else "false".toList
  | .int value => intText value
  | .frac literal => literal.toList
  | .str value => encoder.string value.toList
  | .arr items => '[' :: (writeItems items ++ [']'])
  | .obj fields => '\x7b' :: (writeFields fields ++ ['\x7d'])

def writeItems : List Json → List Char
  | [] => []
  | item :: items => write item ++ encoder.separated (writeItems items)

def writeFields : List (String × Json) → List Char
  | [] => []
  | (key, value) :: fields =>
      encoder.string key.toList ++ ':' :: (encoder.blank ++ write value) ++
        encoder.separated (writeFields fields)

end

end Encoder

/-! ### A character is read back -/

/-- The digits of an encoder. -/
def ReadsDigits (digit : Nat → Char) : Prop := ∀ n < 16, hexValue? (digit n) = some n

theorem readsDigits_hexLower : ReadsDigits hexLower := by
  unfold ReadsDigits
  decide

theorem readsDigits_hexUpper : ReadsDigits hexUpper := by
  unfold ReadsDigits
  decide

theorem readUnit_digits {digit : Nat → Char} (hdigit : ReadsDigits digit) {n : Nat} (hn : n < 0x10000)
    (rest : List Char) :
    readUnit (digit (n / 4096) :: digit (n / 256 % 16) :: digit (n / 16 % 16) :: digit (n % 16) :: rest) =
      some (n, rest) := by
  have hsum : n / 4096 * 4096 + n / 256 % 16 * 256 + n / 16 % 16 * 16 + n % 16 = n := by omega
  simp only [readUnit, hdigit (n / 4096) (by omega), hdigit (n / 256 % 16) (by omega),
    hdigit (n / 16 % 16) (by omega), hdigit (n % 16) (by omega), Option.bind_some, Option.map_some, hsum]

theorem readChar_unit {digit : Nat → Char} (hdigit : ReadsDigits digit) {n : Nat} (hn : n < 0x10000)
    (hplain : n < 0xD800 ∨ 0xE000 ≤ n) (rest : List Char) :
    readChar (unit digit n ++ rest) = some (Char.ofNat n, rest) := by
  show readUnicode _ = _
  rw [readUnicode]
  show (readUnit (_ :: _ :: _ :: _ :: rest)).bind _ = _
  rw [readUnit_digits hdigit hn, Option.bind_some, if_pos hplain]

/-- A pair of units. -/
theorem readChar_pair {digit : Nat → Char} (hdigit : ReadsDigits digit) {high low : Nat}
    (hhigh : 0xD800 ≤ high ∧ high < 0xDC00) (hlow : 0xDC00 ≤ low ∧ low < 0xE000) (rest : List Char) :
    readChar (unit digit high ++ (unit digit low ++ rest)) =
      some (Char.ofNat (0x10000 + (high - 0xD800) * 1024 + (low - 0xDC00)), rest) := by
  show readUnicode _ = _
  rw [readUnicode]
  show (readUnit (_ :: _ :: _ :: _ :: (unit digit low ++ rest))).bind _ = _
  rw [readUnit_digits hdigit (by omega), Option.bind_some, if_neg (by omega), if_neg]
  · show (readUnit (_ :: _ :: _ :: _ :: rest)).bind _ = _
    rw [readUnit_digits hdigit (by omega), Option.bind_some, if_neg (by omega)]
  · rw [not_or]
    exact ⟨by omega, fun h => h rfl⟩

theorem readChar_escapeUnicode {digit : Nat → Char} (hdigit : ReadsDigits digit) (c : Char)
    (rest : List Char) :
    readChar (escapeUnicode digit c ++ rest) = some (c, rest) := by
  have hvalid : c.toNat < 0xD800 ∨ (0xDFFF < c.toNat ∧ c.toNat < 0x110000) := c.valid
  unfold escapeUnicode
  split
  · rename_i hsmall
    rw [readChar_unit hdigit hsmall (by omega), Char.ofNat_toNat]
  · rename_i hlarge
    have hsum : 0x10000 + (0xD800 + (c.toNat - 0x10000) / 1024 - 0xD800) * 1024 +
        (0xDC00 + (c.toNat - 0x10000) % 1024 - 0xDC00) = c.toNat := by omega
    rw [List.append_assoc, readChar_pair hdigit (by omega) (by omega), hsum, Char.ofNat_toNat]

theorem readChar_shortEscape {c letter : Char} (h : (letter, c) ∈ shortEscapes) (rest : List Char) :
    readChar ('\\' :: letter :: rest) = some (c, rest) := by
  have hall : ∀ escape ∈ shortEscapes, escape.1 ≠ 'u' ∧ shortEscapes.lookup escape.1 = some escape.2 := by
    decide
  obtain ⟨hne, hlookup⟩ := hall _ h
  rw [readChar, if_pos rfl, readEscape, if_neg hne, hlookup]
  rfl

theorem readChar_raw {c : Char} (hescape : c ≠ '\\') (hquote : c ≠ '"') (hcontrol : 0x20 ≤ c.toNat)
    (rest : List Char) : readChar (c :: rest) = some (c, rest) := by
  rw [readChar, if_neg hescape, if_neg]
  rw [not_or, Nat.not_lt]
  exact ⟨hquote, hcontrol⟩

/-! ### Encoders by what they escape -/

/-- Short escapes where there is one and it is used, the characters that stand for themselves, and
units for the others. -/
def escapeWith (digit : Nat → Char) (short raw : Char → Bool) (c : Char) : List Char :=
  match shortEscapes.find? fun escape => escape.2 == c && short c with
  | some escape => ['\\', escape.1]
  | none => if raw c then [c] else escapeUnicode digit c

/-- An encoder without blanks, or with one behind each comma and colon. -/
def Encoder.ofSets (digit : Nat → Char) (hdigit : ReadsDigits digit) (short raw : Char → Bool)
    (hraw : ∀ c, raw c = true → c ≠ '\\' ∧ c ≠ '"' ∧ 0x20 ≤ c.toNat) (spaced : Bool) : Encoder where
  escape := escapeWith digit short raw
  blank := if spaced then [' '] else []
  readChar_escape := by
    intro c rest
    unfold escapeWith
    split
    · rename_i escape hfind
      have hmatch := List.find?_some hfind
      have hmem := List.mem_of_find?_eq_some hfind
      rw [Bool.and_eq_true, beq_iff_eq] at hmatch
      obtain ⟨letter, d⟩ := escape
      obtain rfl : d = c := hmatch.1
      exact readChar_shortEscape hmem rest
    · split
      · rename_i hc
        obtain ⟨hescape, hquote, hcontrol⟩ := hraw c hc
        exact readChar_raw hescape hquote hcontrol rest
      · exact readChar_escapeUnicode hdigit c rest
  head_escape := by
    intro c
    unfold escapeWith
    split
    · exact ⟨'\\', rfl, by decide⟩
    · split
      · rename_i hc
        exact ⟨c, rfl, (hraw c hc).2.1⟩
      · unfold escapeUnicode
        split
        · exact ⟨'\\', rfl, by decide⟩
        · exact ⟨'\\', rfl, by decide⟩
  isSpace_blank := by
    cases spaced with
    | false => rfl
    | true => rfl

/-! ### Strings and numbers are read back -/

theorem readString_escaped (encoder : Encoder) {text : List Char} {fuel : Nat} (hfuel : text.length < fuel)
    (rest : List Char) :
    readString fuel (text.flatMap encoder.escape ++ '"' :: rest) = some (text, rest) := by
  induction text generalizing fuel with
  | nil =>
      obtain ⟨fuel, rfl⟩ := Nat.exists_eq_add_one.mpr hfuel
      rfl
  | cons c text ih =>
      obtain ⟨fuel, rfl⟩ := Nat.exists_eq_add_one.mpr (Nat.zero_lt_of_lt hfuel)
      obtain ⟨d, hd, hquote⟩ := encoder.head_escape c
      rw [List.flatMap_cons, List.append_assoc, readString, if_neg, encoder.readChar_escape,
        Option.bind_some, ih (Nat.lt_of_succ_lt_succ hfuel), Option.map_some]
      rw [List.head?_append, hd, Option.some_or]
      intro h
      exact hquote (Option.some.inj h)

/-- No digit, and no other character of a number, follows. -/
def Ends (rest : List Char) : Prop := ∀ c ∈ rest.head?, isNumberChar c = false

theorem takeWhile_number {literal rest : List Char} (hliteral : literal.all isNumberChar = true)
    (hrest : Ends rest) :
    (literal ++ rest).takeWhile isNumberChar = literal ∧ (literal ++ rest).dropWhile isNumberChar = rest := by
  have hnone : rest.takeWhile isNumberChar = [] ∧ rest.dropWhile isNumberChar = rest := by
    cases rest with
    | nil => exact ⟨rfl, rfl⟩
    | cons c rest =>
        have hc := hrest c rfl
        simp [hc]
  rw [List.all_eq_true] at hliteral
  rw [List.takeWhile_append_of_pos hliteral, List.dropWhile_append_of_pos hliteral, hnone.1, hnone.2,
    List.append_nil]
  exact ⟨rfl, rfl⟩

theorem isNumberChar_of_isDigit {c : Char} (h : c.isDigit = true) : isNumberChar c = true := by
  rw [isNumberChar, h, Bool.true_or]

theorem toDigits_isDigit {n : Nat} : (Nat.toDigits 10 n).all Char.isDigit = true := by
  rw [List.all_eq_true]
  intro c hc
  exact Nat.isDigit_of_mem_toDigits (by decide) (by decide) hc

/-- A zero comes first in the digits of zero alone. -/
theorem head?_toDigits {n : Nat} (h : (Nat.toDigits 10 n).head? = some '0') : n = 0 := by
  induction n using Nat.strongRecOn with
  | _ n ih =>
      by_cases hsmall : n < 10
      · rw [Nat.toDigits_of_lt_base hsmall] at h
        have hall : ∀ n < 10, n.digitChar = '0' → n = 0 := by decide
        exact hall n hsmall (Option.some.inj h)
      · have hle : 10 ≤ n := Nat.le_of_not_lt hsmall
        rw [Nat.toDigits_of_base_le (by decide) hle, List.head?_append,
          List.head?_eq_some_head Nat.toDigits_ne_nil, Option.some_or,
          ← List.head?_eq_some_head Nat.toDigits_ne_nil] at h
        have hzero := ih (n / 10) (by omega) h
        omega

theorem natural?_toDigits (n : Nat) : natural? (Nat.toDigits 10 n) = some n := by
  have hvalue : Nat.ofDigitChars 10 (Nat.toDigits 10 n) 0 = n := Nat.ofDigitChars_ten_toDigits
  have hempty : (Nat.toDigits 10 n).isEmpty = false := by
    rw [List.isEmpty_eq_false_iff]
    exact Nat.toDigits_ne_nil
  unfold natural?
  rw [hvalue, hempty, Bool.false_or, if_neg]
  rw [Bool.and_eq_true, beq_iff_eq, bne_iff_ne]
  intro ⟨hzero, hlength⟩
  obtain rfl := head?_toDigits hzero
  exact hlength rfl

theorem takeWhile_toDigits (n : Nat) :
    (Nat.toDigits 10 n).takeWhile Char.isDigit = Nat.toDigits 10 n ∧
      (Nat.toDigits 10 n).dropWhile Char.isDigit = [] := by
  have hall := List.all_eq_true.mp (@toDigits_isDigit n)
  exact ⟨List.takeWhile_eq_self_iff.mpr hall, List.dropWhile_eq_nil_iff.mpr hall⟩

theorem head?_toDigits_ne_minus (n : Nat) : (Nat.toDigits 10 n).head? ≠ some '-' := by
  intro h
  have hmem := List.mem_of_mem_head? h
  exact absurd (List.all_eq_true.mp toDigits_isDigit _ hmem) (by decide)

theorem number?_intText (value : Int) : number? (intText value) = some (.int value) := by
  cases value with
  | ofNat n =>
      unfold number? intText
      simp only [head?_toDigits_ne_minus, if_false, takeWhile_toDigits, natural?_toDigits, Option.bind_some,
        List.isEmpty_nil, if_true]
      rfl
  | negSucc n =>
      unfold number? intText
      simp only [List.head?_cons, List.tail_cons, if_true, takeWhile_toDigits, natural?_toDigits,
        Option.bind_some, List.isEmpty_nil]
      rfl

theorem intText_isNumberChar (value : Int) : (intText value).all isNumberChar = true := by
  have hdigits : ∀ n, (Nat.toDigits 10 n).all isNumberChar = true := by
    intro n
    rw [List.all_eq_true]
    intro c hc
    exact isNumberChar_of_isDigit (List.all_eq_true.mp toDigits_isDigit c hc)
  cases value with
  | ofNat n => exact hdigits n
  | negSucc n => exact hdigits (n + 1)

/-! ### Values are read back -/

/-- The text of a number with a fraction or an exponent. -/
def IsLiteral (literal : String) : Prop :=
  number? literal.toList = some (.frac literal) ∧ literal.toList.all isNumberChar = true

mutual

/-- The numbers that are kept as written are numbers. -/
def WellFormed : Json → Prop
  | .null => True
  | .bool _ => True
  | .int _ => True
  | .frac literal => IsLiteral literal
  | .str _ => True
  | .arr items => WellFormedItems items
  | .obj fields => WellFormedFields fields

def WellFormedItems : List Json → Prop
  | [] => True
  | item :: items => WellFormed item ∧ WellFormedItems items

def WellFormedFields : List (String × Json) → Prop
  | [] => True
  | (_, value) :: fields => WellFormed value ∧ WellFormedFields fields

end

mutual

/-- The fuel that reading takes. -/
def cost : Json → Nat
  | .null => 1
  | .bool _ => 1
  | .int _ => 1
  | .frac _ => 1
  | .str value => value.toList.length + 2
  | .arr items => costItems items + 1
  | .obj fields => costFields fields + 1

def costItems : List Json → Nat
  | [] => 0
  | item :: items => cost item + costItems items + 1

def costFields : List (String × Json) → Nat
  | [] => 0
  | (key, value) :: fields => key.toList.length + 1 + cost value + costFields fields + 1

end

theorem ne_of_isNumberChar {c : Char} (h : isNumberChar c = true) :
    isSpace c = false ∧ ∀ d ∈ ['"', '[', ']', '\x7b', '\x7d', 'n', 't', 'f'], c ≠ d := by
  have hspace : " \t\n\r".toList.all (fun c => !isNumberChar c) = true := by decide
  have hother : ['"', '[', ']', '\x7b', '\x7d', 'n', 't', 'f'].all (fun c => !isNumberChar c) = true := by
    decide
  constructor
  · rw [Bool.eq_false_iff]
    intro hc
    have hno := List.all_eq_true.mp hspace c (List.contains_iff_mem.mp hc)
    rw [h] at hno
    cases hno
  · rintro d hd rfl
    have hno := List.all_eq_true.mp hother c hd
    rw [h] at hno
    cases hno

theorem skip_of_head {text : List Char} {c : Char} (hhead : text.head? = some c) (hc : isSpace c = false)
    (rest : List Char) : skip (text ++ rest) = text ++ rest := by
  obtain ⟨more, rfl⟩ := List.head?_eq_some_iff.mp hhead
  exact List.dropWhile_cons_of_neg (by simp [hc])

theorem skip_blank {blank : List Char} (h : blank.all isSpace = true) (text : List Char) :
    skip (blank ++ text) = skip text :=
  List.dropWhile_append_of_pos (List.all_eq_true.mp h)

theorem readValue_blank {blank : List Char} (h : blank.all isSpace = true) (fuel : Nat) (text : List Char) :
    readValue fuel (blank ++ text) = readValue fuel text := by
  cases fuel with
  | zero => rw [readValue, readValue]
  | succ fuel => rw [readValue, readValue, skip_blank h]

theorem skip_cons {c : Char} (hc : isSpace c = false) (rest : List Char) :
    skip (c :: rest) = c :: rest :=
  List.dropWhile_cons_of_neg (by simp [hc])

theorem number?_ne_nil {literal : List Char} {value : Json} (h : number? literal = some value) :
    literal ≠ [] := by
  rintro rfl
  cases h

theorem readValue_number {literal rest : List Char} {value : Json} (hnumber : number? literal = some value)
    (hliteral : literal.all isNumberChar = true) (hrest : Ends rest) (fuel : Nat) :
    readValue (fuel + 1) (literal ++ rest) = some (value, rest) := by
  obtain ⟨c, more, rfl⟩ := List.exists_cons_of_ne_nil (number?_ne_nil hnumber)
  have hc : isNumberChar c = true := List.all_eq_true.mp hliteral c List.mem_cons_self
  obtain ⟨hspace, hne⟩ := ne_of_isNumberChar hc
  have hstart : ∀ d ∈ ['"', '[', ']', '\x7b', '\x7d', 'n', 't', 'f'], (some c = some d) = False := by
    intro d hd
    rw [Option.some_inj, eq_iff_iff, iff_false]
    exact hne d hd
  obtain ⟨htake, hdrop⟩ := takeWhile_number hliteral hrest
  rw [readValue, skip_of_head rfl hspace]
  simp only [List.cons_append, List.head?_cons, hstart _ (show '"' ∈ _ by decide),
    hstart _ (show '[' ∈ _ by decide), hstart _ (show '\x7b' ∈ _ by decide),
    hstart _ (show 'n' ∈ _ by decide), hstart _ (show 't' ∈ _ by decide),
    hstart _ (show 'f' ∈ _ by decide), if_false]
  rw [readNumber, ← List.cons_append, htake, hdrop, hnumber]
  rfl

section Values

variable (encoder : Encoder)

theorem head?_write {value : Json} (h : WellFormed value) :
    ∃ c, (encoder.write value).head? = some c ∧ isSpace c = false ∧ c ≠ ']' ∧ c ≠ '\x7d' := by
  have hnumber : ∀ {literal : List Char} {number : Json}, number? literal = some number →
      literal.all isNumberChar = true →
      ∃ c, literal.head? = some c ∧ isSpace c = false ∧ c ≠ ']' ∧ c ≠ '\x7d' := by
    intro literal number hliteral hall
    obtain ⟨c, more, rfl⟩ := List.exists_cons_of_ne_nil (number?_ne_nil hliteral)
    obtain ⟨hspace, hne⟩ := ne_of_isNumberChar (List.all_eq_true.mp hall c List.mem_cons_self)
    exact ⟨c, rfl, hspace, hne _ (by decide), hne _ (by decide)⟩
  cases value with
  | null => exact ⟨'n', rfl, by decide⟩
  | bool value =>
      cases value with
      | false => exact ⟨'f', rfl, by decide⟩
      | true => exact ⟨'t', rfl, by decide⟩
  | int value => exact hnumber (number?_intText value) (intText_isNumberChar value)
  | frac literal => exact hnumber h.1 h.2
  | str value => exact ⟨'"', rfl, by decide⟩
  | arr items => exact ⟨'[', rfl, by decide⟩
  | obj fields => exact ⟨'\x7b', rfl, by decide⟩

theorem ends_cons {c : Char} (h : isNumberChar c = false) (rest : List Char) : Ends (c :: rest) := by
  intro d hd
  cases hd
  exact h

theorem expect_cons {c : Char} (h : isSpace c = false) (rest : List Char) :
    expect c (c :: rest) = some rest := by
  rw [expect, skip_cons h, List.head?_cons, if_pos rfl, List.tail_cons]

theorem ends_separated (more : List Char) {close : Char} (h : isNumberChar close = false)
    (rest : List Char) : Ends (encoder.separated more ++ close :: rest) := by
  unfold Encoder.separated
  split
  · exact ends_cons h rest
  · exact ends_cons (by decide) _

theorem separator_separated {more : List Char} {close : Char} (hspace : isSpace close = false)
    (hcomma : close ≠ ',') (rest : List Char) :
    separator close (encoder.separated more ++ close :: rest) =
      some (if more.isEmpty then (false, rest) else (true, encoder.blank ++ (more ++ close :: rest))) := by
  unfold separator Encoder.separated
  cases hmore : more.isEmpty with
  | true =>
      rw [if_pos rfl, if_pos rfl, List.nil_append, expect_cons hspace, skip_cons hspace, List.head?_cons,
        if_neg]
      · rfl
      · intro h
        exact hcomma (Option.some.inj h)
  | false =>
      rw [if_neg Bool.false_ne_true, if_neg Bool.false_ne_true, List.cons_append,
        skip_cons (by decide), List.head?_cons, if_pos rfl, List.append_assoc]
      rfl

theorem readItems_blank (fuel : Nat) (text : List Char) :
    readItems fuel (encoder.blank ++ text) = readItems fuel text := by
  cases fuel with
  | zero => rw [readItems, readItems]
  | succ fuel => rw [readItems, readItems, readValue_blank encoder.isSpace_blank]

theorem readFields_blank (fuel : Nat) (text : List Char) :
    readFields fuel (encoder.blank ++ text) = readFields fuel text := by
  cases fuel with
  | zero => rw [readFields, readFields]
  | succ fuel => rw [readFields, readFields, expect, expect, skip_blank encoder.isSpace_blank]

theorem writeItems_ne_nil {items : List Json} (h : WellFormedItems items) (hne : items ≠ []) :
    (encoder.writeItems items).isEmpty = false := by
  cases items with
  | nil => exact absurd rfl hne
  | cons item items =>
      obtain ⟨c, hhead, -⟩ := head?_write encoder h.1
      obtain ⟨more, hmore⟩ := List.head?_eq_some_iff.mp hhead
      rw [Encoder.writeItems, hmore]
      rfl

theorem writeFields_ne_nil {fields : List (String × Json)} (hne : fields ≠ []) :
    (encoder.writeFields fields).isEmpty = false := by
  cases fields with
  | nil => exact absurd rfl hne
  | cons field fields => rfl

mutual

theorem readValue_write : (value : Json) → WellFormed value → (fuel : Nat) → cost value ≤ fuel →
    (rest : List Char) → Ends rest → readValue fuel (encoder.write value ++ rest) = some (value, rest)
  | .null, _, _, hfuel, rest, _ => by
      obtain ⟨fuel, rfl⟩ := Nat.exists_eq_add_one.mpr hfuel
      rw [readValue, skip_of_head rfl (by decide)]
      rfl
  | .bool value, _, _, hfuel, rest, _ => by
      obtain ⟨fuel, rfl⟩ := Nat.exists_eq_add_one.mpr hfuel
      cases value with
      | false =>
          rw [readValue, skip_of_head rfl (by decide)]
          rfl
      | true =>
          rw [readValue, skip_of_head rfl (by decide)]
          rfl
  | .int value, _, _, hfuel, rest, hrest => by
      obtain ⟨fuel, rfl⟩ := Nat.exists_eq_add_one.mpr hfuel
      exact readValue_number (number?_intText value) (intText_isNumberChar value) hrest fuel
  | .frac literal, h, _, hfuel, rest, hrest => by
      obtain ⟨fuel, rfl⟩ := Nat.exists_eq_add_one.mpr hfuel
      exact readValue_number h.1 h.2 hrest fuel
  | .str value, _, _, hfuel, rest, _ => by
      obtain ⟨fuel, rfl⟩ := Nat.exists_eq_add_one.mpr (Nat.zero_lt_of_lt hfuel)
      have hstring := readString_escaped encoder (Nat.lt_of_succ_le (Nat.le_of_succ_le_succ hfuel)) rest
      rw [readValue, skip_of_head rfl (by decide)]
      show (readString fuel (value.toList.flatMap encoder.escape ++ ['"'] ++ rest)).map _ = _
      rw [List.append_assoc, List.singleton_append, hstring, Option.map_some, String.ofList_toList]
  | .arr [], _, _, hfuel, rest, _ => by
      obtain ⟨fuel, rfl⟩ := Nat.exists_eq_add_one.mpr (Nat.zero_lt_of_lt hfuel)
      rw [readValue, skip_of_head rfl (by decide)]
      rfl
  | .arr (item :: items), h, _, hfuel, rest, _ => by
      obtain ⟨fuel, rfl⟩ := Nat.exists_eq_add_one.mpr (Nat.zero_lt_of_lt hfuel)
      have hitems := readItems_write (item :: items) h (List.cons_ne_nil _ _) fuel
        (Nat.le_of_succ_le_succ hfuel) rest
      obtain ⟨c, hhead, hspace, hclose, -⟩ := head?_write encoder h.1
      rw [readValue, skip_of_head rfl (by decide)]
      show (if (skip (encoder.writeItems (item :: items) ++ [']'] ++ rest)).head? = some ']' then _
        else _) = _
      rw [List.append_assoc, List.singleton_append, if_neg]
      · show (readItems fuel (encoder.writeItems (item :: items) ++ [']'] ++ rest)).map _ = _
        rw [List.append_assoc, List.singleton_append, hitems, Option.map_some]
      · rw [Encoder.writeItems, List.append_assoc, skip_of_head hhead hspace, List.head?_append, hhead,
          Option.some_or]
        exact fun heq => hclose (Option.some.inj heq)
  | .obj [], _, _, hfuel, rest, _ => by
      obtain ⟨fuel, rfl⟩ := Nat.exists_eq_add_one.mpr (Nat.zero_lt_of_lt hfuel)
      rw [readValue, skip_of_head rfl (by decide)]
      rfl
  | .obj (field :: fields), h, _, hfuel, rest, _ => by
      obtain ⟨fuel, rfl⟩ := Nat.exists_eq_add_one.mpr (Nat.zero_lt_of_lt hfuel)
      have hfields := readFields_write (field :: fields) h (List.cons_ne_nil _ _) fuel
        (Nat.le_of_succ_le_succ hfuel) rest
      rw [readValue, skip_of_head rfl (by decide)]
      show (readFields fuel (encoder.writeFields (field :: fields) ++ ['\x7d'] ++ rest)).map _ = _
      rw [List.append_assoc, List.singleton_append, hfields, Option.map_some]

theorem readItems_write : (items : List Json) → WellFormedItems items → items ≠ [] → (fuel : Nat) →
    costItems items ≤ fuel → (rest : List Char) →
    readItems fuel (encoder.writeItems items ++ ']' :: rest) = some (items, rest)
  | [], _, hne, _, _, _ => absurd rfl hne
  | item :: items, h, _, _, hfuel, rest => by
      obtain ⟨fuel, rfl⟩ := Nat.exists_eq_add_one.mpr (Nat.zero_lt_of_lt hfuel)
      have hle : cost item + costItems items ≤ fuel := Nat.le_of_succ_le_succ hfuel
      have hitem := readValue_write item h.1 fuel (by omega) _
        (@ends_separated encoder (encoder.writeItems items) ']' (by decide) rest)
      rw [readItems, Encoder.writeItems, List.append_assoc, hitem, Option.bind_some,
        separator_separated encoder (by decide) (by decide), Option.bind_some]
      cases hitems : items with
      | nil => rfl
      | cons next more =>
          have hne : items ≠ [] := hitems ▸ List.cons_ne_nil _ _
          have hrest := readItems_write items h.2 hne fuel (by omega) rest
          rw [← hitems, writeItems_ne_nil encoder h.2 hne, if_neg Bool.false_ne_true, if_pos rfl,
            readItems_blank, hrest, Option.map_some]

theorem readFields_write : (fields : List (String × Json)) → WellFormedFields fields → fields ≠ [] →
    (fuel : Nat) → costFields fields ≤ fuel → (rest : List Char) →
    readFields fuel (encoder.writeFields fields ++ '\x7d' :: rest) = some (fields, rest)
  | [], _, hne, _, _, _ => absurd rfl hne
  | (key, value) :: fields, h, _, _, hfuel, rest => by
      obtain ⟨fuel, rfl⟩ := Nat.exists_eq_add_one.mpr (Nat.zero_lt_of_lt hfuel)
      have hle : key.toList.length + 1 + cost value + costFields fields ≤ fuel :=
        Nat.le_of_succ_le_succ hfuel
      have hvalue := readValue_write value h.1 fuel (by omega) _
        (@ends_separated encoder (encoder.writeFields fields) '\x7d' (by decide) rest)
      have htext : encoder.writeFields ((key, value) :: fields) ++ '\x7d' :: rest =
          '"' :: (key.toList.flatMap encoder.escape ++ '"' :: (':' :: (encoder.blank ++
            (encoder.write value ++ (encoder.separated (encoder.writeFields fields) ++ '\x7d' :: rest))))) := by
        rw [Encoder.writeFields, Encoder.string]
        simp only [List.append_assoc, List.cons_append, List.nil_append]
      have hkey := @readString_escaped encoder key.toList fuel (by omega)
      rw [readFields, htext, expect_cons (by decide), Option.bind_some, hkey, Option.bind_some,
        expect_cons (by decide), Option.bind_some, readValue_blank encoder.isSpace_blank, hvalue, Option.bind_some,
        separator_separated encoder (by decide) (by decide), Option.bind_some, String.ofList_toList]
      cases hfields : fields with
      | nil => rfl
      | cons next more =>
          have hne : fields ≠ [] := hfields ▸ List.cons_ne_nil _ _
          have hrest := readFields_write fields h.2 hne fuel (by omega) rest
          rw [← hfields, writeFields_ne_nil encoder hne, if_neg Bool.false_ne_true, if_pos rfl,
            readFields_blank, hrest, Option.map_some]

end

/-! ### The fuel is enough -/

theorem length_escaped (text : List Char) : text.length ≤ (text.flatMap encoder.escape).length := by
  induction text with
  | nil => exact Nat.le_refl 0
  | cons c text ih =>
      obtain ⟨d, hd, -⟩ := encoder.head_escape c
      obtain ⟨more, hmore⟩ := List.head?_eq_some_iff.mp hd
      rw [List.flatMap_cons, hmore, List.length_append, List.length_cons, List.length_cons]
      omega

theorem length_separated (more : List Char) : more.length ≤ (encoder.separated more).length ∧
    (more ≠ [] → more.length < (encoder.separated more).length) := by
  unfold Encoder.separated
  split
  · rename_i hempty
    rw [List.isEmpty_iff.mp hempty]
    exact ⟨Nat.le_refl 0, fun h => absurd rfl h⟩
  · rw [List.length_cons, List.length_append]
    exact ⟨by omega, fun _ => by omega⟩

mutual

theorem cost_le : (value : Json) → WellFormed value → cost value ≤ 2 * (encoder.write value).length
  | .null, _ => by
      show 1 ≤ 2 * 4
      decide
  | .bool true, _ => by
      show 1 ≤ 2 * 4
      decide
  | .bool false, _ => by
      show 1 ≤ 2 * 5
      decide
  | .int value, _ => by
      have hpos := List.length_pos_iff.mpr (number?_ne_nil (number?_intText value))
      show 1 ≤ 2 * (intText value).length
      omega
  | .frac literal, h => by
      have hpos := List.length_pos_iff.mpr (number?_ne_nil h.1)
      show 1 ≤ 2 * literal.toList.length
      omega
  | .str value, _ => by
      have hescaped := length_escaped encoder value.toList
      rw [cost, Encoder.write, Encoder.string, List.length_cons, List.length_append, List.length_singleton]
      omega
  | .arr items, h => by
      have hitems := costItems_le items h
      rw [cost, Encoder.write, List.length_cons, List.length_append, List.length_singleton]
      omega
  | .obj fields, h => by
      have hfields := costFields_le fields h
      rw [cost, Encoder.write, List.length_cons, List.length_append, List.length_singleton]
      omega

theorem costItems_le : (items : List Json) → WellFormedItems items →
    costItems items ≤ 2 * (encoder.writeItems items).length + 1
  | [], _ => Nat.zero_le _
  | item :: items, h => by
      have hitem := cost_le item h.1
      have hitems := costItems_le items h.2
      obtain ⟨hle, hlt⟩ := length_separated encoder (encoder.writeItems items)
      rw [costItems, Encoder.writeItems, List.length_append]
      cases hempty : items with
      | nil =>
          rw [costItems]
          omega
      | cons next more =>
          have hne := writeItems_ne_nil encoder h.2 (hempty ▸ List.cons_ne_nil next more)
          have hlonger := hlt (List.isEmpty_eq_false_iff.mp hne)
          rw [← hempty]
          omega

theorem costFields_le : (fields : List (String × Json)) → WellFormedFields fields →
    costFields fields ≤ 2 * (encoder.writeFields fields).length
  | [], _ => Nat.zero_le _
  | (key, value) :: fields, h => by
      have hvalue := cost_le value h.1
      have hfields := costFields_le fields h.2
      have hkey := length_escaped encoder key.toList
      have hseparated := (length_separated encoder (encoder.writeFields fields)).1
      rw [costFields, Encoder.writeFields, Encoder.string]
      simp only [List.length_append, List.length_cons, List.length_nil]
      omega

end

/-- What an encoder writes is read as the value that was written, also with blanks behind it. -/
theorem read_write_append {value : Json} (h : WellFormed value) {blank : List Char}
    (hblank : blank.all isSpace = true) : read (encoder.write value ++ blank) = some value := by
  have hends : Ends blank := by
    intro c hc
    rw [Bool.eq_false_iff]
    intro hnumber
    have hspace := List.all_eq_true.mp hblank c (List.mem_of_mem_head? hc)
    rw [(ne_of_isNumberChar hnumber).1] at hspace
    cases hspace
  have hcost := cost_le encoder value h
  have hread := readValue_write encoder value h (2 * (encoder.write value ++ blank).length)
    (by rw [List.length_append]; omega) blank hends
  have hrest : skip blank = [] := List.dropWhile_eq_nil_iff.mpr (List.all_eq_true.mp hblank)
  rw [read, hread, Option.bind_some, hrest]
  rfl

theorem read_write {value : Json} (h : WellFormed value) : read (encoder.write value) = some value := by
  have hread := @read_write_append encoder value h [] rfl
  rwa [List.append_nil] at hread

end Values

/-! ### What is read can be written -/

theorem wellFormed_of_number? {literal : List Char} {value : Json} (h : number? literal = some value)
    (hchars : literal.all isNumberChar = true) : WellFormed value := by
  have hread := h
  unfold number? at hread
  simp only at hread
  generalize (if literal.head? = some '-' then literal.tail else literal) = digits at hread
  obtain ⟨n, -, hvalue⟩ := Option.bind_eq_some_iff.mp hread
  by_cases hend : (digits.dropWhile Char.isDigit).isEmpty = true
  · rw [if_pos hend] at hvalue
    cases hvalue
    trivial
  · rw [if_neg hend] at hvalue
    obtain ⟨-, hvalue⟩ := Option.ite_none_right_eq_some.mp hvalue
    cases hvalue
    rw [WellFormed, IsLiteral, String.toList_ofList]
    exact ⟨h, hchars⟩

theorem wellFormed_of_readNumber {text rest : List Char} {value : Json}
    (h : readNumber text = some (value, rest)) : WellFormed value := by
  obtain ⟨number, hnumber, heq⟩ := Option.map_eq_some_iff.mp h
  cases heq
  apply wellFormed_of_number? hnumber
  exact List.all_eq_true.mpr fun c hc => List.mem_takeWhile_imp hc

theorem eq_of_keyword {word text rest : List Char} {value value' : Json}
    (h : keyword word value text = some (value', rest)) : value' = value := by
  obtain ⟨-, h⟩ := Option.ite_none_right_eq_some.mp h
  cases h
  rfl

mutual

theorem wellFormed_of_readValue : (fuel : Nat) → {text rest : List Char} → {value : Json} →
    readValue fuel text = some (value, rest) → WellFormed value
  | 0, _, _, _, h => by cases h
  | fuel + 1, text, rest, value, h => by
      rw [readValue] at h
      split at h
      · obtain ⟨string, -, heq⟩ := Option.map_eq_some_iff.mp h
        cases heq
        trivial
      split at h
      · split at h
        · cases h
          trivial
        · obtain ⟨items, hitems, heq⟩ := Option.map_eq_some_iff.mp h
          cases heq
          exact wellFormed_of_readItems fuel hitems
      split at h
      · split at h
        · cases h
          trivial
        · obtain ⟨fields, hfields, heq⟩ := Option.map_eq_some_iff.mp h
          cases heq
          exact wellFormed_of_readFields fuel hfields
      split at h
      · rw [eq_of_keyword h]
        trivial
      split at h
      · rw [eq_of_keyword h]
        trivial
      split at h
      · rw [eq_of_keyword h]
        trivial
      · exact wellFormed_of_readNumber h

theorem wellFormed_of_readItems : (fuel : Nat) → {text rest : List Char} → {items : List Json} →
    readItems fuel text = some (items, rest) → WellFormedItems items
  | 0, _, _, _, h => by cases h
  | fuel + 1, text, rest, items, h => by
      rw [readItems] at h
      obtain ⟨⟨item, more⟩, hitem, h⟩ := Option.bind_eq_some_iff.mp h
      obtain ⟨next, -, h⟩ := Option.bind_eq_some_iff.mp h
      have hfirst := wellFormed_of_readValue fuel hitem
      split at h
      · obtain ⟨others, hothers, heq⟩ := Option.map_eq_some_iff.mp h
        cases heq
        exact ⟨hfirst, wellFormed_of_readItems fuel hothers⟩
      · cases h
        exact ⟨hfirst, trivial⟩

theorem wellFormed_of_readFields : (fuel : Nat) → {text rest : List Char} →
    {fields : List (String × Json)} → readFields fuel text = some (fields, rest) → WellFormedFields fields
  | 0, _, _, _, h => by cases h
  | fuel + 1, text, rest, fields, h => by
      rw [readFields] at h
      obtain ⟨start, -, h⟩ := Option.bind_eq_some_iff.mp h
      obtain ⟨key, -, h⟩ := Option.bind_eq_some_iff.mp h
      obtain ⟨behind, -, h⟩ := Option.bind_eq_some_iff.mp h
      obtain ⟨⟨value, more⟩, hvalue, h⟩ := Option.bind_eq_some_iff.mp h
      obtain ⟨next, -, h⟩ := Option.bind_eq_some_iff.mp h
      have hfirst := wellFormed_of_readValue fuel hvalue
      split at h
      · obtain ⟨others, hothers, heq⟩ := Option.map_eq_some_iff.mp h
        cases heq
        exact ⟨hfirst, wellFormed_of_readFields fuel hothers⟩
      · cases h
        exact ⟨hfirst, trivial⟩

end

/-- What is read has numbers as they can be written. -/
theorem wellFormed_of_read {text : List Char} {value : Json} (h : read text = some value) :
    WellFormed value := by
  obtain ⟨⟨value', rest⟩, hread, h⟩ := Option.bind_eq_some_iff.mp h
  obtain ⟨-, h⟩ := Option.ite_none_right_eq_some.mp h
  cases h
  exact wellFormed_of_readValue _ hread

/-! ### The encoders of the languages -/

/-- Whether a control character, a quote or a backslash stands in the text. -/
def isPlain (c : Char) : Bool := c != '\\' && c != '"' && 0x20 ≤ c.toNat

theorem of_isPlain {c : Char} {more : Bool} (h : (isPlain c && more) = true) :
    c ≠ '\\' ∧ c ≠ '"' ∧ 0x20 ≤ c.toNat := by
  rw [isPlain, Bool.and_eq_true, Bool.and_eq_true, Bool.and_eq_true, bne_iff_ne, bne_iff_ne,
    decide_eq_true_eq] at h
  exact ⟨h.1.1.1, h.1.1.2, h.1.2⟩

/-- `json.dumps` of Python: everything but ASCII is escaped. -/
def dumps : Encoder :=
  .ofSets hexLower readsDigits_hexLower (· != '/') (fun c => isPlain c && c.toNat < 0x7F)
    (fun _ h => of_isPlain h) true

/-- `JSON.stringify` of JavaScript. -/
def stringify : Encoder :=
  .ofSets hexLower readsDigits_hexLower (· != '/') (fun c => isPlain c && true) (fun _ h => of_isPlain h) false

/-- `json.Marshal` of Go: what HTML gives a meaning is escaped, and two line separators. -/
def marshal : Encoder :=
  .ofSets hexLower readsDigits_hexLower (· != '/')
    (fun c => isPlain c && !("<>&".toList.contains c || c.toNat == 0x2028 || c.toNat == 0x2029))
    (fun _ h => of_isPlain h) false

/-- `JsonSerializer.Serialize` of .NET: everything but ASCII is escaped, with capital digits, and so are
quotes and what HTML gives a meaning. -/
def serialize : Encoder :=
  .ofSets hexUpper readsDigits_hexUpper (fun c => c != '/' && c != '"')
    (fun c => isPlain c && (c.toNat < 0x7F && !("&'+<>".toList.contains c || c.toNat == 0x60)))
    (fun _ h => of_isPlain h) false

example : dumps.write (.obj [("title", .str "\"Ümit\" & \n😀"), ("id", .int (-7)), ("tags", .arr [])]) =
    "\x7b\"title\": \"\\\"\\u00dcmit\\\" & \\n\\ud83d\\ude00\", \"id\": -7, \"tags\": []\x7d".toList := by
  decide

end BookHub.Json
