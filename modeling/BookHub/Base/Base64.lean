import BookHub.Base.Utf8
import Mathlib.Data.Nat.Digits.Defs

/-!
# Base64 texts and numbers in bytes

Bytes as base64url text without padding, and the reader that goes through a text of either alphabet
character by character, skips what is in neither, and stops where the padding is complete. Numbers are in
bytes with the most significant one first.
-/

namespace BookHub.Base64

/-! ### Writing -/

def alphabet : List Char := "ABCDEFGHIJKLMNOPQRSTUVWXYZabcdefghijklmnopqrstuvwxyz0123456789+/".toList

/-- The two characters that have a meaning in a URL are exchanged for others. -/
def urlSafe (c : Char) : Char := if c = '+' then '-' else if c = '/' then '_' else c

def digit (n : Nat) : Char := urlSafe (alphabet.getD n '=')

/-- Four characters for three bytes, and fewer for what is left at the end. -/
def encodeUrl : List Nat → List Char
  | [] => []
  | [a] => [digit (a / 4), digit (a % 4 * 16)]
  | [a, b] => [digit (a / 4), digit (a % 4 * 16 + b / 16), digit (b % 16 * 4)]
  | a :: b :: c :: rest => digit (a / 4) :: digit (a % 4 * 16 + b / 16) :: digit (b % 16 * 4 + c / 64) ::
      digit (c % 64) :: encodeUrl rest

/-! ### Reading -/

inductive Error where
  | length
  | padding
  deriving DecidableEq, Repr

def standard (c : Char) : Char := if c = '-' then '+' else if c = '_' then '/' else c

def value? (c : Char) : Option Nat := alphabet.idxOf? (standard c)

/-- What one character adds: the byte that it completes, and what is left of it. -/
def feed (place left value : Nat) : List Nat × Nat × Nat :=
  match place with
  | 0 => ([], 1, value)
  | 1 => ([left * 4 + value / 16], 2, value % 16)
  | 2 => ([left * 16 + value / 4], 3, value % 4)
  | _ => ([left * 64 + value], 0, 0)

/-- From a place among four characters, with what is left of the last one and the pads behind it. -/
def readFrom : (place left pads : Nat) → List Char → Except Error (List Nat)
  | place, _, _, [] => if place = 0 then .ok [] else .error (if place = 1 then .length else .padding)
  | place, left, pads, c :: rest =>
      if c = '=' then
        if place < 2 then readFrom place left pads rest
        else if 4 ≤ place + (pads + 1) then .ok []
        else readFrom place left (pads + 1) rest
      else match value? c with
        | none => readFrom place left pads rest
        | some value =>
            let (bytes, place, left) := feed place left value
            (readFrom place left 0 rest).map fun more => bytes ++ more

/-- Padded to a multiple of four. -/
def pad (text : List Char) : List Char :=
  if text.length % 4 = 0 then text else text ++ List.replicate (4 - text.length % 4) '='

def decodeUrl (text : List Char) : Except Error (List Nat) := readFrom 0 0 0 (pad text)

/-! ### What is written is read -/

theorem value?_digit {n : Nat} (h : n < 64) : value? (digit n) = some n ∧ digit n ≠ '=' := by
  have hall : ∀ n < 64, value? (digit n) = some n ∧ digit n ≠ '=' := by decide +kernel
  exact hall n h

theorem readFrom_digit {n : Nat} (h : n < 64) (place left pads : Nat) (rest : List Char) :
    readFrom place left pads (digit n :: rest) =
      (readFrom (feed place left n).2.1 (feed place left n).2.2 0 rest).map fun more =>
        (feed place left n).1 ++ more := by
  obtain ⟨hvalue, hpad⟩ := value?_digit h
  rw [readFrom, if_neg hpad, hvalue]

theorem pad_group (a b c d : Char) (rest : List Char) :
    pad (a :: b :: c :: d :: rest) = a :: b :: c :: d :: pad rest := by
  have hlength : (a :: b :: c :: d :: rest).length % 4 = rest.length % 4 := by
    simp only [List.length_cons]
    omega
  unfold pad
  rw [hlength]
  split <;> rfl

theorem decodeUrl_encodeUrl (bytes : List Nat) (h : ∀ byte ∈ bytes, byte < 256) :
    decodeUrl (encodeUrl bytes) = .ok bytes := by
  unfold decodeUrl
  fun_induction encodeUrl bytes with
  | case1 => rfl
  | case2 a =>
      have ha := h a List.mem_cons_self
      have hsum : a / 4 * 4 + a % 4 * 16 / 16 = a := by omega
      show readFrom 0 0 0 (digit (a / 4) :: digit (a % 4 * 16) :: ['=', '=']) = _
      rw [readFrom_digit (by omega), readFrom_digit (by omega)]
      simp only [feed, hsum]
      rfl
  | case3 a b =>
      have ha := h a List.mem_cons_self
      have hb := h b (List.mem_cons_of_mem _ List.mem_cons_self)
      have hfirst : a / 4 * 4 + (a % 4 * 16 + b / 16) / 16 = a := by omega
      have hsecond : (a % 4 * 16 + b / 16) % 16 * 16 + b % 16 * 4 / 4 = b := by omega
      show readFrom 0 0 0 (digit (a / 4) :: digit (a % 4 * 16 + b / 16) :: digit (b % 16 * 4) ::
        ['=']) = _
      rw [readFrom_digit (by omega), readFrom_digit (by omega), readFrom_digit (by omega)]
      simp only [feed, hfirst, hsecond]
      rfl
  | case4 a b c rest ih =>
      have ha := h a List.mem_cons_self
      have hb := h b (List.mem_cons_of_mem _ List.mem_cons_self)
      have hc := h c (List.mem_cons_of_mem _ (List.mem_cons_of_mem _ List.mem_cons_self))
      have hrest := ih fun byte hbyte => h byte (List.mem_cons_of_mem _ (List.mem_cons_of_mem _
        (List.mem_cons_of_mem _ hbyte)))
      have hfirst : a / 4 * 4 + (a % 4 * 16 + b / 16) / 16 = a := by omega
      have hsecond : (a % 4 * 16 + b / 16) % 16 * 16 + (b % 16 * 4 + c / 64) / 4 = b := by omega
      have hthird : (b % 16 * 4 + c / 64) % 4 * 64 + c % 64 = c := by omega
      rw [pad_group, readFrom_digit (by omega), readFrom_digit (by omega), readFrom_digit (by omega),
        readFrom_digit (by omega)]
      simp only [feed, hfirst, hsecond, hthird, hrest]
      rfl

/-! ### Numbers -/

/-- `int.from_bytes(.., 'big')`. -/
def fromBytes (bytes : List Nat) : Nat := bytes.foldl (fun number byte => number * 256 + byte) 0

/-- The bytes of a number, without zeros in front. -/
def toBytes (number : Nat) : List Nat := (Nat.digits 256 number).reverse

theorem fromBytes_toBytes (number : Nat) : fromBytes (toBytes number) = number := by
  have hsame : (fun (byte number : Nat) => number * 256 + byte) = fun byte number => byte + 256 * number := by
    funext byte number
    omega
  rw [fromBytes, toBytes, List.foldl_reverse, hsame]
  have hvalue := Nat.ofDigits_digits 256 number
  rw [Nat.ofDigits_eq_foldr] at hvalue
  exact hvalue

theorem lt_of_mem_toBytes {number byte : Nat} (h : byte ∈ toBytes number) : byte < 256 :=
  Nat.digits_lt_base (by decide) (List.mem_reverse.mp h)

/-! ### Texts in bytes -/

/-- The bytes as characters. -/
def latin1 (bytes : List UInt8) : List Char := bytes.map fun byte => Char.ofNat byte.toNat

theorem latin1_encode {text : List Char} (h : ∀ c ∈ text, c.toNat < 0x80) :
    latin1 (Utf8.encode text) = text := by
  induction text with
  | nil => rfl
  | cons c rest ih =>
      have hc := h c List.mem_cons_self
      have hbytes : Utf8.encodeChar c = [UInt8.ofNat c.toNat] := by
        rw [Utf8.encodeChar, Uri.utf8Bytes, if_pos hc, List.map_singleton]
      have hbyte : (UInt8.ofNat c.toNat).toNat = c.toNat := UInt8.toNat_ofNat_of_lt' (Nat.lt_trans hc (by decide))
      have hrest := ih fun c' hc' => h c' (List.mem_cons_of_mem c hc')
      rw [latin1] at hrest ⊢
      rw [Utf8.encode, List.flatMap_cons, hbytes, List.singleton_append, List.map_cons, hbyte,
        Char.ofNat_toNat]
      exact congrArg (c :: ·) hrest

theorem digit_ascii (n : Nat) : (digit n).toNat < 0x80 := by
  by_cases h : n < 64
  · have hall : ∀ n < 64, (digit n).toNat < 0x80 := by decide +kernel
    exact hall n h
  · have hpad : alphabet.getD n '=' = '=' := by
      rw [List.getD_eq_getElem?_getD, List.getElem?_eq_none (Nat.le_of_not_lt h)]
      rfl
    rw [digit, hpad]
    decide

theorem encodeUrl_ascii (bytes : List Nat) : ∀ c ∈ encodeUrl bytes, c.toNat < 0x80 := by
  fun_induction encodeUrl bytes with
  | case1 => simp
  | case2 a => simp [digit_ascii]
  | case3 a b => simp [digit_ascii]
  | case4 a b c rest ih => simpa [digit_ascii] using ih

end BookHub.Base64
