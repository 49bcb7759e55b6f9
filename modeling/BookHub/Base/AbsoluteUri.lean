import BookHub.Base.Segments

/-!
# Parsing a URI

An absolute `http` URI as the platform's parser reads it: the authority goes up to the first slash,
question mark or hash, and the path and the query are made canonical. In a query an escape of an
unreserved character is decoded and what may not stand there is escaped. A text with such an escape, or
with anything beyond ASCII, is written anew, and the escapes of characters come out with capital digits
then, but for those of reserved and control characters.
-/

namespace BookHub

namespace Uri

/-! ### Queries -/

/-- What stands in a query as it is. -/
def standsInQuery (c : Char) : Bool := isPathChar c || c == '/' || c == '?'

/-- The text holds a character beyond ASCII, an escape of one or of an unreserved character, or a
percent sign that begins no escape. -/
def isWrittenAnew : List Char → Bool
  | '%' :: a :: b :: rest =>
      match escapedByte? a b with
      | some byte =>
          0x80 ≤ byte.toNat || isUnreserved (Char.ofNat byte.toNat) || isWrittenAnew rest
      | none => true
  | c :: rest => 0x80 ≤ c.toNat || isWrittenAnew rest
  | [] => false

/-- A character beyond ASCII that is decoded; the other ones are not for exchange. -/
def isIriChar (n : Nat) : Bool :=
  if n < 0x10000 then 0xA0 ≤ n && n < 0xFFF0 && !(0xFDD0 ≤ n && n < 0xFDF0)
  else n % 0x10000 < 0xFFFE && n / 0x1000 != 0xE0

/-- The number of escapes, where the text begins, that are decoded and escaped again. -/
def escapedAgain (text : List Char) : Nat :=
  match escapedChar? text with
  | some c =>
      if isIriChar c.toNat || " \"<>^`\x7b|\x7d".toList.contains c then (Utf8.encodeChar c).length else 0
  | none => 0

/-- The number of escapes that come out with capital digits, where the first `capitals` do anyway. -/
def capitalsAt (anew : Bool) (capitals : Nat) (text : List Char) : Nat :=
  if anew && capitals == 0 then escapedAgain text else capitals

/-- A query, or what is left of it where the next `capitals` escapes come out with capital digits. -/
def canonicalQuery (anew : Bool) : Nat → List Char → List Char
  | capitals, '%' :: a :: b :: rest =>
      match escapedByte? a b with
      | some byte =>
          let capitals := capitalsAt anew capitals ('%' :: a :: b :: rest)
          if isUnreserved (Char.ofNat byte.toNat) then
            Char.ofNat byte.toNat :: canonicalQuery anew (capitals - 1) rest
          else if capitals = 0 then '%' :: a :: b :: canonicalQuery anew 0 rest
          else '%' :: a.toUpper :: b.toUpper :: canonicalQuery anew (capitals - 1) rest
      | none => escape '%' ++ canonicalQuery anew 0 (a :: b :: rest)
  | _, c :: rest => (if standsInQuery c then [c] else escape c) ++ canonicalQuery anew 0 rest
  | _, [] => []

/-- Nothing that may not stand there, no escape of an unreserved character, and capital digits where
they come out so. -/
def isCanonicalQuery (anew : Bool) : Nat → List Char → Bool
  | capitals, '%' :: a :: b :: rest =>
      match escapedByte? a b with
      | some byte =>
          let capitals := capitalsAt anew capitals ('%' :: a :: b :: rest)
          !isUnreserved (Char.ofNat byte.toNat) &&
            (capitals == 0 || (a.toUpper == a && b.toUpper == b)) && isCanonicalQuery anew (capitals - 1) rest
      | none => false
  | _, c :: rest => standsInQuery c && isCanonicalQuery anew 0 rest
  | _, [] => true

theorem escape_percent : escape '%' = ['%', '2', '5'] := by decide

theorem head_escape (c : Char) : ∃ tail, escape c = '%' :: tail := by
  obtain ⟨byte, bytes, hbytes⟩ : ∃ byte bytes, utf8Bytes c.toNat = byte :: bytes := by
    rw [← List.ne_nil_iff_exists_cons, ← List.length_pos_iff]
    have hpos := length_encodeChar_pos c
    rwa [Utf8.encodeChar, List.length_map] at hpos
  exact ⟨_, by rw [escape, hbytes]; rfl⟩

/-- A query stays as it is exactly where it is canonical: the first change shows at once. -/
theorem canonicalQuery_eq_iff (anew : Bool) (capitals : Nat) (query : List Char) :
    canonicalQuery anew capitals query = query ↔ isCanonicalQuery anew capitals query = true := by
  induction query using isWrittenAnew.induct generalizing capitals with
  | case1 a b rest byte hbyte ih =>
      rw [canonicalQuery, isCanonicalQuery, hbyte]
      dsimp only
      generalize capitalsAt anew capitals ('%' :: a :: b :: rest) = next
      cases hunreserved : isUnreserved (Char.ofNat byte.toNat) with
      | true =>
          refine iff_of_false ?_ (by simp)
          intro heq
          rw [if_pos rfl] at heq
          rw [(List.cons.inj heq).1] at hunreserved
          exact absurd hunreserved (by decide)
      | false =>
          cases next with
          | zero => simp [ih]
          | succ next => simp [ih, and_assoc]
  | case2 a b rest hnone =>
      rw [canonicalQuery, isCanonicalQuery, hnone]
      refine iff_of_false ?_ (by simp)
      intro heq
      rw [escape_percent] at heq
      obtain ⟨rfl, heq⟩ := List.cons.inj (List.cons.inj heq).2
      obtain ⟨rfl, -⟩ := List.cons.inj heq
      exact absurd hnone (by decide)
  | case3 c rest hnot ih =>
      rw [canonicalQuery, isCanonicalQuery]
      · cases hstands : standsInQuery c with
        | true => simp [ih]
        | false =>
            refine iff_of_false ?_ (by simp)
            intro heq
            rw [if_neg (by simp)] at heq
            obtain ⟨tail, htail⟩ := head_escape c
            rw [htail] at heq
            obtain rfl := (List.cons.inj heq).1
            rw [← htail, escape_percent] at heq
            -- what follows would be the digits of an escape
            exact hnot _ _ _ rfl (List.cons.inj heq).2.symm
      · exact hnot
      · exact hnot
  | case4 => exact iff_of_true rfl rfl

example : canonicalQuery true 0 "?title=%7eana+%c3%a9%3c%2f%5c%FF".toList =
    "?title=~ana+%C3%A9%3C%2f%5c%FF".toList := by decide

end Uri

/-- An absolute `http` URI, but for its fragment, which is never sent. -/
structure Uri where
  authority : List Char
  segments : List (List Char)
  /-- With its question mark. -/
  query : List Char

namespace Uri

/-- The path that is sent. -/
def path (uri : Uri) : List Char := '/' :: List.intercalate ['/'] uri.segments

/-- What follows the scheme. -/
def ofRest (rest : List Char) : Uri :=
  let target := rest.dropWhile fun c => !endsAuthority c
  let afterPath := target.dropWhile fun c => !endsPath c
  { authority := rest.takeWhile fun c => !endsAuthority c
    segments := pathSegments target
    query := canonicalQuery (isWrittenAnew rest) 0 (afterPath.takeWhile (· != '#')) }

/-- `new Uri(text)` for a text that begins with `http://`; longer texts than the limit are refused. -/
def parse? (text : List Char) : Option Uri :=
  let trimmed := trimEnd (text.dropWhile isBlank)
  if 65519 < text.length then none
  else ((trimmed.dropPrefix? "http://".toList).map ofRest).filter fun uri => !uri.authority.isEmpty

/-! ### A target behind an authority -/

/-- The authority ends where the path or the query begins. -/
theorem ofRest_append {authority target : List Char} (hplain : authority.all isAuthorityChar = true)
    (htarget : ∀ c ∈ target.head?, endsAuthority c = true) :
    (ofRest (authority ++ target)).authority = authority ∧
      (ofRest (authority ++ target)).segments = pathSegments target :=
  ⟨takeWhile_authority hplain htarget, congrArg pathSegments (dropWhile_authority hplain htarget)⟩

theorem ofRest_query {authority target : List Char} (hplain : authority.all isAuthorityChar = true)
    (htarget : ∀ c ∈ target.head?, endsAuthority c = true) :
    (ofRest (authority ++ target)).query = canonicalQuery (isWrittenAnew (authority ++ target)) 0
      ((target.dropWhile fun c => !endsPath c).takeWhile (· != '#')) := by
  have htail := dropWhile_authority hplain htarget
  exact congrArg (fun rest => canonicalQuery (isWrittenAnew (authority ++ target)) 0
    ((rest.dropWhile fun c => !endsPath c).takeWhile (· != '#'))) htail

/-- An authority and what follows it, a path or a query or nothing. -/
theorem parse?_http {authority target : List Char} (hne : authority ≠ [])
    (hplain : authority.all isAuthorityChar = true)
    (htarget : ∀ c ∈ target.head?, endsAuthority c = true) {uri : Uri} :
    parse? ("http://".toList ++ authority ++ target) = some uri ↔
      ("http://".toList ++ authority ++ target).length ≤ 65519 ∧
        ofRest (authority ++ trimEnd target) = uri := by
  have hauthority := (ofRest_append hplain (endsAuthority_trimEnd htarget)).1
  have htrim : trimEnd (("http://".toList ++ authority ++ target).dropWhile isBlank) =
      "http://".toList ++ (authority ++ trimEnd target) := by
    have hlast : ("http://".toList ++ authority).getLast? = some (authority.getLast hne) := by
      rw [List.getLast?_append, List.getLast?_eq_some_getLast hne]
      rfl
    show trimEnd ("http://".toList ++ authority ++ target) = _
    have hblank := (Bool.and_eq_true_iff.mp (List.all_eq_true.mp hplain _ (List.getLast_mem hne))).2
    rw [trimEnd_append hlast ((Bool.not_eq_true' _).mp hblank), List.append_assoc]
  have hrest : ("http://".toList ++ (authority ++ trimEnd target)).dropPrefix? "http://".toList =
      some (authority ++ trimEnd target) :=
    List.dropPrefix?_eq_some_iff.mpr ⟨"http://".toList, rfl, beq_self_eq_true _⟩
  unfold parse?
  rw [htrim]
  dsimp only
  rw [hrest]
  split
  · rename_i hlong
    exact ⟨fun h => (Option.some_ne_none _ h.symm).elim, fun h => absurd h.1 (Nat.not_le.mpr hlong)⟩
  · rename_i hshort
    rw [Option.filter_eq_some_iff, Option.map_some, Option.some_inj]
    constructor
    · intro h
      exact ⟨Nat.not_lt.mp hshort, h.1⟩
    · intro h
      refine ⟨h.2, ?_⟩
      rw [← h.2, hauthority, Bool.not_eq_true', List.isEmpty_eq_false_iff]
      exact hne

end Uri

end BookHub
