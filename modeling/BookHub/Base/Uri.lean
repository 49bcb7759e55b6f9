import BookHub.Base.Lists

/-!
# The path of a URI

What follows the authority of an `http` URI, as the platform's parser reads it: the path goes up to a
question mark or hash, and it is made canonical. A backslash counts as a slash, an escaped character
that needs no escape is decoded, what may not stand in a path is escaped, and the segments `.` and `..`
are resolved. Repeated slashes are kept: between them is an empty segment.
-/

namespace BookHub.Uri

/-! ### Characters -/

/-- Letters, digits and `-._~`; they never need an escape. -/
def isUnreserved (c : Char) : Bool :=
  c.isAlphanum || c == '-' || c == '.' || c == '_' || c == '~'

/-- What stands in a segment as it is. -/
def isPathChar (c : Char) : Bool := isUnreserved c || ";:@&=+$,[]!'()*".toList.contains c

def hexDigits : List Char := "0123456789ABCDEF".toList

def hexDigit (n : Nat) : Char := hexDigits.getD n '0'

def hexValue? (c : Char) : Option Nat :=
  let upper := c.toUpper
  if hexDigits.contains upper then some (hexDigits.idxOf upper) else none

/-- The UTF-8 bytes of a code point. -/
def utf8Bytes (n : Nat) : List Nat :=
  if n < 0x80 then [n]
  else if n < 0x800 then [0xC0 + n / 0x40, 0x80 + n % 0x40]
  else if n < 0x10000 then [0xE0 + n / 0x1000, 0x80 + n / 0x40 % 0x40, 0x80 + n % 0x40]
  else [0xF0 + n / 0x40000, 0x80 + n / 0x1000 % 0x40, 0x80 + n / 0x40 % 0x40, 0x80 + n % 0x40]

/-- `%XX` for each byte. -/
def escape (c : Char) : List Char :=
  (utf8Bytes c.toNat).flatMap fun byte => ['%', hexDigit (byte / 16), hexDigit (byte % 16)]

/-- The character that `%ab` escapes, if it needs no escape. -/
def unescaped? (a b : Char) : Option Char := do
  let high ← hexValue? a
  let low ← hexValue? b
  let c := Char.ofNat (16 * high + low)
  if isUnreserved c then some c else none

/-- A segment as it stands in a canonical path. -/
def canonicalSegment : List Char → List Char
  | '%' :: a :: b :: rest =>
      match unescaped? a b with
      | some c => c :: canonicalSegment rest
      | none =>
          if (hexValue? a).isSome && (hexValue? b).isSome then '%' :: a :: b :: canonicalSegment rest
          else escape '%' ++ canonicalSegment (a :: b :: rest)
  | c :: rest => (if isPathChar c then [c] else escape c) ++ canonicalSegment rest
  | [] => []

/-! ### Paths -/

/-- Resolve the segments `.` and `..`; `before` holds the segments so far, the last one first. One of
them at the end leaves an empty segment. -/
def resolve {α : Type} [DecidableEq α] (dot : α) : List (List α) → List (List α) → List (List α)
  | before, [] => before.reverse
  | before, segment :: rest =>
      if segment = [dot] then resolve dot (if rest.isEmpty then [] :: before else before) rest
      else if segment = [dot, dot] then
        resolve dot (if rest.isEmpty then [] :: before.tail else before.tail) rest
      else resolve dot (segment :: before) rest

/-- The end of a path. -/
def endsPath (c : Char) : Bool := c == '?' || c == '#'

def isSlash (c : Char) : Bool := c == '/' || c == '\\'

def endsAuthority (c : Char) : Bool := isSlash c || endsPath c

def isBlank (c : Char) : Bool := [' ', '\t', '\n', '\r'].contains c

/-- What an authority is written with. -/
def isAuthorityChar (c : Char) : Bool := !endsAuthority c && !isBlank c

/-- White space around a URI is ignored. -/
def trimEnd (text : List Char) : List Char := (text.reverse.dropWhile isBlank).reverse

/-- The segments of the canonical path, where `target` is what follows the authority. -/
def pathSegments (target : List Char) : List (List Char) :=
  let path := target.takeWhile fun c => !endsPath c
  resolve '.' [] (((path.drop 1).splitOnP isSlash).map canonicalSegment)

/-! ### Segments hold no slash -/

theorem slash_not_mem_escape (c : Char) : '/' ∉ escape c := by
  have hdigits : ∀ n, hexDigit n ≠ '/' := by
    intro n
    have hall : ('0' :: hexDigits).all (· != '/') = true := by decide
    apply bne_iff_ne.mp
    apply List.all_eq_true.mp hall
    unfold hexDigit
    rw [List.getD_eq_getElem?_getD]
    cases hget : hexDigits[n]? with
    | none => exact List.mem_cons_self
    | some d => exact List.mem_cons_of_mem _ (List.mem_of_getElem? hget)
  intro hmem
  obtain ⟨byte, -, hbyte⟩ := List.mem_flatMap.mp hmem
  simp only [List.mem_cons, List.not_mem_nil, or_false] at hbyte
  obtain hpercent | hhigh | hlow := hbyte
  · exact absurd hpercent (by decide)
  · exact hdigits _ hhigh.symm
  · exact hdigits _ hlow.symm

theorem isUnreserved_of_unescaped {a b c : Char} (h : unescaped? a b = some c) :
    isUnreserved c = true := by
  unfold unescaped? at h
  obtain ⟨high, -, h⟩ := Option.bind_eq_some_iff.mp h
  obtain ⟨low, -, h⟩ := Option.bind_eq_some_iff.mp h
  dsimp only at h
  split at h
  · rename_i hunreserved
    cases h
    exact hunreserved
  · cases h

theorem slash_not_mem_canonicalSegment {segment : List Char} (h : '/' ∉ segment) :
    '/' ∉ canonicalSegment segment := by
  fun_induction canonicalSegment segment with
  | case1 a b rest c hc ih =>
      have hrest : '/' ∉ rest := fun hmem => h (by simp [hmem])
      have hslash : '/' ≠ c := by
        intro heq
        have hunreserved := isUnreserved_of_unescaped hc
        rw [← heq] at hunreserved
        exact absurd hunreserved (by decide)
      exact List.not_mem_cons_of_ne_of_not_mem hslash (ih hrest)
  | case2 a b rest _ _ ih =>
      simp only [List.mem_cons, not_or] at h ⊢
      exact ⟨h.1, h.2.1, h.2.2.1, ih h.2.2.2⟩
  | case3 a b rest _ _ ih =>
      rw [List.mem_append, not_or]
      exact ⟨slash_not_mem_escape '%', ih fun hmem => h (List.mem_cons_of_mem _ hmem)⟩
  | case4 c rest _ ih =>
      rw [List.mem_append, not_or]
      refine ⟨?_, ih fun hmem => h (List.mem_cons_of_mem _ hmem)⟩
      split
      · rw [List.mem_singleton]
        exact fun heq => h (heq ▸ List.mem_cons_self)
      · exact slash_not_mem_escape c
  | case5 => exact h

/-- The segments that remain were there, or are the empty one at the end. -/
theorem mem_resolve {before rest : List (List Char)} {segment : List Char}
    (h : segment ∈ resolve '.' before rest) : segment = [] ∨ segment ∈ before ∨ segment ∈ rest := by
  induction rest generalizing before with
  | nil => exact .inr (.inl (List.mem_reverse.mp h))
  | cons first rest ih =>
      have hstep : ∀ before', (∀ s ∈ before', s = [] ∨ s = first ∨ s ∈ before) →
          segment ∈ resolve '.' before' rest →
          segment = [] ∨ segment ∈ before ∨ segment ∈ first :: rest := by
        intro before' hbefore hmem
        obtain hempty | hmem | hmem := ih hmem
        · exact .inl hempty
        · obtain hempty | hfirst | hmem := hbefore segment hmem
          · exact .inl hempty
          · exact .inr (.inr (hfirst ▸ List.mem_cons_self))
          · exact .inr (.inl hmem)
        · exact .inr (.inr (List.mem_cons_of_mem _ hmem))
      have hempty : ∀ kept : List (List Char), kept ⊆ before →
          ∀ s ∈ (if rest.isEmpty then [] :: kept else kept), s = [] ∨ s = first ∨ s ∈ before := by
        intro kept hkept s hs
        split at hs
        · obtain hs | hs := List.mem_cons.mp hs
          · exact .inl hs
          · exact .inr (.inr (hkept hs))
        · exact .inr (.inr (hkept hs))
      unfold resolve at h
      split at h
      · exact hstep _ (hempty before (List.Subset.refl before)) h
      · split at h
        · exact hstep _ (hempty before.tail fun _ => List.mem_of_mem_tail) h
        · apply hstep _ _ h
          intro s hs
          exact .inr (List.mem_cons.mp hs)

theorem canonical_of_mem_pathSegments {target segment : List Char}
    (h : segment ∈ pathSegments target) : ∃ written, canonicalSegment written = segment := by
  obtain hempty | hnil | hmap := mem_resolve h
  · exact ⟨[], hempty.symm⟩
  · cases hnil
  · obtain ⟨written, -, rfl⟩ := List.mem_map.mp hmap
    exact ⟨written, rfl⟩

theorem slash_not_mem_pathSegments {target segment : List Char}
    (h : segment ∈ pathSegments target) : '/' ∉ segment := by
  obtain hempty | hnil | hmap := mem_resolve h
  · rw [hempty]
    exact List.not_mem_nil
  · cases hnil
  · obtain ⟨part, hpart, rfl⟩ := List.mem_map.mp hmap
    apply slash_not_mem_canonicalSegment
    intro hmem
    exact absurd (not_of_mem_splitOnP part hpart '/' hmem) (by decide)

/-! ### A target behind an authority -/

theorem trimEnd_append {first second : List Char} {c : Char} (hlast : first.getLast? = some c)
    (hc : isBlank c = false) : trimEnd (first ++ second) = first ++ trimEnd second := by
  obtain ⟨init, rfl⟩ := List.getLast?_eq_some_iff.mp hlast
  unfold trimEnd
  rw [List.reverse_append, List.dropWhile_append]
  split
  · rename_i hempty
    rw [List.isEmpty_iff.mp hempty, List.reverse_append, List.reverse_singleton, List.singleton_append,
      List.dropWhile_cons_of_neg (by simp [hc])]
    simp
  · rw [List.reverse_append, List.reverse_reverse]

theorem trimEnd_prefix (text : List Char) : trimEnd text <+: text := by
  rw [← List.reverse_suffix, trimEnd, List.reverse_reverse]
  exact List.dropWhile_suffix isBlank

theorem endsAuthority_trimEnd {target : List Char}
    (htarget : ∀ c ∈ target.head?, endsAuthority c = true) :
    ∀ c ∈ (trimEnd target).head?, endsAuthority c = true := by
  intro c hc
  obtain ⟨tail, htail⟩ := trimEnd_prefix target
  apply htarget
  rw [← htail, List.head?_append, hc]
  rfl

theorem takeWhile_authority {authority target : List Char}
    (hplain : authority.all isAuthorityChar = true)
    (htarget : ∀ c ∈ target.head?, endsAuthority c = true) :
    (authority ++ target).takeWhile (fun c => !endsAuthority c) = authority := by
  have hstart : target.takeWhile (fun c => !endsAuthority c) = [] := by
    cases target with
    | nil => rfl
    | cons c rest => rw [List.takeWhile_cons_of_neg (by simp [htarget c rfl])]
  rw [List.takeWhile_append_of_pos, hstart, List.append_nil]
  intro c hc
  exact (Bool.and_eq_true_iff.mp (List.all_eq_true.mp hplain c hc)).1

theorem dropWhile_authority {authority target : List Char}
    (hplain : authority.all isAuthorityChar = true)
    (htarget : ∀ c ∈ target.head?, endsAuthority c = true) :
    (authority ++ target).dropWhile (fun c => !endsAuthority c) = target := by
  have hsplit := List.takeWhile_append_dropWhile (p := fun c => !endsAuthority c)
    (l := authority ++ target)
  rw [takeWhile_authority hplain htarget] at hsplit
  exact List.append_cancel_left hsplit

end BookHub.Uri
