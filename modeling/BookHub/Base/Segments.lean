import Mathlib.Algebra.GroupWithZero.Nat
import Mathlib.Data.List.TakeWhile
import BookHub.Base.Percent

/-!
# Decoded paths as URLs

A path that was decoded is read as a part of a URL: it may be cut off, a backslash separates segments,
dots are resolved. Each of these loses bytes, as does an escape that decoding made, so the bytes tell
whether the segments are those that were written.
-/

namespace BookHub.Uri

/-! ### Words that need no escape -/

theorem toNat_lt_of_unreserved {c : Char} (h : isUnreserved c = true) : c.toNat < 0x80 := by
  have hlt : ∀ {high : UInt32}, c.val ≤ high → high.toNat < 0x80 → c.toNat < 0x80 := fun hle hhigh =>
    Nat.lt_of_le_of_lt (UInt32.le_iff_toNat_le.mp hle) hhigh
  rw [isUnreserved, Bool.or_eq_true, Bool.or_eq_true, Bool.or_eq_true, Bool.or_eq_true, beq_iff_eq,
    beq_iff_eq, beq_iff_eq, beq_iff_eq] at h
  obtain (((halphanum | h) | h) | h) | h := h
  · obtain halpha | hdigit := Bool.or_eq_true_iff.mp halphanum
    · obtain hupper | hlower := Bool.or_eq_true_iff.mp halpha
      · exact hlt (of_decide_eq_true hupper).2 (by decide)
      · exact hlt (of_decide_eq_true (Bool.and_eq_true_iff.mp hlower).2) (by decide)
    · exact hlt (of_decide_eq_true (Bool.and_eq_true_iff.mp hdigit).2) (by decide)
  all_goals
    subst h
    decide

/-- What needs no escape is one byte. -/
theorem encodeChar_of_unreserved {c : Char} (h : isUnreserved c = true) :
    Utf8.encodeChar c = [UInt8.ofNat c.toNat] := by
  rw [Utf8.encodeChar, utf8Bytes, if_pos (toNat_lt_of_unreserved h)]
  rfl

theorem encodeChar_append_ne_nil (c : Char) (rest : List UInt8) : Utf8.encodeChar c ++ rest ≠ [] :=
  List.append_ne_nil_of_left_ne_nil (List.ne_nil_of_length_pos (length_encodeChar_pos c)) rest

theorem encodeChar_append_inj {c d : Char} {rest rest' : List UInt8}
    (h : Utf8.encodeChar c ++ rest = Utf8.encodeChar d ++ rest') : c = d ∧ rest = rest' := by
  have hdecode := congrArg Utf8.decode h
  rw [Utf8.decode_encodeChar_append, Utf8.decode_encodeChar_append] at hdecode
  obtain rfl := (List.cons.inj hdecode).1
  exact ⟨rfl, List.append_cancel_left h⟩

/-- An escape that stands for an unreserved character at the beginning of a word is that of the
character. -/
theorem unescaped_of_byte {a b c : Char} {byte : UInt8} (hbyte : escapedByte? a b = some byte)
    (hc : isUnreserved c = true) (h : byte = UInt8.ofNat c.toNat) : unescaped? a b = some c := by
  obtain ⟨high, low, hhigh, hlow, rfl⟩ := escapedByte?_eq_some hbyte
  have hhigh16 := hexValue?_lt hhigh
  have hlow16 := hexValue?_lt hlow
  have hlt := toNat_lt_of_unreserved hc
  have hnat := congrArg UInt8.toNat h
  rw [UInt8.toNat_ofNat', UInt8.toNat_ofNat'] at hnat
  have hvalue : 16 * high + low = c.toNat := by omega
  rw [unescaped?, hhigh, hlow]
  simp only [Option.bind_eq_bind, Option.bind_some, hvalue, Char.ofNat_toNat, hc, if_true]

/-- A word that needs no escape stands for its characters. -/
theorem octets_of_unreserved {word : List Char} (h : word.all isUnreserved = true) :
    octets word = Utf8.encode word := by
  induction word with
  | nil => rfl
  | cons c rest ih =>
      obtain ⟨hc, hrest⟩ := Bool.and_eq_true_iff.mp h
      have hne : c ≠ '%' := by
        rintro rfl
        exact absurd hc (by decide)
      rw [octets_cons_of_ne hne, ih hrest]
      rfl

/-- What stands for a word that needs no escape is written as that word. -/
theorem canonicalSegment_of_octets {segment word : List Char} (hword : word.all isUnreserved = true)
    (h : octets segment = Utf8.encode word) : canonicalSegment segment = word := by
  induction segment using canonicalSegment.induct generalizing word with
  | case1 a b rest c hc ih =>
      obtain ⟨byte, hbyte, hencode⟩ := encodeChar_of_unescaped hc
      rw [octets_escape hbyte, ← List.singleton_append, ← hencode] at h
      cases word with
      | nil => exact absurd h (encodeChar_append_ne_nil c _)
      | cons d word =>
          obtain ⟨rfl, hrest⟩ := encodeChar_append_inj h
          rw [canonicalSegment, hc]
          exact congrArg (c :: ·) (ih (Bool.and_eq_true_iff.mp hword).2 hrest)
  | case2 a b rest hnone hboth ih =>
      obtain ⟨high, low, -, -, hbyte⟩ := escapedByte?_of_isSome hboth
      rw [octets_escape hbyte] at h
      cases word with
      | nil => cases h
      | cons d word =>
          obtain ⟨hd, -⟩ := Bool.and_eq_true_iff.mp hword
          rw [Utf8.encode, List.flatMap_cons, encodeChar_of_unreserved hd] at h
          rw [unescaped_of_byte hbyte hd (List.cons.inj h).1] at hnone
          cases hnone
  | case3 a b rest hnone hnot ih =>
      rw [octets_percent hnot] at h
      cases word with
      | nil => exact absurd h (encodeChar_append_ne_nil '%' _)
      | cons d word =>
          obtain ⟨rfl, -⟩ := encodeChar_append_inj h
          exact absurd (Bool.and_eq_true_iff.mp hword).1 (by decide)
  | case4 c rest hnot ih =>
      rw [octets_of_short hnot] at h
      cases word with
      | nil => exact absurd h (encodeChar_append_ne_nil c _)
      | cons d word =>
          obtain ⟨rfl, hrest⟩ := encodeChar_append_inj h
          obtain ⟨hc, hword⟩ := Bool.and_eq_true_iff.mp hword
          have hchar : isPathChar c = true := by
            rw [isPathChar, hc]
            rfl
          rw [canonicalSegment, if_pos hchar, ih hword hrest]
          · rfl
          · exact hnot
  | case5 =>
      cases word with
      | nil => rfl
      | cons d word =>
          exact absurd h.symm (encodeChar_append_ne_nil d _)

theorem canonicalSegment_eq_iff {segment word : List Char} (hword : word.all isUnreserved = true) :
    canonicalSegment segment = word ↔ octets segment = Utf8.encode word := by
  constructor
  · intro h
    rw [← octets_canonicalSegment, h, octets_of_unreserved hword]
  · exact canonicalSegment_of_octets hword

/-- What is decoded to a word that needs no escape stands for it. -/
theorem decodePath_eq_iff {word : List Char} (hword : word.all isUnreserved = true) (text : List Char) :
    decodePath text = word ↔ octets text = Utf8.encode word := by
  induction text using length_induction generalizing word with
  | nil =>
      cases word with
      | nil => exact iff_of_true rfl rfl
      | cons d word => exact iff_of_false (List.cons_ne_nil _ _).symm (encodeChar_append_ne_nil d _).symm
  | cons c rest ih =>
      have hhead : ∀ decoded after, after.length < (c :: rest).length →
          octets (c :: rest) = Utf8.encodeChar decoded ++ octets after →
          decodePath (c :: rest) = decoded :: decodePath after →
          (decodePath (c :: rest) = word ↔ octets (c :: rest) = Utf8.encode word) := by
        intro decoded after hshort hoctets hdecoded
        rw [hoctets, hdecoded]
        cases word with
        | nil => exact iff_of_false (List.cons_ne_nil _ _) (encodeChar_append_ne_nil decoded _)
        | cons d word =>
            have hrest := ih after hshort (Bool.and_eq_true_iff.mp hword).2
            constructor
            · intro heq
              obtain ⟨rfl, hafter⟩ := List.cons.inj heq
              rw [hrest.mp hafter]
              rfl
            · intro heq
              obtain ⟨rfl, hafter⟩ := encodeChar_append_inj heq
              rw [hrest.mpr hafter]
      cases hchar : escapedChar? (c :: rest) with
      | some decoded =>
          obtain ⟨-, hescapes⟩ := octets_of_escapedChar hchar
          obtain ⟨-, hshort, hoctets⟩ := octets_of_escapes hescapes
          have hpos := length_encodeChar_pos decoded
          apply hhead decoded _ ?_ hoctets (decodePath_of_some hchar)
          rw [List.length_drop, List.length_cons]
          omega
      | none =>
          have hdecoded := decodePath_of_none hchar
          by_cases hescape : c = '%' ∧
              ∃ a b tail byte, rest = a :: b :: tail ∧ escapedByte? a b = some byte
          · -- an escape that is kept stands for no unreserved character
            obtain ⟨rfl, a, b, tail, byte, rfl, hbyte⟩ := hescape
            rw [hdecoded, octets_escape hbyte]
            cases word with
            | nil => exact iff_of_false (List.cons_ne_nil _ _) (List.cons_ne_nil _ _)
            | cons d word =>
                obtain ⟨hd, -⟩ := Bool.and_eq_true_iff.mp hword
                refine iff_of_false ?_ ?_
                · intro heq
                  rw [← (List.cons.inj heq).1] at hd
                  exact absurd hd (by decide)
                · intro heq
                  rw [Utf8.encode, List.flatMap_cons, encodeChar_of_unreserved hd] at heq
                  have hone := encodeChar_of_unreserved hd
                  rw [← (List.cons.inj heq).1] at hone
                  have hslash : d ≠ '/' := by
                    rintro rfl
                    exact absurd hd (by decide)
                  rw [escapedChar?_of_byte hbyte hone hslash] at hchar
                  cases hchar
          · apply hhead c rest (Nat.lt_succ_self _) (octets_cons ?_) hdecoded
            intro hc a b tail hrest
            rw [Option.eq_none_iff_forall_ne_some]
            intro byte hbyte
            exact hescape ⟨hc, a, b, tail, byte, hrest, hbyte⟩

/-! ### Segments that are dots -/

/-- One more than its bytes for each segment. -/
def weight (segments : List (List Char)) : Nat := (segments.map fun s => (octets s).length + 1).sum

def IsDots (segment : List Char) : Prop := segment = ['.'] ∨ segment = ['.', '.']

theorem weight_cons (segment : List Char) (segments : List (List Char)) :
    weight (segment :: segments) = (octets segment).length + 1 + weight segments := by
  rw [weight, List.map_cons, List.sum_cons]
  rfl

theorem weight_reverse (segments : List (List Char)) : weight segments.reverse = weight segments := by
  rw [weight, List.map_reverse, List.sum_reverse]
  rfl

theorem weight_tail_le (segments : List (List Char)) : weight segments.tail ≤ weight segments := by
  cases segments with
  | nil => exact Nat.le_refl _
  | cons segment segments =>
      rw [weight_cons, List.tail_cons]
      omega

theorem resolve_of_not_dots {before segments : List (List Char)}
    (h : ∀ segment ∈ segments, ¬ IsDots segment) :
    resolve '.' before segments = before.reverse ++ segments := by
  induction segments generalizing before with
  | nil => rw [resolve, List.append_nil]
  | cons segment rest ih =>
      obtain ⟨hsegment, hrest⟩ := List.forall_mem_cons.mp h
      rw [resolve, if_neg fun heq => hsegment (.inl heq), if_neg fun heq => hsegment (.inr heq),
        ih hrest]
      simp

theorem two_le_of_isDots {segment : List Char} (h : IsDots segment) : 1 ≤ (octets segment).length := by
  obtain rfl | rfl := h
  · decide
  · decide

/-- Resolving loses bytes where there is something to resolve, and adds none. -/
theorem weight_resolve (before segments : List (List Char)) :
    weight (resolve '.' before segments) ≤ weight before + weight segments ∧
      ((∃ segment ∈ segments, IsDots segment) →
        weight (resolve '.' before segments) < weight before + weight segments) := by
  induction segments generalizing before with
  | nil =>
      rw [resolve, weight_reverse]
      refine ⟨Nat.le_add_right _ _, ?_⟩
      intro ⟨_, hmem, _⟩
      cases hmem
  | cons segment rest ih =>
      have hkept : ∀ kept : List (List Char), weight kept ≤ weight before →
          weight (resolve '.' (if rest.isEmpty then [] :: kept else kept) rest) ≤
            weight before + 1 + weight rest := by
        intro kept hle
        split
        · have hresolve := (ih ([] :: kept)).1
          have hempty : weight ([] :: kept) = 1 + weight kept := weight_cons [] kept
          omega
        · have hresolve := (ih kept).1
          omega
      by_cases hdots : IsDots segment
      · have hone := two_le_of_isDots hdots
        have hlt : weight (resolve '.' before (segment :: rest)) <
            weight before + weight (segment :: rest) := by
          rw [resolve, weight_cons]
          split
          · have hall := hkept before (Nat.le_refl _)
            omega
          · rename_i hone
            rw [if_pos (hdots.resolve_left hone)]
            have hall := hkept before.tail (weight_tail_le before)
            omega
        exact ⟨Nat.le_of_lt hlt, fun _ => hlt⟩
      · have hnext : resolve '.' before (segment :: rest) = resolve '.' (segment :: before) rest := by
          rw [resolve, if_neg fun heq => hdots (.inl heq), if_neg fun heq => hdots (.inr heq)]
        have hrest := ih (segment :: before)
        rw [weight_cons] at hrest
        rw [hnext, weight_cons]
        refine ⟨by omega, ?_⟩
        intro ⟨other, hmem, hother⟩
        obtain rfl | hmem := List.mem_cons.mp hmem
        · exact absurd hother hdots
        · have hlt := hrest.2 ⟨other, hmem, hother⟩
          omega

theorem weight_canonical (segments : List (List Char)) :
    weight (segments.map canonicalSegment) = weight segments := by
  rw [weight, weight, List.map_map]
  have hsame : ∀ segment ∈ segments, ((fun s => (octets s).length + 1) ∘ canonicalSegment) segment =
      (octets segment).length + 1 := by
    intro segment _
    show (octets (canonicalSegment segment)).length + 1 = _
    rw [octets_canonicalSegment]
  rw [List.map_congr_left hsame]

theorem isDots_canonicalSegment_iff {segment : List Char} :
    IsDots (canonicalSegment segment) ↔ octets segment = [46] ∨ octets segment = [46, 46] :=
  or_congr (canonicalSegment_eq_iff (by decide)) (canonicalSegment_eq_iff (by decide))

/-- The segments that are left are those of the bytes. -/
theorem map_octets_resolve (before segments : List (List Char)) :
    (resolve '.' before (segments.map canonicalSegment)).map octets =
      resolve 46 (before.map octets) (segments.map octets) := by
  induction segments generalizing before with
  | nil => exact List.map_reverse
  | cons segment rest ih =>
      have hone : canonicalSegment segment = ['.'] ↔ octets segment = [46] :=
        canonicalSegment_eq_iff (by decide)
      have htwo : canonicalSegment segment = ['.', '.'] ↔ octets segment = [46, 46] :=
        canonicalSegment_eq_iff (by decide)
      have hempty : ∀ kept : List (List Char),
          (if (rest.map canonicalSegment).isEmpty then [] :: kept else kept).map octets =
            if (rest.map octets).isEmpty then [] :: kept.map octets else kept.map octets := by
        intro kept
        rw [List.isEmpty_map, List.isEmpty_map]
        split
        · rfl
        · rfl
      rw [List.map_cons, List.map_cons, resolve, resolve]
      by_cases h1 : octets segment = [46]
      · rw [if_pos h1, if_pos (hone.mpr h1), ih, hempty]
      · rw [if_neg h1, if_neg (h1 ∘ hone.mp)]
        by_cases h2 : octets segment = [46, 46]
        · rw [if_pos h2, if_pos (htwo.mpr h2), ih, hempty, List.map_tail]
        · rw [if_neg h2, if_neg (h2 ∘ htwo.mp), ih, List.map_cons, octets_canonicalSegment]

/-! ### Splitting and parsing -/

/-- Splitting keeps the bytes, but for the separators. -/
theorem weight_splitOnP {p : Char → Bool}
    (hp : ∀ c, p c = true → hexValue? c = none ∧ c ≠ '%' ∧ (Utf8.encodeChar c).length = 1)
    (text : List Char) : weight (text.splitOnP p) = (octets text).length + 1 := by
  have hlast : ∀ text : List Char, (∀ c ∈ text, p c = false) →
      weight (text.splitOnP p) = (octets text).length + 1 := by
    intro text hnone
    rw [List.splitOnP_eq_singleton hnone, weight_cons]
    rfl
  induction text using length_induction with
  | nil => rfl
  | cons c rest ih =>
      have hsplit := List.takeWhile_append_dropWhile (p := fun c => !p c) (l := c :: rest)
      have hfirst : ∀ c' ∈ (c :: rest).takeWhile (fun c => !p c), p c' = false := by
        intro c' hc'
        exact (Bool.not_eq_true' _).mp (List.all_eq_true.mp List.all_takeWhile c' hc')
      cases hdrop : (c :: rest).dropWhile (fun c => !p c) with
      | nil =>
          rw [hdrop, List.append_nil] at hsplit
          rw [hsplit] at hfirst
          exact hlast _ hfirst
      | cons separator others =>
          have hseparator : p separator = true := by
            have hhead := List.head?_dropWhile_not (fun c => !p c) (c :: rest)
            rw [hdrop] at hhead
            simpa using hhead
          obtain ⟨hhex, hpercent, hone⟩ := hp separator hseparator
          rw [hdrop] at hsplit
          have hshort : others.length < (c :: rest).length := by
            rw [← hsplit, List.length_append, List.length_cons]
            omega
          rw [← hsplit, List.splitOnP_append_cons_of_forall_mem hfirst _ hseparator, weight_cons,
            ih others hshort, octets_append hhex, octets_cons_of_ne hpercent, List.length_append,
            List.length_append, hone]
          omega

theorem weight_congr {first second : List (List Char)} (h : first.map octets = second.map octets) :
    weight first = weight second := by
  have hweight : ∀ segments : List (List Char),
      weight segments = ((segments.map octets).map fun bytes => bytes.length + 1).sum := by
    intro segments
    rw [List.map_map]
    rfl
  rw [hweight, hweight, h]

theorem countP_isSlash (text : List Char) :
    text.countP isSlash = text.countP (· == '/') + text.count '\\' := by
  induction text with
  | nil => rfl
  | cons c rest ih =>
      rw [List.countP_cons, List.countP_cons, List.count_cons, ih]
      by_cases hslash : c = '/'
      · subst hslash
        show _ + 1 = _ + 1 + (_ + 0)
        omega
      · have hno : (c == '/') = false := beq_eq_false_iff_ne.mpr hslash
        rw [isSlash, hno, Bool.false_or]
        cases c == '\\' with
        | true =>
            show _ + 1 = _ + 0 + (_ + 1)
            omega
        | false =>
            show _ + 0 = _ + 0 + (_ + 0)
            omega

theorem splitOnP_isSlash {text : List Char} (h : '\\' ∉ text) :
    text.splitOnP isSlash = text.splitOn '/' := by
  show _ = text.splitOnP (· == '/')
  induction text with
  | nil => rfl
  | cons c rest ih =>
      rw [List.mem_cons, not_or] at h
      have hc : isSlash c = (c == '/') := by
        rw [isSlash, beq_eq_false_iff_ne.mpr (Ne.symm h.1), Bool.or_false]
      rw [List.splitOnP_cons_eq_if_modifyHead, List.splitOnP_cons_eq_if_modifyHead, hc, ih h.2]

theorem octets_of_head {dropped : List Char} (hdropped : dropped ≠ [])
    (hcut : ∀ c ∈ dropped.head?, hexValue? c = none ∧ c ≠ '%') (path : List Char) :
    (octets path).length < (octets (path ++ dropped)).length := by
  cases dropped with
  | nil => exact absurd rfl hdropped
  | cons c rest =>
      obtain ⟨hhex, hpercent⟩ := hcut c rfl
      have hpos := length_encodeChar_pos c
      rw [octets_append hhex, octets_cons_of_ne hpercent, List.length_append, List.length_append]
      omega

/-- A path that was decoded and cut off is read with the segments it was written with exactly where
nothing was cut off, no slash was made of anything else, no escape came of decoding, and there were
no dots to resolve. -/
theorem resolve_decoded_iff {raw path dropped : List Char} (hdecoded : decodePath raw = path ++ dropped)
    (hcut : ∀ c ∈ dropped.head?, hexValue? c = none ∧ c ≠ '%') :
    (resolve '.' [] ((path.splitOnP isSlash).map canonicalSegment)).map octets =
        (raw.splitOn '/').map octets ↔
      dropped = [] ∧ '\\' ∉ path ∧ ∀ segment ∈ raw.splitOn '/',
        hidesEscape segment = false ∧ octets segment ≠ [46] ∧ octets segment ≠ [46, 46] := by
  have hseparator : ∀ c, isSlash c = true →
      hexValue? c = none ∧ c ≠ '%' ∧ (Utf8.encodeChar c).length = 1 := by
    intro c hc
    obtain hslash | hbackslash := Bool.or_eq_true_iff.mp hc
    · rw [beq_iff_eq.mp hslash]
      decide
    · rw [beq_iff_eq.mp hbackslash]
      decide
  have hparts : ∀ segments : List (List Char),
      (∀ segment ∈ segments, hidesEscape segment = false) →
      (segments.map decodePath).map (octets ∘ canonicalSegment) = segments.map octets := by
    intro segments hkept
    rw [List.map_map]
    apply List.map_congr_left
    intro segment hsegment
    show octets (canonicalSegment (decodePath segment)) = _
    rw [octets_canonicalSegment, (octets_decodePath segment).1 (hkept segment hsegment)]
  constructor
  · intro hsame
    have hraw : weight (raw.splitOn '/') = (octets raw).length + 1 := by
      apply weight_splitOnP
      intro c hc
      exact hseparator c (Bool.or_eq_true_iff.mpr (.inl hc))
    have hpath := weight_splitOnP hseparator path
    rw [← weight_canonical] at hpath
    obtain ⟨hle, hlt⟩ := weight_resolve [] ((path.splitOnP isSlash).map canonicalSegment)
    have hweight := weight_congr hsame
    have hdecode := length_octets_decodePath_le raw
    have hnil : weight [] = 0 := rfl
    have hdropped : dropped = [] := by
      by_contra hne
      have hcutoff := octets_of_head hne hcut path
      rw [hdecoded] at hdecode
      omega
    subst hdropped
    rw [List.append_nil] at hdecoded
    subst hdecoded
    have hnodots : ∀ segment ∈ ((decodePath raw).splitOnP isSlash).map canonicalSegment,
        ¬ IsDots segment := by
      intro segment hsegment hdots
      have hless := hlt ⟨segment, hsegment, hdots⟩
      omega
    rw [resolve_of_not_dots hnodots, List.reverse_nil, List.nil_append, List.map_map] at hsame
    -- as many segments as before leave no backslash among the separators
    have hbackslash : '\\' ∉ decodePath raw := by
      have hlength := congrArg List.length hsame
      have hslashes := congrArg List.length (splitOn_decodePath raw)
      rw [List.length_map] at hslashes
      rw [List.length_map, List.length_map, ← hslashes, length_splitOnP, List.splitOn_eq_splitOnP,
        length_splitOnP, countP_isSlash] at hlength
      rw [← List.count_eq_zero]
      omega
    rw [splitOnP_isSlash hbackslash, splitOn_decodePath, List.map_map] at hsame hnodots
    refine ⟨rfl, hbackslash, ?_⟩
    intro segment hsegment
    have hbytes : octets (decodePath segment) = octets segment := by
      have heq := List.map_inj_left.mp hsame segment hsegment
      rw [← octets_canonicalSegment]
      exact heq
    have hdots := hnodots _ (List.mem_map_of_mem hsegment)
    rw [Function.comp_apply, isDots_canonicalSegment_iff, hbytes, not_or] at hdots
    refine ⟨?_, hdots⟩
    rw [Bool.eq_false_iff]
    intro hhides
    have hless := (octets_decodePath segment).2 hhides
    rw [hbytes] at hless
    exact Nat.lt_irrefl _ hless
  · intro ⟨hdropped, hbackslash, hsegments⟩
    subst hdropped
    rw [List.append_nil] at hdecoded
    subst hdecoded
    have hsplit := splitOnP_isSlash hbackslash
    rw [splitOn_decodePath] at hsplit
    rw [hsplit, resolve_of_not_dots, List.reverse_nil, List.nil_append, List.map_map]
    · exact hparts _ fun segment hsegment => (hsegments segment hsegment).1
    · intro segment hsegment hdots
      obtain ⟨decoded, hdecoded, rfl⟩ := List.mem_map.mp hsegment
      obtain ⟨written, hwritten, rfl⟩ := List.mem_map.mp hdecoded
      obtain ⟨hhides, hone, htwo⟩ := hsegments written hwritten
      rw [isDots_canonicalSegment_iff, (octets_decodePath written).1 hhides] at hdots
      exact hdots.elim hone htwo

/-! ### The target behind the authority -/

theorem trimEnd_of_getLast {text : List Char} (h : ∀ c ∈ text.getLast?, isBlank c = false) :
    trimEnd text = text := by
  cases hlast : text.getLast? with
  | none =>
      rw [List.getLast?_eq_none_iff.mp hlast]
      rfl
  | some c =>
      have happend : trimEnd (text ++ []) = text ++ trimEnd [] := trimEnd_append hlast (h c hlast)
      rw [List.append_nil] at happend
      exact happend.trans (List.append_nil _)

/-- White space at the end of a path is cut off where no query follows. -/
theorem trimEnd_target (path : List Char) {query : List Char}
    (hquery : ∀ c ∈ query, isBlank c = false) :
    ∃ kept blanks, path = kept ++ blanks ∧ trimEnd ('/' :: (path ++ query)) = '/' :: (kept ++ query) ∧
      (∀ c ∈ blanks.head?, isBlank c = true) ∧
      (blanks = [] ↔ (query = [] → ∀ c ∈ path.getLast?, isBlank c = false)) := by
  cases query with
  | nil =>
      have hkept := List.takeWhile_append_dropWhile (p := isBlank) (l := path.reverse)
      refine ⟨trimEnd path, (path.reverse.takeWhile isBlank).reverse, ?_, ?_, ?_, ?_⟩
      · rw [trimEnd, ← List.reverse_append, hkept, List.reverse_reverse]
      · rw [List.append_nil, List.append_nil]
        show trimEnd (['/'] ++ path) = ['/'] ++ trimEnd path
        exact trimEnd_append rfl (by decide)
      · intro c hc
        have hmem := List.mem_of_mem_head? hc
        rw [List.mem_reverse] at hmem
        exact List.all_eq_true.mp List.all_takeWhile c hmem
      · rw [List.reverse_eq_nil_iff, List.getLast?_eq_head?_reverse]
        cases path.reverse with
        | nil => simp
        | cons last before =>
            cases hlast : isBlank last with
            | true => simp [hlast]
            | false => simp [hlast]
  | cons c rest =>
      have hlast : ∀ d ∈ ('/' :: (path ++ c :: rest)).getLast?, isBlank d = false := by
        intro d hd
        apply hquery
        rw [← List.cons_append, List.getLast?_append,
          List.getLast?_eq_some_getLast (List.cons_ne_nil c rest), Option.some_or] at hd
        cases hd
        exact List.getLast_mem _
      refine ⟨path, [], (List.append_nil _).symm, trimEnd_of_getLast hlast, ?_, ?_⟩
      · intro _ h
        cases h
      · simp

theorem takeWhile_target {kept query : List Char} (hquery : query = [] ∨ query.head? = some '?') :
    (kept ++ query).takeWhile (fun c => !endsPath c) = kept.takeWhile fun c => !endsPath c := by
  have hnone : query.takeWhile (fun c => !endsPath c) = [] := by
    obtain rfl | hmark := hquery
    · rfl
    · obtain ⟨rest, rfl⟩ := List.head?_eq_some_iff.mp hmark
      rfl
  rw [List.takeWhile_append]
  split
  · rename_i hall
    rw [hnone, List.append_nil]
    exact (List.takeWhile_prefix _).eq_of_length hall |>.symm
  · rfl

/-- A path that was decoded, with a query behind it, is read with the segments it was written with. -/
theorem target_decoded_iff {raw query : List Char} (hmarked : query = [] ∨ query.head? = some '?')
    (hquery : ∀ c ∈ query, isBlank c = false ∧ c ≠ '#') {target : List Char}
    (htarget : trimEnd ('/' :: (decodePath raw ++ query)) = target) :
    (pathSegments target).map octets = (raw.splitOn '/').map octets ↔
      ('?' ∉ decodePath raw ∧ '#' ∉ decodePath raw ∧ '\\' ∉ decodePath raw) ∧
        (query = [] → ∀ c ∈ (decodePath raw).getLast?, isBlank c = false) ∧
        ∀ segment ∈ raw.splitOn '/',
          hidesEscape segment = false ∧ octets segment ≠ [46] ∧ octets segment ≠ [46, 46] := by
  obtain ⟨kept, blanks, hkept, htrim, hblanks, hnone⟩ :=
    trimEnd_target (decodePath raw) fun c hc => (hquery c hc).1
  rw [htrim] at htarget
  subst htarget
  have hsplit := List.takeWhile_append_dropWhile (p := fun c => !endsPath c) (l := kept)
  have hdecoded : decodePath raw =
      kept.takeWhile (fun c => !endsPath c) ++ (kept.dropWhile (fun c => !endsPath c) ++ blanks) := by
    rw [← List.append_assoc, hsplit, hkept]
  have hcut : ∀ c ∈ (kept.dropWhile (fun c => !endsPath c) ++ blanks).head?,
      hexValue? c = none ∧ c ≠ '%' := by
    have hcuts : (['?', '#', ' ', '\t', '\n', '\r'].all fun c => hexValue? c == none && c != '%') := by
      decide
    intro c hc
    rw [← beq_iff_eq (a := hexValue? c), ← bne_iff_ne, ← Bool.and_eq_true]
    apply List.all_eq_true.mp hcuts c
    cases hdrop : kept.dropWhile (fun c => !endsPath c) with
    | nil =>
        rw [hdrop, List.nil_append] at hc
        have hblank := List.contains_iff_mem.mp (hblanks c hc)
        exact List.mem_cons_of_mem _ (List.mem_cons_of_mem _ hblank)
    | cons d others =>
        rw [hdrop] at hc
        cases hc
        have hend := List.head?_dropWhile_not (fun c => !endsPath c) kept
        rw [hdrop] at hend
        simp only [List.head?_cons, Bool.not_eq_false', endsPath, Bool.or_eq_true, beq_iff_eq] at hend
        obtain rfl | rfl := hend
        · exact List.mem_cons_self
        · exact List.mem_cons_of_mem _ List.mem_cons_self
  have hsegments : pathSegments ('/' :: (kept ++ query)) =
      resolve '.' [] (((kept.takeWhile fun c => !endsPath c).splitOnP isSlash).map canonicalSegment) := by
    unfold pathSegments
    dsimp only
    rw [List.takeWhile_cons_of_pos (by decide), List.drop_one, List.tail_cons, takeWhile_target hmarked]
  have hends : kept.dropWhile (fun c => !endsPath c) = [] ↔ '?' ∉ kept ∧ '#' ∉ kept := by
    rw [List.dropWhile_eq_nil_iff]
    simp only [Bool.not_eq_true', endsPath, Bool.or_eq_false_iff, beq_eq_false_iff_ne]
    constructor
    · intro hall
      exact ⟨fun hmem => (hall _ hmem).1 rfl, fun hmem => (hall _ hmem).2 rfl⟩
    · intro ⟨hmark, hhash⟩ c hc
      exact ⟨fun heq => hmark (heq ▸ hc), fun heq => hhash (heq ▸ hc)⟩
  rw [hsegments, resolve_decoded_iff hdecoded hcut, List.append_eq_nil_iff]
  constructor
  · intro ⟨⟨hdrop, hnil⟩, hbackslash, hwritten⟩
    subst hnil
    rw [hdrop, List.append_nil] at hsplit
    rw [hsplit] at hbackslash
    rw [List.append_nil] at hkept
    rw [hkept]
    obtain ⟨hmark, hhash⟩ := hends.mp hdrop
    exact ⟨⟨hmark, hhash, hbackslash⟩, hkept ▸ hnone.mp rfl, hwritten⟩
  · intro ⟨⟨hmark, hhash, hbackslash⟩, hlast, hwritten⟩
    obtain rfl := hnone.mpr hlast
    rw [List.append_nil] at hkept
    rw [hkept] at hmark hhash hbackslash
    have hdrop := hends.mpr ⟨hmark, hhash⟩
    rw [hdrop, List.append_nil] at hsplit
    rw [hsplit]
    exact ⟨⟨hdrop, rfl⟩, hbackslash, hwritten⟩

/-- The query begins where it was written, behind a path that holds no mark of its own. -/
theorem query_of_target {path query : List Char} (hmarked : query = [] ∨ query.head? = some '?')
    (hquery : ∀ c ∈ query, isBlank c = false ∧ c ≠ '#') (hpath : '?' ∉ path ∧ '#' ∉ path)
    (hblank : query = [] → ∀ c ∈ path.getLast?, isBlank c = false) :
    ((trimEnd ('/' :: (path ++ query))).dropWhile fun c => !endsPath c).takeWhile (· != '#') = query := by
  obtain ⟨kept, blanks, hkept, htrim, -, hnone⟩ := trimEnd_target path fun c hc => (hquery c hc).1
  obtain rfl := hnone.mpr hblank
  rw [List.append_nil] at hkept
  rw [htrim, ← hkept, List.dropWhile_cons_of_pos (by decide), List.dropWhile_append_of_pos]
  · have hstart : query.dropWhile (fun c => !endsPath c) = query := by
      obtain rfl | hmark := hmarked
      · rfl
      · obtain ⟨rest, rfl⟩ := List.head?_eq_some_iff.mp hmark
        rfl
    rw [hstart, List.takeWhile_eq_self_iff]
    intro c hc
    exact bne_iff_ne.mpr (hquery c hc).2
  · intro c hc
    rw [Bool.not_eq_true', endsPath, Bool.or_eq_false_iff, beq_eq_false_iff_ne, beq_eq_false_iff_ne]
    refine ⟨?_, ?_⟩
    · rintro rfl
      exact hpath.1 hc
    · rintro rfl
      exact hpath.2 hc

/-! ### A segment that needs no escape -/

theorem canonicalSegment_of_unreserved {segment : List Char}
    (h : segment.all isUnreserved = true) : canonicalSegment segment = segment :=
  canonicalSegment_of_octets h (octets_of_unreserved h)

/-- A segment that needs no escape, with or without a slash behind it, is the segment of the URL. -/
theorem pathSegments_of_unreserved {rest segment query : List Char}
    (hplain : segment.all isUnreserved = true) (hdots : ¬ IsDots segment)
    (hrest : rest.splitOn '/' = [segment] ∨ rest.splitOn '/' = [segment, []])
    (hquery : query = [] ∨ query.head? = some '?') :
    pathSegments (trimEnd ('/' :: (rest ++ query))) = rest.splitOn '/' := by
  have hchars : ∀ c ∈ segment ++ ['/'], isBlank c = false ∧ endsPath c = false ∧ c ≠ '\\' := by
    intro c hc
    obtain hsegment | hslash := List.mem_append.mp hc
    · have hc := List.all_eq_true.mp hplain c hsegment
      refine ⟨?_, ?_, ?_⟩
      · rw [Bool.eq_false_iff]
        intro hblank
        have hall : [' ', '\t', '\n', '\r'].all (fun c => !isUnreserved c) = true := by decide
        have hno := List.all_eq_true.mp hall c (List.contains_iff_mem.mp hblank)
        rw [hc] at hno
        cases hno
      · rw [Bool.eq_false_iff]
        intro hend
        rw [endsPath, Bool.or_eq_true, beq_iff_eq, beq_iff_eq] at hend
        obtain rfl | rfl := hend
        · exact absurd hc (by decide)
        · exact absurd hc (by decide)
      · rintro rfl
        exact absurd hc (by decide)
    · rw [List.mem_singleton.mp hslash]
      decide
  have hjoin : List.intercalate ['/'] (rest.splitOn '/') = rest := List.intercalate_splitOn '/'
  have hsub : ∀ c ∈ rest, c ∈ segment ++ ['/'] := by
    intro c hc
    rw [← hjoin] at hc
    obtain hone | htwo := hrest
    · rw [hone, List.intercalate_singleton] at hc
      exact List.mem_append_left _ hc
    · rw [htwo, List.intercalate_cons_cons, List.intercalate_singleton, List.append_nil] at hc
      exact hc
  have htrim : trimEnd ('/' :: (rest ++ query)) = '/' :: rest ++ trimEnd query := by
    have hlast : ∃ c, ('/' :: rest).getLast? = some c ∧ isBlank c = false := by
      refine ⟨_, List.getLast?_eq_some_getLast (List.cons_ne_nil _ _), ?_⟩
      obtain hhead | hmem := List.mem_cons.mp (List.getLast_mem (List.cons_ne_nil '/' rest))
      · rw [hhead]
        decide
      · exact (hchars _ (hsub _ hmem)).1
    obtain ⟨c, hc, hblank⟩ := hlast
    exact trimEnd_append hc hblank
  have hmarked : trimEnd query = [] ∨ (trimEnd query).head? = some '?' := by
    obtain rfl | hmark := hquery
    · exact .inl rfl
    · obtain ⟨tail, rfl⟩ := List.head?_eq_some_iff.mp hmark
      have happend : trimEnd (['?'] ++ tail) = ['?'] ++ trimEnd tail :=
        trimEnd_append rfl (by decide)
      rw [← List.singleton_append, happend]
      exact .inr rfl
  have hpath : ('/' :: rest).takeWhile (fun c => !endsPath c) = '/' :: rest := by
    rw [List.takeWhile_eq_self_iff]
    intro c hc
    rw [Bool.not_eq_true']
    obtain rfl | hmem := List.mem_cons.mp hc
    · decide
    · exact (hchars c (hsub c hmem)).2.1
  have hbackslash : '\\' ∉ rest := fun hmem => (hchars _ (hsub _ hmem)).2.2 rfl
  have hcanonical : (rest.splitOn '/').map canonicalSegment = rest.splitOn '/' := by
    obtain hone | htwo := hrest
    · rw [hone, List.map_singleton, canonicalSegment_of_unreserved hplain]
    · rw [htwo, List.map_cons, canonicalSegment_of_unreserved hplain]
      rfl
  have hnodots : ∀ other ∈ rest.splitOn '/', ¬ IsDots other := by
    intro other hother
    obtain hone | htwo := hrest
    · rw [hone, List.mem_singleton] at hother
      rwa [hother]
    · rw [htwo, List.mem_cons, List.mem_singleton] at hother
      obtain rfl | rfl := hother
      · exact hdots
      · rintro (h | h)
        · cases h
        · cases h
  unfold pathSegments
  dsimp only
  rw [htrim, takeWhile_target hmarked, hpath, List.drop_one, List.tail_cons,
    splitOnP_isSlash hbackslash, hcanonical, resolve_of_not_dots hnodots]
  rfl

end BookHub.Uri
