import BookHub.Base.Lists
import Mathlib.Data.List.TakeWhile

/-!
# File names

`os.path.splitext`, and the patterns of `glob.glob` as far as they have `*` and `?`. What the two have
to do with each other: an extension that was split off has its one dot in front, so a name that is put
together from a stem without a dot and such an extension says which stem it has.
-/

namespace BookHub

/-- What follows the last slash. -/
def basename (path : List Char) : List Char := (path.reverse.takeWhile (· ≠ '/')).reverse

/-- From the last dot on, unless nothing but dots is in front of it. -/
def extensionOf (base : List Char) : List Char :=
  match base.reverse.dropWhile (· ≠ '.') with
  | [] => []
  | _dot :: root =>
      if root.any (· ≠ '.') then '.' :: (base.reverse.takeWhile (· ≠ '.')).reverse else []

/-- `os.path.splitext(path)[1]`. -/
def splitext (path : String) : String := String.ofList (extensionOf (basename path.toList))

/-- `fnmatch`; a set in brackets is not among the patterns. -/
def fnmatch : List Char → List Char → Bool
  | [], name => name.isEmpty
  | '*' :: pattern, name => name.tails.any fun rest => fnmatch pattern rest
  | '?' :: pattern, name =>
      match name with
      | [] => false
      | _ :: rest => fnmatch pattern rest
  | c :: pattern, name =>
      match name with
      | [] => false
      | d :: rest => c = d && fnmatch pattern rest

/-- A text without wildcards. -/
def Literal (text : List Char) : Prop := ∀ c ∈ text, c ≠ '*' ∧ c ≠ '?' ∧ c ≠ '['

theorem extensionOf_cases (base : List Char) :
    extensionOf base = [] ∨
      ∃ rest, extensionOf base = '.' :: rest ∧ '.' ∉ rest ∧ ∀ c ∈ rest, c ∈ base := by
  unfold extensionOf
  split
  · exact Or.inl rfl
  · split
    · refine Or.inr ⟨_, rfl, ?_, ?_⟩
      · intro hdot
        rw [List.mem_reverse] at hdot
        have hne := List.mem_takeWhile_imp hdot
        simp at hne
      · intro c hc
        rw [List.mem_reverse] at hc
        exact List.mem_reverse.mp ((List.takeWhile_prefix _).subset hc)
    · exact Or.inl rfl

/-- An extension is empty, or a dot and then neither a dot nor a slash. -/
theorem splitext_cases (path : String) :
    splitext path = "" ∨ ∃ rest, (splitext path).toList = '.' :: rest ∧ '.' ∉ rest ∧ '/' ∉ rest := by
  unfold splitext
  obtain hnil | ⟨rest, hcons, hdot, hmem⟩ := extensionOf_cases (basename path.toList)
  · rw [hnil]
    exact Or.inl rfl
  · rw [hcons, String.toList_ofList]
    refine Or.inr ⟨rest, rfl, hdot, ?_⟩
    intro hslash
    have hbase := hmem '/' hslash
    rw [basename, List.mem_reverse] at hbase
    have hne := List.mem_takeWhile_imp hbase
    simp at hne

/-- A literal text and then a star match what begins with the text. -/
theorem fnmatch_literal_star {text : List Char} (h : Literal text) (name : List Char) :
    fnmatch (text ++ ['*']) name = true ↔ text <+: name := by
  induction text generalizing name with
  | nil =>
      simp only [List.nil_append, fnmatch, List.any_eq_true, List.nil_prefix, iff_true]
      exact ⟨[], (List.mem_tails [] name).mpr List.nil_suffix, rfl⟩
  | cons c text ih =>
      obtain ⟨hstar, hmark, -⟩ := h c List.mem_cons_self
      have hrest : Literal text := fun d hd => h d (List.mem_cons_of_mem c hd)
      cases name with
      | nil => simp [fnmatch]
      | cons d name => simp [fnmatch, ih hrest, List.cons_prefix_cons]

end BookHub
