import Mathlib.Data.List.Infix

/-!
# Lists

A list that is split at a separator, at each place where it stands or at the first one; a list that is
changed at one place; and one whose elements are checked one after the other: as a whole the check
succeeds where it does for each.
-/

namespace BookHub

/-! ### Separators -/

/-- Two stems without the separator, each followed by one. -/
theorem stem_unique {α : Type} {x : α} {stem stem' tail : List α} (h : x ∉ stem) (h' : x ∉ stem')
    (hstart : stem' ++ [x] <+: stem ++ x :: tail) : stem' = stem := by
  induction stem' generalizing stem with
  | nil =>
      cases stem with
      | nil => rfl
      | cons c stem =>
          obtain ⟨heq, -⟩ := List.cons_prefix_cons.mp hstart
          exact absurd (heq ▸ List.mem_cons_self) h
  | cons c' stem' ih =>
      cases stem with
      | nil =>
          obtain ⟨heq, -⟩ := List.cons_prefix_cons.mp hstart
          exact absurd (heq ▸ List.mem_cons_self) h'
      | cons c stem =>
          obtain ⟨rfl, hrest⟩ := List.cons_prefix_cons.mp hstart
          rw [ih (fun hmem => h (List.mem_cons_of_mem _ hmem))
            (fun hmem => h' (List.mem_cons_of_mem _ hmem)) hrest]

/-- What is split at what satisfies `p` does not hold it. -/
theorem not_of_mem_splitOnP {α : Type} {p : α → Bool} {l : List α} :
    ∀ part ∈ l.splitOnP p, ∀ x ∈ part, p x = false := by
  induction l with
  | nil =>
      intro part hpart x hx
      rw [List.splitOnP_nil, List.mem_singleton] at hpart
      rw [hpart] at hx
      cases hx
  | cons y rest ih =>
      intro part hpart x hx
      rw [List.splitOnP_cons_eq_if_modifyHead] at hpart
      split at hpart
      · obtain rfl | hpart := List.mem_cons.mp hpart
        · cases hx
        · exact ih part hpart x hx
      · rename_i hy
        cases hsplit : rest.splitOnP p with
        | nil =>
            rw [hsplit] at hpart
            cases hpart
        | cons first others =>
            rw [hsplit, List.modifyHead_cons] at hpart
            rw [hsplit] at ih
            obtain rfl | hpart := List.mem_cons.mp hpart
            · obtain rfl | hx := List.mem_cons.mp hx
              · exact Bool.eq_false_iff.mpr hy
              · exact ih first List.mem_cons_self x hx
            · exact ih part (List.mem_cons_of_mem _ hpart) x hx

/-- There is one part more than there are separators. -/
theorem length_splitOnP {α : Type} (p : α → Bool) (l : List α) :
    (l.splitOnP p).length = l.countP p + 1 := by
  induction l with
  | nil => rfl
  | cons x rest ih =>
      rw [List.splitOnP_cons_eq_if_modifyHead]
      cases hx : p x with
      | true => rw [if_pos rfl, List.length_cons, ih, List.countP_cons_of_pos hx]
      | false =>
          rw [if_neg Bool.false_ne_true, List.length_modifyHead, ih,
            List.countP_cons_of_neg (by simp [hx])]

/-! ### The first occurrence of a separator -/

/-- What precedes the first occurrence of `sep`, and what follows it. -/
def breakOn? {α : Type} [BEq α] (sep : List α) : List α → Option (List α × List α)
  | [] => if sep.isEmpty then some ([], []) else none
  | x :: rest =>
      if sep.isPrefixOf (x :: rest) then some ([], (x :: rest).drop sep.length)
      else (breakOn? sep rest).map fun (before, after) => (x :: before, after)

section BreakOn

variable {α : Type} [BEq α] [LawfulBEq α] {sep : List α}

theorem eq_of_breakOn? {l before after : List α} (h : breakOn? sep l = some (before, after)) :
    l = before ++ sep ++ after := by
  induction l generalizing before with
  | nil =>
      rw [breakOn?] at h
      split at h
      · rename_i hempty
        cases h
        rw [List.isEmpty_iff.mp hempty]
        rfl
      · cases h
  | cons x rest ih =>
      rw [breakOn?] at h
      split at h
      · rename_i hstart
        cases h
        obtain ⟨after, hafter⟩ := List.isPrefixOf_iff_prefix.mp hstart
        rw [← hafter, List.drop_left, List.nil_append]
      · obtain ⟨⟨first, others⟩, hbreak, heq⟩ := Option.map_eq_some_iff.mp h
        cases heq
        exact congrArg (x :: ·) (ih hbreak)

theorem breakOn?_of_prefix (rest : List α) : breakOn? sep (sep ++ rest) = some ([], rest) := by
  cases sep with
  | nil => cases rest <;> rfl
  | cons first others =>
      rw [List.cons_append, breakOn?, ← List.cons_append, if_pos, List.drop_left]
      exact List.isPrefixOf_iff_prefix.mpr (List.prefix_append _ _)

/-- A separator in the first list is found there. -/
theorem breakOn?_append_of_infix {content rest : List α} (h : sep <:+: content) :
    ∃ before after, content = before ++ sep ++ after ∧
      breakOn? sep (content ++ rest) = some (before, after ++ rest) := by
  induction content with
  | nil =>
      rw [List.eq_nil_of_infix_nil h]
      exact ⟨[], [], rfl, breakOn?_of_prefix rest⟩
  | cons x content ih =>
      by_cases hstart : sep <+: x :: content
      · obtain ⟨after, hafter⟩ := hstart
        refine ⟨[], after, hafter.symm, ?_⟩
        rw [← hafter, List.append_assoc]
        exact breakOn?_of_prefix (after ++ rest)
      · obtain ⟨before, after, hcontent, hbreak⟩ := ih ((List.infix_cons_iff.mp h).resolve_left hstart)
        refine ⟨x :: before, after, congrArg (x :: ·) hcontent, ?_⟩
        rw [List.cons_append, breakOn?, hbreak, if_neg]
        · rfl
        · intro hlong
          apply hstart
          rw [List.isPrefixOf_iff_prefix, ← List.cons_append] at hlong
          exact List.prefix_of_prefix_length_le hlong (List.prefix_append _ _) h.length_le

/-- A separator that overlaps itself nowhere is found behind a list that does not hold it. -/
theorem breakOn?_append {first : α} {others content rest : List α} (hfirst : first ∉ others)
    (h : ¬ first :: others <:+: content) :
    breakOn? (first :: others) (content ++ (first :: others ++ rest)) = some (content, rest) := by
  induction content with
  | nil => exact breakOn?_of_prefix rest
  | cons x content ih =>
      have hcontent : ¬ first :: others <:+: content := fun hmem => h (List.infix_cons hmem)
      rw [List.cons_append, breakOn?, ih hcontent, if_neg]
      · rfl
      · intro hlong
        rw [List.isPrefixOf_iff_prefix, ← List.cons_append] at hlong
        obtain hshort | ⟨overlap, hoverlap⟩ :=
          List.prefix_or_prefix_of_prefix hlong (List.prefix_append (x :: content) _)
        · exact h hshort.isInfix
        · cases overlap with
          | nil =>
              rw [List.append_nil] at hoverlap
              exact h (hoverlap ▸ List.infix_rfl)
          | cons again overlap =>
              -- the separator would begin anew within itself
              rw [← hoverlap, List.prefix_append_right_inj, hoverlap] at hlong
              obtain ⟨hagain, -⟩ := List.cons_prefix_cons.mp hlong
              rw [List.cons_append] at hoverlap
              obtain ⟨-, hothers⟩ := List.cons.inj hoverlap
              apply hfirst
              rw [← hothers, ← hagain]
              exact List.mem_append_right _ List.mem_cons_self

/-- The separator is found in front of the one that was put there, or at it. -/
theorem breakOn?_cases {first : α} {others : List α} (hfirst : first ∉ others) (content rest : List α) :
    (¬ first :: others <:+: content ∧
      breakOn? (first :: others) (content ++ (first :: others ++ rest)) = some (content, rest)) ∨
      ∃ before after, content = before ++ first :: others ++ after ∧
        breakOn? (first :: others) (content ++ (first :: others ++ rest)) =
          some (before, after ++ (first :: others ++ rest)) := by
  by_cases h : first :: others <:+: content
  · right
    exact breakOn?_append_of_infix h
  · exact .inl ⟨h, breakOn?_append hfirst h⟩

end BreakOn

/-! ### One element after the other -/

/-- What holds of an element wherever it holds of those before it holds of each. -/
theorem forall_of_before {α : Type} {p : α → Prop} {l : List α}
    (h : ∀ before x after, l = before ++ x :: after → (∀ y ∈ before, p y) → p x) : ∀ x ∈ l, p x := by
  induction l using List.reverseRecOn with
  | nil =>
      intro x hx
      cases hx
  | append_singleton init last ih =>
      have hinit : ∀ x ∈ init, p x := by
        apply ih
        intro before x after hsplit hbefore
        apply h before x (after ++ [last]) _ hbefore
        rw [hsplit, List.append_assoc]
        rfl
      intro x hx
      obtain hx | hx := List.mem_append.mp hx
      · exact hinit x hx
      · rw [List.mem_singleton.mp hx]
        exact h init last [] rfl hinit

/-- Induction on the length of a list, with its first element apart. -/
@[elab_as_elim]
theorem length_induction {α : Type} {motive : List α → Prop} (nil : motive [])
    (cons : ∀ x rest, (∀ shorter : List α, shorter.length < (x :: rest).length → motive shorter) →
      motive (x :: rest))
    (l : List α) : motive l := by
  have hall : ∀ n, ∀ l : List α, l.length < n → motive l := by
    intro n
    induction n with
    | zero =>
        intro l hl
        cases hl
    | succ n ih =>
        intro l hl
        cases l with
        | nil => exact nil
        | cons x rest =>
            apply cons
            intro shorter hshorter
            apply ih
            omega
  exact hall (l.length + 1) l (Nat.lt_succ_self _)

/-! ### Changing one element -/

/-- What does not change the element changes nothing. -/
theorem modify_of_fixed {α : Type} {l : List α} {i : Nat} {f : α → α}
    (h : ∀ x, l[i]? = some x → f x = x) : l.modify i f = l := by
  apply List.ext_getElem?
  intro j
  rw [List.getElem?_modify]
  by_cases heq : i = j
  · subst heq
    cases hx : l[i]? with
    | none => rfl
    | some x => simp [h x hx]
  · simp [heq]

theorem modify_concat {α : Type} (l : List α) (x : α) (f : α → α) :
    (l ++ [x]).modify l.length f = l ++ [f x] := by
  induction l with
  | nil => rfl
  | cons y rest ih =>
      rw [List.cons_append, List.length_cons, List.modify_succ_cons, ih]
      rfl

/-! ### Checks -/

theorem bind_eq_ok_iff {α β ε : Type} {x : Except ε α} {f : α → Except ε β} {b : β} :
    x >>= f = .ok b ↔ ∃ a, x = .ok a ∧ f a = .ok b := by
  cases x with
  | error e =>
      constructor
      · intro h
        cases h
      · intro ⟨_, h, _⟩
        cases h
  | ok a =>
      constructor
      · intro h
        exact ⟨a, rfl, h⟩
      · intro ⟨_, heq, h⟩
        cases heq
        exact h

/-- A check, and then `x`. -/
theorem guard_eq_ok_iff {α ε : Type} {refused : Bool} {e : ε} {x : Except ε α} {y : α} :
    (if refused then .error e else x) = .ok y ↔ refused = false ∧ x = .ok y := by
  cases refused <;> simp

/-- What is done for each element succeeds as a whole where it does for each. -/
theorem mapM_ok_iff {α β ε : Type} {f : α → Except ε β} {l : List α} :
    (∃ ys, l.mapM f = .ok ys) ↔ ∀ x ∈ l, ∃ y, f x = .ok y := by
  induction l with
  | nil =>
      constructor
      · intro _ x hx
        cases hx
      · intro _
        exact ⟨[], rfl⟩
  | cons x rest ih =>
      rw [List.forall_mem_cons, ← ih, List.mapM_cons]
      simp only [bind_eq_ok_iff]
      constructor
      · intro ⟨_, y, hy, ys, hys, _⟩
        exact ⟨⟨y, hy⟩, ys, hys⟩
      · intro ⟨⟨y, hy⟩, ys, hys⟩
        exact ⟨y :: ys, y, hy, ys, hys, rfl⟩

/-- What is computed for each element, where the result is known. -/
theorem mapM_eq_map {α β ε : Type} {f : α → Except ε β} {g : α → β} (h : ∀ x y, f x = .ok y → y = g x)
    {l : List α} {ys : List β} (hmap : l.mapM f = .ok ys) : ys = l.map g := by
  induction l generalizing ys with
  | nil =>
      cases hmap
      rfl
  | cons x rest ih =>
      rw [List.mapM_cons] at hmap
      obtain ⟨y, hy, hmap⟩ := bind_eq_ok_iff.mp hmap
      obtain ⟨others, hothers, hmap⟩ := bind_eq_ok_iff.mp hmap
      cases hmap
      rw [h x y hy, ih hothers]
      rfl

/-- The results of the first elements, where they are known, and then those of the others. -/
theorem mapM_map_append {α β γ : Type} {f : α → Option β} {k : γ → α} {g : γ → β} {l : List γ}
    (h : ∀ x ∈ l, f (k x) = some (g x)) (rest : List α) :
    (l.map k ++ rest).mapM f = (rest.mapM f).map (l.map g ++ ·) := by
  induction l with
  | nil => exact Option.map_id'.symm
  | cons x l ih =>
      rw [List.map_cons, List.cons_append, List.mapM_cons, h x List.mem_cons_self,
        ih fun y hy => h y (List.mem_cons_of_mem x hy)]
      cases rest.mapM f with
      | none => rfl
      | some ys => rfl

theorem exists_of_mapM_cons {α β : Type} {f : α → Option β} {x : α} {rest : List α} {ys : List β}
    (h : (x :: rest).mapM f = some ys) : ∃ y others, f x = some y ∧ ys = y :: others := by
  rw [List.mapM_cons] at h
  obtain ⟨y, hy, h⟩ := Option.bind_eq_some_iff.mp h
  obtain ⟨others, -, h⟩ := Option.bind_eq_some_iff.mp h
  cases h
  exact ⟨y, others, hy, rfl⟩

end BookHub
