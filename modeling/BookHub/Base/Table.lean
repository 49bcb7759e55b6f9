import BookHub.Base.Collection
import Mathlib.Algebra.Group.Int.Defs
import Mathlib.Algebra.Group.Nat.Defs
import Mathlib.Data.List.Nodup
import Mathlib.Data.List.Perm.Lattice

/-!
# Tables with a serial primary key

A relational table whose primary key is drawn from a sequence. The structure carries what the
database guarantees: keys are distinct, and every key in use was drawn from the sequence before. A key
that was drawn is not given back. A 32-bit sequence runs out at `2 ^ 31`; `insert` asks for the room,
so a key is always in range.
-/

namespace BookHub

/-- The rows of a table, in insertion order, and the next value of its sequence. -/
structure Table {ρ : Type} (key : ρ → Nat) where
  rows : List ρ
  nextId : Nat
  nodup : (rows.map key).Nodup
  fresh : ∀ r ∈ rows, key r < nextId
  bounded : nextId ≤ 2 ^ 31

namespace Table

variable {ρ : Type} {key : ρ → Nat} (t : Table key)

/-- A table that has never had a row; a serial column starts at 1. -/
def empty : Table key := ⟨[], 1, by simp, by simp, by decide⟩

def find? (k : Nat) : Option ρ := t.rows.find? fun r => key r == k

/-- `INSERT` with the next value of the sequence. -/
def insert (make : Nat → ρ) (hkey : ∀ n, key (make n) = n) (hroom : t.nextId < 2 ^ 31) :
    Table key where
  rows := t.rows ++ [make t.nextId]
  nextId := t.nextId + 1
  nodup := by
    rw [List.map_append, List.nodup_append]
    refine ⟨t.nodup, by simp, ?_⟩
    rintro _ ha _ hb rfl
    obtain ⟨r, hr, rfl⟩ := List.mem_map.mp ha
    rw [List.map_singleton, List.mem_singleton, hkey] at hb
    exact Nat.ne_of_lt (t.fresh r hr) hb
  fresh := by
    intro r hr
    obtain hr | hr := List.mem_append.mp hr
    · exact Nat.lt_succ_of_lt (t.fresh r hr)
    · rw [List.mem_singleton.mp hr, hkey]
      exact Nat.lt_succ_self _
  bounded := hroom

/-- An `INSERT` that fails after it has drawn its key: the key is never used. -/
def skip (hroom : t.nextId < 2 ^ 31) : Table key where
  rows := t.rows
  nextId := t.nextId + 1
  nodup := t.nodup
  fresh r hr := Nat.lt_succ_of_lt (t.fresh r hr)
  bounded := hroom

/-- `UPDATE .. WHERE key = k`. -/
def modify (k : Nat) (f : ρ → ρ) (hkey : ∀ r, key (f r) = key r) : Table key where
  rows := t.rows.map fun r => if key r = k then f r else r
  nextId := t.nextId
  nodup := by
    have hmap : (key ∘ fun r => if key r = k then f r else r) = key := by
      funext r
      simp only [Function.comp_apply]
      split
      · exact hkey r
      · rfl
    rw [List.map_map, hmap]
    exact t.nodup
  fresh := by
    intro r hr
    obtain ⟨r₀, hr₀, rfl⟩ := List.mem_map.mp hr
    have hlt := t.fresh r₀ hr₀
    split
    · rw [hkey]
      exact hlt
    · exact hlt
  bounded := t.bounded

/-- `DELETE .. WHERE key = k`. -/
def erase (k : Nat) : Table key where
  rows := t.rows.filter fun r => key r != k
  nextId := t.nextId
  nodup := t.nodup.sublist (List.filter_sublist.map key)
  fresh r hr := t.fresh r (List.mem_of_mem_filter hr)
  bounded := t.bounded

section Lemmas

variable {t}

theorem find?_eq_some {k : Nat} {r : ρ} : t.find? k = some r ↔ r ∈ t.rows ∧ key r = k :=
  find?_key_eq_some t.nodup

theorem mem_rows_unique {r r' : ρ} (hr : r ∈ t.rows) (hr' : r' ∈ t.rows) (h : key r = key r') :
    r = r' :=
  List.inj_on_of_nodup_map t.nodup hr hr' h

theorem mem_insert {make : Nat → ρ} {hkey : ∀ n, key (make n) = n} {hroom : t.nextId < 2 ^ 31}
    {r : ρ} : r ∈ (t.insert make hkey hroom).rows ↔ r ∈ t.rows ∨ r = make t.nextId := by
  simp [insert]

theorem mem_modify {k : Nat} {f : ρ → ρ} {hkey : ∀ r, key (f r) = key r} {r : ρ} :
    r ∈ (t.modify k f hkey).rows ↔
      (r ∈ t.rows ∧ key r ≠ k) ∨ ∃ r₀ ∈ t.rows, key r₀ = k ∧ f r₀ = r := by
  simp only [modify, List.mem_map]
  constructor
  · rintro ⟨r₀, hr₀, rfl⟩
    by_cases hk : key r₀ = k
    · exact .inr ⟨r₀, hr₀, hk, (if_pos hk).symm⟩
    · rw [if_neg hk]
      exact .inl ⟨hr₀, hk⟩
  · rintro (⟨hr, hk⟩ | ⟨r₀, hr₀, hk, rfl⟩)
    · exact ⟨r, hr, if_neg hk⟩
    · exact ⟨r₀, hr₀, if_pos hk⟩

theorem find?_eq_none {k : Nat} : t.find? k = none ↔ ∀ r ∈ t.rows, key r ≠ k := by
  simp [find?, List.find?_eq_none]

theorem find?_modify {k : Nat} {f : ρ → ρ} {hkey : ∀ r, key (f r) = key r} :
    (t.modify k f hkey).find? k = (t.find? k).map f := by
  cases hfind : t.find? k with
  | none =>
      rw [find?_eq_none] at hfind
      rw [Option.map_none, find?_eq_none]
      intro r hr
      obtain ⟨-, hk⟩ | ⟨r₀, hr₀, hk, -⟩ := mem_modify.mp hr
      · exact hk
      · exact absurd hk (hfind r₀ hr₀)
  | some r =>
      obtain ⟨hr, hk⟩ := find?_eq_some.mp hfind
      rw [Option.map_some, find?_eq_some]
      exact ⟨mem_modify.mpr (.inr ⟨r, hr, hk, rfl⟩), (hkey r).trans hk⟩

theorem mem_erase {k : Nat} {r : ρ} : r ∈ (t.erase k).rows ↔ r ∈ t.rows ∧ key r ≠ k := by
  simp [erase]

end Lemmas

end Table

end BookHub
