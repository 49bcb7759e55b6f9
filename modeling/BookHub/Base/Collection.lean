import Mathlib.Data.List.Nodup

/-!
# Collections with a unique index

A document collection with a unique index on one key. The structure carries what the index
guarantees, so a write is a function of what the collection holds under the key it names: each lemma
below says what one write does to `find?`, under that key and under every other.
-/

namespace BookHub

/-- In a list without a repeated key, what is found under a key is the one entry that has it. -/
theorem find?_key_eq_some {δ κ : Type} [DecidableEq κ] {key : δ → κ} {docs : List δ}
    (hnodup : (docs.map key).Nodup) {k : κ} {d : δ} :
    docs.find? (fun d => key d == k) = some d ↔ d ∈ docs ∧ key d = k := by
  constructor
  · intro h
    exact ⟨List.mem_of_find?_eq_some h, by simpa using List.find?_some h⟩
  · rintro ⟨hd, rfl⟩
    cases hfind : docs.find? fun d' => key d' == key d with
    | none => exact absurd (List.find?_eq_none.mp hfind d hd) (by simp)
    | some d' =>
        have hkey : key d' = key d := by simpa using List.find?_some hfind
        rw [List.inj_on_of_nodup_map hnodup (List.mem_of_find?_eq_some hfind) hd hkey]

/-- The documents of a collection, in insertion order, with a unique index on `key`. -/
structure Collection {δ κ : Type} (key : δ → κ) where
  docs : List δ
  nodup : (docs.map key).Nodup

namespace Collection

variable {δ κ : Type} [DecidableEq κ] {key : δ → κ} (c : Collection key)

def empty : Collection key := ⟨[], .nil⟩

def find? (k : κ) : Option δ := c.docs.find? fun d => key d == k

/-- The keys of the documents. -/
def keys : List κ := c.docs.map key

/-- `InsertOne`; `none` is the duplicate key error. -/
def insertOne (d : δ) : Option (Collection key) :=
  if h : key d ∈ c.docs.map key then none
  else some ⟨c.docs ++ [d], by simpa [List.nodup_append, c.nodup] using h⟩

/-- `UpdateOne` with `upsert` and `$setOnInsert`, filtered by the key of `d`: it inserts `d` when
nothing matches, and writes nothing otherwise. -/
def upsertOne (d : δ) : Collection key := (c.insertOne d).getD c

/-- Write a document in the place of the one that has its key, if there is one. -/
def put (d : δ) : Collection key where
  docs := (c.docs.filter fun d' => key d' != key d) ++ [d]
  nodup := by
    rw [List.map_append, List.nodup_append]
    refine ⟨c.nodup.sublist (List.filter_sublist.map key), by simp, ?_⟩
    rintro k hk _ hk' rfl
    obtain ⟨d', hd', rfl⟩ := List.mem_map.mp hk
    simp [List.mem_singleton.mp hk'] at hd'

/-- The documents put one after the other. -/
def ofList (docs : List δ) : Collection key := docs.foldl put empty

/-- `DeleteOne`: the first document that matches is removed. -/
def deleteOne (filter : δ → Bool) : Collection key :=
  ⟨c.docs.eraseP filter, c.nodup.sublist (List.eraseP_sublist.map key)⟩

section Lemmas

variable {c}

theorem find?_eq_some {k : κ} {d : δ} : c.find? k = some d ↔ d ∈ c.docs ∧ key d = k :=
  find?_key_eq_some c.nodup

theorem find?_eq_none {k : κ} : c.find? k = none ↔ ∀ d ∈ c.docs, key d ≠ k := by
  simp [find?, List.find?_eq_none]

theorem mem_docs_iff {d : δ} : d ∈ c.docs ↔ c.find? (key d) = some d := by
  simp [find?_eq_some]

/-- Under a key there is the document that is found, and no other. -/
theorem filter_key_eq (k : κ) : c.docs.filter (fun d => key d == k) = (c.find? k).toList := by
  have hnodup : (c.docs.filter fun d => key d == k).Nodup :=
    (List.Nodup.of_map key c.nodup).sublist List.filter_sublist
  cases hfind : c.find? k with
  | none =>
      simp only [Option.toList_none, List.filter_eq_nil_iff, beq_iff_eq]
      exact find?_eq_none.mp hfind
  | some d =>
      obtain ⟨hd, hkey⟩ := find?_eq_some.mp hfind
      have hall : ∀ d' ∈ c.docs.filter (fun d => key d == k), d' = d := by
        intro d' hd'
        obtain ⟨hmem, hkey'⟩ := List.mem_filter.mp hd'
        exact List.inj_on_of_nodup_map c.nodup hmem hd ((beq_iff_eq.mp hkey').trans hkey.symm)
      have hmem : d ∈ c.docs.filter fun d => key d == k := by simp [hd, hkey]
      have hlength := List.eq_replicate_of_mem hall
      rw [hlength, List.nodup_replicate] at hnodup
      have hpos := List.length_pos_of_mem hmem
      have hone : (c.docs.filter fun d => key d == k).length = 1 := by omega
      rw [hlength, hone]
      rfl

theorem mem_keys {k : κ} : k ∈ c.keys ↔ ∃ d, c.find? k = some d := by
  simp [keys, find?_eq_some]

/-- Each key has exactly one document. -/
theorem length_filter_of_mem_keys {k : κ} (h : k ∈ c.keys) :
    (c.docs.filter fun d => key d == k).length = 1 := by
  obtain ⟨d, hd⟩ := mem_keys.mp h
  rw [filter_key_eq, hd]
  rfl

theorem insertOne_of_some {d d' : δ} (h : c.find? (key d) = some d') : c.insertOne d = none := by
  obtain ⟨hd', hkey⟩ := find?_eq_some.mp h
  exact dif_pos (hkey ▸ List.mem_map_of_mem hd')

theorem insertOne_of_none {d : δ} (h : c.find? (key d) = none) :
    ∃ c', c.insertOne d = some c' ∧
      ∀ k, c'.find? k = if k = key d then some d else c.find? k := by
  have hfresh : key d ∉ c.docs.map key := by
    rw [List.mem_map]
    rintro ⟨d', hd', hkey⟩
    exact find?_eq_none.mp h d' hd' hkey
  refine ⟨_, dif_neg hfresh, fun k => ?_⟩
  simp only [find?, List.find?_append]
  by_cases hk : k = key d
  · subst hk
    rw [show c.docs.find? (fun d' => key d' == key d) = none from h]
    simp
  · have hne : (key d == k) = false := by simpa using Ne.symm hk
    simp [hk, hne]

/-- What an upsert leaves under a key. -/
theorem find?_upsertOne (d : δ) (k : κ) :
    (c.upsertOne d).find? k = if k = key d then some ((c.find? k).getD d) else c.find? k := by
  cases h : c.find? (key d) with
  | none =>
      obtain ⟨c', hinsert, hfind⟩ := insertOne_of_none h
      simp only [upsertOne, hinsert, Option.getD_some, hfind]
      split
      · rename_i hk
        rw [hk, h]
        rfl
      · rfl
  | some d' =>
      simp only [upsertOne, insertOne_of_some h, Option.getD_none]
      split
      · rename_i hk
        rw [hk, h]
        rfl
      · rfl

theorem mem_keys_upsertOne {d : δ} {k : κ} :
    k ∈ (c.upsertOne d).keys ↔ k ∈ c.keys ∨ k = key d := by
  rw [mem_keys, mem_keys, find?_upsertOne]
  by_cases hk : k = key d
  · rw [if_pos hk]
    exact ⟨fun _ => .inr hk, fun _ => ⟨_, rfl⟩⟩
  · rw [if_neg hk]
    exact (or_iff_left hk).symm

/-- An upsert keeps every document. -/
theorem mem_upsertOne_of_mem {d d' : δ} (h : d' ∈ c.docs) : d' ∈ (c.upsertOne d).docs := by
  rw [mem_docs_iff] at h
  rw [mem_docs_iff, find?_upsertOne, h]
  split <;> rfl

theorem mem_put {d d' : δ} : d' ∈ (c.put d).docs ↔ d' ∈ c.docs ∧ key d' ≠ key d ∨ d' = d := by
  simp [put]

/-- What a write leaves under a key. -/
theorem find?_put (d : δ) (k : κ) :
    (c.put d).find? k = if k = key d then some d else c.find? k := by
  ext d'
  rw [find?_eq_some, mem_put]
  by_cases hk : k = key d
  · rw [if_pos hk, Option.some_inj]
    constructor
    · rintro ⟨⟨-, hne⟩ | hd', hkey⟩
      · exact absurd (hkey.trans hk) hne
      · exact hd'.symm
    · rintro rfl
      exact ⟨.inr rfl, hk.symm⟩
  · rw [if_neg hk, find?_eq_some]
    constructor
    · rintro ⟨⟨hd', -⟩ | rfl, hkey⟩
      · exact ⟨hd', hkey⟩
      · exact absurd hkey.symm hk
    · rintro ⟨hd', hkey⟩
      exact ⟨.inl ⟨hd', fun hsame => hk (hkey.symm.trans hsame)⟩, hkey⟩

theorem mem_keys_put {d : δ} {k : κ} : k ∈ (c.put d).keys ↔ k ∈ c.keys ∨ k = key d := by
  rw [mem_keys, mem_keys, find?_put]
  by_cases hk : k = key d
  · simp [hk]
  · simp [hk]

/-- Documents with distinct new keys are added at the end, in their order. -/
theorem docs_foldl_put {docs : List δ} (hnodup : (docs.map key).Nodup)
    (hfresh : ∀ d ∈ docs, key d ∉ c.keys) : (docs.foldl put c).docs = c.docs ++ docs := by
  induction docs generalizing c with
  | nil => exact (List.append_nil _).symm
  | cons d rest ih =>
      rw [List.map_cons, List.nodup_cons] at hnodup
      have hput : (c.put d).docs = c.docs ++ [d] := by
        show (c.docs.filter fun d' => key d' != key d) ++ [d] = _
        rw [List.filter_eq_self.mpr]
        intro d' hd'
        simp only [bne_iff_ne, ne_eq]
        intro heq
        exact hfresh d List.mem_cons_self (heq ▸ List.mem_map_of_mem hd')
      rw [List.foldl_cons, ih hnodup.2, hput, List.append_assoc]
      · rfl
      · intro d' hd'
        rw [mem_keys_put, not_or]
        refine ⟨hfresh d' (List.mem_cons_of_mem d hd'), ?_⟩
        intro heq
        exact hnodup.1 (heq ▸ List.mem_map_of_mem hd')

theorem docs_ofList {docs : List δ} (hnodup : (docs.map key).Nodup) :
    (ofList docs : Collection key).docs = docs := by
  rw [ofList, docs_foldl_put hnodup]
  · rfl
  · intro d _ hmem
    cases hmem

omit [DecidableEq κ] in
theorem mem_deleteOne {filter : δ → Bool} {k : κ} (hfilter : ∀ d, filter d = true → key d = k)
    {d : δ} : d ∈ (c.deleteOne filter).docs ↔ d ∈ c.docs ∧ filter d = false := by
  constructor
  · intro hd
    refine ⟨List.mem_of_mem_eraseP hd, ?_⟩
    by_contra hmatch
    rw [Bool.not_eq_false] at hmatch
    obtain ⟨d', front, back, hfront, hmatch', hdocs, herase⟩ :=
      List.exists_of_eraseP (List.mem_of_mem_eraseP hd) hmatch
    have hnodup := c.nodup
    rw [hdocs, List.map_append, List.map_cons, List.nodup_middle, List.nodup_cons,
      ← List.map_append] at hnodup
    -- a second match would repeat the key
    refine hnodup.1 (List.mem_map.mpr ⟨d, ?_, (hfilter d hmatch).trans (hfilter d' hmatch').symm⟩)
    rw [← herase]
    exact hd
  · rintro ⟨hd, hmatch⟩
    exact (List.mem_eraseP_of_neg (by simp [hmatch])).mpr hd

/-- What a delete leaves under a key, when what matches has one key. -/
theorem find?_deleteOne {filter : δ → Bool} {k : κ} (hfilter : ∀ d, filter d = true → key d = k)
    (k' : κ) : (c.deleteOne filter).find? k' = (c.find? k').filter fun d => !filter d := by
  ext d
  rw [Option.filter_eq_some_iff, find?_eq_some, find?_eq_some, mem_deleteOne hfilter,
    Bool.not_eq_true']
  exact and_right_comm

theorem find?_deleteOne_of_ne {filter : δ → Bool} {k k' : κ}
    (hfilter : ∀ d, filter d = true → key d = k) (hne : k' ≠ k) :
    (c.deleteOne filter).find? k' = c.find? k' := by
  rw [find?_deleteOne hfilter]
  cases hfind : c.find? k' with
  | none => rfl
  | some d =>
      have hmiss : filter d = false := by
        rw [← Bool.not_eq_true]
        intro hmatch
        exact hne ((find?_eq_some.mp hfind).2.symm.trans (hfilter d hmatch))
      simp [hmiss]

theorem find?_deleteOne_key (k k' : κ) :
    (c.deleteOne fun d => key d == k).find? k' = if k' = k then none else c.find? k' := by
  split
  · rename_i hk
    rw [find?_deleteOne (k := k) (by simp), Option.filter_eq_none_iff]
    intro d hd
    simp [(find?_eq_some.mp hd).2, hk]
  · rename_i hk
    exact find?_deleteOne_of_ne (by simp) hk

end Lemmas

end Collection

end BookHub
