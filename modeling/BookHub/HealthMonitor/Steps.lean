import BookHub.HealthMonitor.Heartbeats

/-!
# Heartbeats and recalculations one after the other

A handler that runs alone puts one record, or nothing when it raises. A recalculation that runs alone
leaves under each id the record that was there with the status of its timestamp; whether it raises
depends on the entries of its snapshot alone.
-/

namespace BookHub.HealthMonitor

open Elixir

/-! ### A heartbeat -/

/-- A heartbeat handled alone. -/
def heartbeatStep (jason : String → Option Term) (table : HeartbeatTable) (data : String) :
    Except Raise Unit × HeartbeatTable :=
  (handleMessage jason data).eval exec (fun _ => []) table

/-- The table once a record that came in is merged into it. -/
def store (table : HeartbeatTable) (structured : ServiceStatus) : HeartbeatTable :=
  table.put (structured.serviceId,
    merge ((HeartbeatTable.lookup table structured.serviceId).getD defaultMessage) structured)

theorem heartbeatStep_of_ok {jason : String → Option Term} {data : String} {decoded : Term}
    {structured : ServiceStatus} (hdecoded : jason data = some decoded)
    (hstructured : structuredMessage decoded = .ok structured) (table : HeartbeatTable) :
    heartbeatStep jason table data = (.ok (), store table structured) := by
  simp only [heartbeatStep, handleMessage, hdecoded, hstructured]
  rfl

theorem heartbeatStep_of_error {jason : String → Option Term} {data : String} {decoded : Term}
    {err : Raise} (hdecoded : jason data = some decoded)
    (hstructured : structuredMessage decoded = .error err) (table : HeartbeatTable) :
    heartbeatStep jason table data = (.error err, table) := by
  simp only [heartbeatStep, handleMessage, hdecoded, hstructured]
  rfl

theorem heartbeatStep_of_none {jason : String → Option Term} {data : String}
    (hdecoded : jason data = none) (table : HeartbeatTable) :
    heartbeatStep jason table data = (.ok (), table) := by
  simp only [heartbeatStep, handleMessage, hdecoded]
  rfl

/-- What holds of the table before a heartbeat holds after it exactly where the record that it brings, if
it brings one, can be stored. -/
theorem heartbeatStep_iff {jason : String → Option Term} {table : HeartbeatTable} {data : String}
    {inv : HeartbeatTable → Prop} {cond : ServiceStatus → Prop} (h : inv table)
    (hstore : ∀ structured, inv (store table structured) ↔ cond structured) :
    inv (heartbeatStep jason table data).2 ↔
      ∀ decoded structured, jason data = some decoded → structuredMessage decoded = .ok structured →
        cond structured := by
  cases hdecoded : jason data with
  | none =>
      rw [heartbeatStep_of_none hdecoded]
      refine iff_of_true h ?_
      intro decoded structured hdecoded'
      cases hdecoded'
  | some decoded =>
      cases hstructured : structuredMessage decoded with
      | error err =>
          rw [heartbeatStep_of_error hdecoded hstructured]
          refine iff_of_true h ?_
          intro decoded' structured hdecoded' hstructured'
          cases hdecoded'
          cases hstructured.symm.trans hstructured'
      | ok structured =>
          rw [heartbeatStep_of_ok hdecoded hstructured, hstore]
          constructor
          · intro hcond decoded' structured' hdecoded' hstructured'
            cases hdecoded'
            cases hstructured.symm.trans hstructured'
            exact hcond
          · intro hcond
            exact hcond decoded structured rfl hstructured

theorem lookup_put (table : HeartbeatTable) (entry : HeartbeatEntry) (id : Term) :
    HeartbeatTable.lookup (table.put entry) id =
      if id = entry.1 then some entry.2 else HeartbeatTable.lookup table id := by
  unfold HeartbeatTable.lookup
  rw [Collection.find?_put]
  split <;> rfl

/-! ### A recalculation -/

/-- A recalculation that runs alone. -/
def passStep (table : HeartbeatTable) (now : DateTime) (order : List HeartbeatEntry) :
    Except Raise Unit × HeartbeatTable :=
  (recalculateAllStatuses now).eval exec (fun _ => order) table

/-- The record with the status of its timestamp. -/
def reclassify (now : DateTime) (state : ServiceStatus) : ServiceStatus :=
  match state.timestamp with
  | .dateTime dt => { state with status := some (newStatus (now.diff dt)) }
  | .min => state

theorem reclassify_of_dateTime {state : ServiceStatus} {dt : DateTime} (now : DateTime)
    (h : state.timestamp = .dateTime dt) :
    reclassify now state = { state with status := some (newStatus (now.diff dt)) } := by
  unfold reclassify
  rw [h]

/-- The recalculation of this entry does not raise. -/
def Recalculates (now : DateTime) (entry : HeartbeatEntry) : Prop :=
  ∃ dt, entry.2.timestamp = .dateTime dt ∧
    (some (newStatus (now.diff dt)) = entry.2.status ∨ entry.1.text?.isSome)

theorem interpolate_isSome {term : Term} (h : term.text?.isSome) :
    ∃ line, interpolate term = .ok line := by
  obtain ⟨text, htext⟩ := Option.isSome_iff_exists.mp h
  refine ⟨text, ?_⟩
  rw [interpolate, htext]

theorem interpolate_not_isSome {term : Term} (h : ¬ term.text?.isSome) :
    interpolate term = .error .toString := by
  rw [interpolate, Option.not_isSome_iff_eq_none.mp h]

section Entry

variable {now : DateTime} {entry : HeartbeatEntry} (order : List HeartbeatEntry)
  (table : HeartbeatTable)

theorem eval_recalculateStatus_of_ok (h : Recalculates now entry) :
    ∃ table', (recalculateStatus now entry).eval exec (fun _ => order) table = (.ok (), table') ∧
      (table' = table.put (entry.1, reclassify now entry.2) ∨
        table' = table ∧ reclassify now entry.2 = entry.2) := by
  obtain ⟨dt, hdt, hline⟩ := h
  have hdiff : entry.2.timestamp.diff now = .ok (now.diff dt) := by
    rw [hdt]
    rfl
  have hnew := reclassify_of_dateTime now hdt
  simp only [recalculateStatus, hdiff, Coroutine.ok_bind]
  by_cases hsame : some (newStatus (now.diff dt)) = entry.2.status
  · refine ⟨table, by rw [if_pos hsame]; rfl, .inr ⟨rfl, ?_⟩⟩
    rw [hnew, hsame]
  · obtain ⟨line, hline⟩ := interpolate_isSome (hline.resolve_left hsame)
    rw [if_neg hsame, hline]
    refine ⟨_, rfl, .inl ?_⟩
    rw [hnew]
    rfl

theorem eval_recalculateStatus_of_not (h : ¬ Recalculates now entry) :
    ∃ err, (recalculateStatus now entry).eval exec (fun _ => order) table = (.error err, table) := by
  cases hts : entry.2.timestamp with
  | min =>
      have hdiff : entry.2.timestamp.diff now = .error .diff := by
        rw [hts]
        rfl
      refine ⟨.diff, ?_⟩
      simp only [recalculateStatus, hdiff, Coroutine.error_bind, Coroutine.eval_done]
  | dateTime dt =>
      have hdiff : entry.2.timestamp.diff now = .ok (now.diff dt) := by
        rw [hts]
        rfl
      have hchanged : ¬ some (newStatus (now.diff dt)) = entry.2.status :=
        fun hsame => h ⟨dt, hts, .inl hsame⟩
      have hline : interpolate entry.1 = .error .toString :=
        interpolate_not_isSome fun hsome => h ⟨dt, hts, .inr hsome⟩
      refine ⟨.toString, ?_⟩
      simp only [recalculateStatus, hdiff, hline, Coroutine.ok_bind, if_neg hchanged,
        Coroutine.error_bind, Coroutine.eval_done]

end Entry

/-- The entries are gone through to the end exactly when none of them raises. -/
theorem recalculateEach_ok_iff (now : DateTime) (entries order : List HeartbeatEntry)
    (table : HeartbeatTable) :
    ((recalculateEach now entries).eval exec (fun _ => order) table).1 = .ok () ↔
      ∀ entry ∈ entries, Recalculates now entry := by
  induction entries generalizing table with
  | nil => simp [recalculateEach]
  | cons entry rest ih =>
      rw [recalculateEach, Coroutine.eval_bind_const, List.forall_mem_cons]
      by_cases h : Recalculates now entry
      · obtain ⟨table', heval, -⟩ := eval_recalculateStatus_of_ok order table h
        rw [heval]
        simp only [ih, h, true_and]
      · obtain ⟨err, heval⟩ := eval_recalculateStatus_of_not order table h
        rw [heval]
        simp [h]

/-- What going through the entries leaves under an id, when the table holds them. -/
theorem lookup_recalculateEach {now : DateTime} {entries order : List HeartbeatEntry}
    {table : HeartbeatTable} (hok : ∀ entry ∈ entries, Recalculates now entry)
    (hnodup : (entries.map Prod.fst).Nodup)
    (htable : ∀ entry ∈ entries, HeartbeatTable.lookup table entry.1 = some entry.2) (id : Term) :
    HeartbeatTable.lookup ((recalculateEach now entries).eval exec (fun _ => order) table).2 id =
      if id ∈ entries.map Prod.fst then (HeartbeatTable.lookup table id).map (reclassify now)
      else HeartbeatTable.lookup table id := by
  induction entries generalizing table with
  | nil => rfl
  | cons entry rest ih =>
      rw [List.forall_mem_cons] at hok htable
      rw [List.map_cons, List.nodup_cons] at hnodup
      obtain ⟨table', heval, htable'⟩ := eval_recalculateStatus_of_ok order table hok.1
      have hlookup : ∀ id, HeartbeatTable.lookup table' id =
          if id = entry.1 then some (reclassify now entry.2) else HeartbeatTable.lookup table id := by
        intro id
        obtain rfl | ⟨rfl, hsame⟩ := htable'
        · exact lookup_put table _ id
        · by_cases hid : id = entry.1
          · rw [if_pos hid, hid, hsame, htable.1]
          · rw [if_neg hid]
      have hrest : ∀ other ∈ rest, HeartbeatTable.lookup table' other.1 = some other.2 := by
        intro other hother
        have hne : other.1 ≠ entry.1 := by
          intro heq
          exact hnodup.1 (heq ▸ List.mem_map_of_mem hother)
        rw [hlookup, if_neg hne, htable.2 other hother]
      rw [recalculateEach, Coroutine.eval_bind_const, heval, ih hok.2 hnodup.2 hrest, hlookup]
      by_cases hid : id = entry.1
      · subst hid
        rw [if_neg hnodup.1, if_pos rfl, if_pos (by simp), htable.1]
        rfl
      · have hmem : id ∈ (entry :: rest).map Prod.fst ↔ id ∈ rest.map Prod.fst := by
          rw [List.map_cons, List.mem_cons]
          exact or_iff_right hid
        simp only [hmem, if_neg hid]

theorem tab2list_perm (table : HeartbeatTable) (order : List HeartbeatEntry) :
    (HeartbeatTable.tab2list table order).Perm table.docs := by
  unfold HeartbeatTable.tab2list
  split
  · assumption
  · exact .refl _

theorem passStep_eq (table : HeartbeatTable) (now : DateTime) (order : List HeartbeatEntry) :
    passStep table now order =
      (recalculateEach now (HeartbeatTable.tab2list table order)).eval exec (fun _ => order) table :=
  rfl

/-- A recalculation raises exactly when one of the entries of the table does. -/
theorem passStep_ok_iff (table : HeartbeatTable) (now : DateTime) (order : List HeartbeatEntry) :
    (passStep table now order).1 = .ok () ↔ ∀ entry ∈ table.docs, Recalculates now entry := by
  rw [passStep_eq, recalculateEach_ok_iff]
  simp only [(tab2list_perm table order).mem_iff]

theorem mem_docs_iff_lookup {table : HeartbeatTable} {entry : HeartbeatEntry} :
    entry ∈ table.docs ↔ HeartbeatTable.lookup table entry.1 = some entry.2 := by
  rw [Collection.mem_docs_iff, HeartbeatTable.lookup, Option.map_eq_some_iff]
  constructor
  · intro h
    exact ⟨entry, h, rfl⟩
  · intro h
    obtain ⟨found, hfound, hstate⟩ := h
    have hid := (Collection.find?_eq_some.mp hfound).2
    rw [hfound, Prod.ext hid hstate]

/-- A recalculation that does not raise gives each record the status of its timestamp. -/
theorem lookup_passStep {table : HeartbeatTable} {now : DateTime}
    (hok : ∀ entry ∈ table.docs, Recalculates now entry) (order : List HeartbeatEntry) (id : Term) :
    HeartbeatTable.lookup (passStep table now order).2 id =
      (HeartbeatTable.lookup table id).map (reclassify now) := by
  have hperm := tab2list_perm table order
  rw [passStep_eq, lookup_recalculateEach]
  · by_cases hid : id ∈ (HeartbeatTable.tab2list table order).map Prod.fst
    · rw [if_pos hid]
    · have hnone : HeartbeatTable.lookup table id = none := by
        rw [HeartbeatTable.lookup, Option.map_eq_none_iff, Collection.find?_eq_none]
        intro entry hentry heq
        exact hid (List.mem_map.mpr ⟨entry, hperm.mem_iff.mpr hentry, heq⟩)
      rw [if_neg hid, hnone, Option.map_none]
  · intro entry hentry
    exact hok entry (hperm.mem_iff.mp hentry)
  · exact (hperm.map Prod.fst).nodup_iff.mpr table.nodup
  · intro entry hentry
    exact mem_docs_iff_lookup.mp (hperm.mem_iff.mp hentry)

end BookHub.HealthMonitor
