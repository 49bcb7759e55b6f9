import BookHub.HealthMonitor.Steps

/-!
# What stops a recalculation

A recalculation goes over all services and stops at the first entry it raises on. An entry stops it at
some time when it has no instant as its timestamp, or when its id has no text. Both come into the
table with one heartbeat and stay, so the runs in which every recalculation goes through are those
that handle no such heartbeat: `recalculable_iff`.
-/

namespace BookHub.HealthMonitor

open Elixir

/-- One step of the health monitor, a heartbeat or a recalculation. -/
inductive HealthStep where
  | heartbeat (data : String)
  | pass (now : DateTime) (order : List HeartbeatEntry)
  deriving DecidableEq, Repr

/-- The table under heartbeats and recalculations, one after the other. -/
def monitor (jason : String → Option Term) : Machine HeartbeatTable HealthStep where
  step
    | table, .heartbeat data => some (heartbeatStep jason table data).2
    | table, .pass now order => some (passStep table now order).2

/-- The record has the status of its timestamp. -/
def Classified (now : DateTime) (state : ServiceStatus) : Prop :=
  ∃ dt, state.timestamp = .dateTime dt ∧ state.status = some (newStatus (now.diff dt))

/-- Every timestamp can be compared, and a recalculation at any time and in any order raises nothing,
keeps the services and classifies each of them. -/
structure Recalculable (table : HeartbeatTable) : Prop where
  timestamps : ∀ entry ∈ table.docs, ∃ dt, entry.2.timestamp = .dateTime dt
  passes : ∀ now order, (passStep table now order).1 = .ok ()
  services : ∀ now order id, id ∈ (passStep table now order).2.keys ↔ id ∈ table.keys
  classified : ∀ now order, ∀ entry ∈ (passStep table now order).2.docs, Classified now entry.2

/-- The heartbeat does not decode to a record, or to one with an instant and an id that has a text. -/
def Harmless (jason : String → Option Term) : HealthStep → Prop
  | .heartbeat data => ∀ decoded structured, jason data = some decoded →
      structuredMessage decoded = .ok structured →
      structured.timestamp ≠ .min ∧ structured.serviceId.text?.isSome
  | .pass _ _ => True

/-! ### The entries a recalculation can always go through -/

def Sound (table : HeartbeatTable) : Prop :=
  ∀ entry ∈ table.docs, entry.2.timestamp ≠ .min ∧ entry.1.text?.isSome

theorem exists_dateTime {timestamp : Timestamp} (h : timestamp ≠ .min) :
    ∃ dt, timestamp = .dateTime dt := by
  cases timestamp with
  | dateTime dt => exact ⟨dt, rfl⟩
  | min => exact absurd rfl h

theorem Sound.recalculates {table : HeartbeatTable} (h : Sound table) (now : DateTime) :
    ∀ entry ∈ table.docs, Recalculates now entry := by
  intro entry hentry
  obtain ⟨htimestamp, htext⟩ := h entry hentry
  obtain ⟨dt, hdt⟩ := exists_dateTime htimestamp
  exact ⟨dt, hdt, .inr htext⟩

theorem timestamp_reclassify (now : DateTime) (state : ServiceStatus) :
    (reclassify now state).timestamp = state.timestamp := by
  unfold reclassify
  split <;> rfl

theorem mem_keys_iff_lookup {table : HeartbeatTable} {id : Term} :
    id ∈ table.keys ↔ (HeartbeatTable.lookup table id).isSome := by
  rw [Collection.mem_keys, HeartbeatTable.lookup, Option.isSome_map, Option.isSome_iff_exists]

theorem Sound.recalculable {table : HeartbeatTable} (h : Sound table) : Recalculable table where
  timestamps entry hentry := exists_dateTime (h entry hentry).1
  passes now order := (passStep_ok_iff table now order).mpr (h.recalculates now)
  services now order id := by
    rw [mem_keys_iff_lookup, mem_keys_iff_lookup, lookup_passStep (h.recalculates now),
      Option.isSome_map]
  classified now order entry hentry := by
    rw [mem_docs_iff_lookup, lookup_passStep (h.recalculates now), Option.map_eq_some_iff] at hentry
    obtain ⟨state, hstate, hclassified⟩ := hentry
    have hold : (entry.1, state) ∈ table.docs := mem_docs_iff_lookup.mpr hstate
    obtain ⟨dt, hdt⟩ := exists_dateTime (h _ hold).1
    rw [reclassify_of_dateTime now hdt] at hclassified
    refine ⟨dt, ?_, ?_⟩
    · rw [← hclassified]
      exact hdt
    · rw [← hclassified]

/-- A record without a text for its id stops the recalculation when its status has to change, and it
has to change at one of two times. -/
theorem Recalculable.sound {table : HeartbeatTable} (h : Recalculable table) : Sound table := by
  intro entry hentry
  obtain ⟨dt, hdt⟩ := h.timestamps entry hentry
  have hat : ∀ now : DateTime,
      some (newStatus (now.diff dt)) = entry.2.status ∨ entry.1.text?.isSome := by
    intro now
    obtain ⟨dt', hdt', hpass⟩ := (passStep_ok_iff table now []).mp (h.passes now []) entry hentry
    rw [hdt] at hdt'
    cases hdt'
    exact hpass
  refine ⟨by simp [hdt], ?_⟩
  have hnow : newStatus (dt.diff dt) = .healthy := by
    simp [DateTime.diff, newStatus, healthyTreshold]
  have hlater : newStatus (DateTime.diff ⟨dt.micros + 61000000, 0⟩ dt) = .offline := by
    have hdiff : DateTime.diff ⟨dt.micros + 61000000, 0⟩ dt = 61 := by
      unfold DateTime.diff
      show (dt.micros + 61000000) / 1000000 - dt.micros / 1000000 = 61
      omega
    rw [hdiff]
    decide
  obtain hhealthy | htext := hat dt
  · obtain hoffline | htext := hat ⟨dt.micros + 61000000, 0⟩
    · rw [hnow] at hhealthy
      rw [hlater, ← hhealthy] at hoffline
      cases hoffline
    · exact htext
  · exact htext

theorem sound_iff_recalculable (table : HeartbeatTable) : Sound table ↔ Recalculable table :=
  ⟨Sound.recalculable, Recalculable.sound⟩

/-! ### One step -/

theorem sound_store_iff {table : HeartbeatTable} (h : Sound table) (structured : ServiceStatus) :
    Sound (store table structured) ↔
      structured.timestamp ≠ .min ∧ structured.serviceId.text?.isSome := by
  constructor
  · intro hafter
    exact hafter _ (Collection.mem_put.mpr (.inr rfl))
  · intro hstructured entry hentry
    obtain ⟨hold, -⟩ | rfl := Collection.mem_put.mp hentry
    · exact h entry hold
    · exact hstructured

theorem sound_step (jason : String → Option Term) (table : HeartbeatTable) (step : HealthStep)
    (table' : HeartbeatTable) (h : Sound table) (hstep : (monitor jason).step table step = some table') :
    Sound table' ↔ Harmless jason step := by
  cases step with
  | heartbeat data =>
      cases hstep
      exact heartbeatStep_iff h fun structured => sound_store_iff h structured
  | pass now order =>
      cases hstep
      refine iff_of_true (fun entry hentry => ?_) trivial
      rw [mem_docs_iff_lookup, lookup_passStep (h.recalculates now), Option.map_eq_some_iff] at hentry
      obtain ⟨state, hstate, hentry⟩ := hentry
      rw [← hentry, timestamp_reclassify]
      exact h (entry.1, state) (mem_docs_iff_lookup.mpr hstate)

/-! ### All runs -/

theorem monitor_total (jason : String → Option Term) (table : HeartbeatTable) (step : HealthStep) :
    ((monitor jason).step table step).isSome := by
  cases step <;> rfl

theorem monitor_step_ne_none (jason : String → Option Term) (table : HeartbeatTable)
    (step : HealthStep) : (monitor jason).step table step ≠ none :=
  Option.isSome_iff_ne_none.mp (monitor_total jason table step)

/-- In a run from the empty table every recalculation goes through, whenever it is run, exactly when
every heartbeat of the run is harmless. -/
theorem recalculable_iff (jason : String → Option Term) (steps : List HealthStep) :
    (monitor jason).Always Recalculable .empty steps ↔ ∀ step ∈ steps, Harmless jason step := by
  have hinv : Recalculable = Sound := by
    funext table
    exact propext (sound_iff_recalculable table).symm
  have hempty : Sound .empty := by
    intro entry hentry
    exact absurd hentry List.not_mem_nil
  have hstuck : ∀ table step, (monitor jason).step table step = none → Harmless jason step := by
    intro table step hnone
    exact absurd hnone (monitor_step_ne_none jason table step)
  rw [hinv, Machine.always_iff_meets (sound_step jason) hstuck hempty,
    Machine.meets_label_iff (monitor_total jason)]

/-- A heartbeat of service x that does not say when. -/
def yesterday : String := "\x7b\"serviceId\":\"x\",\"timestamp\":\"yesterday\"\x7d"

def jasonOfYesterday (_data : String) : Option Term :=
  some (.map (.cons "serviceId" (.binary "x") (.cons "timestamp" (.binary "yesterday") .nil)))

/-- One heartbeat whose timestamp does not parse is enough. -/
theorem not_always_recalculable : ¬ ∀ jason steps,
    (monitor jason).Always Recalculable .empty steps := by
  intro h
  have hrun := (h jasonOfYesterday [.heartbeat yesterday]).2 _ rfl
  obtain ⟨dt, hdt⟩ := hrun.timestamps (.binary "x", ⟨.binary "x", .min, some .offline, .nil, .nil⟩)
    (List.mem_singleton.mpr rfl)
  cases hdt

end BookHub.HealthMonitor
