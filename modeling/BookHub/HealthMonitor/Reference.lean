import BookHub.HealthMonitor.Recalculation
import Mathlib.Data.List.Induction

/-!
# What the table of heartbeats is for

The table against its purpose, stated over the history of what happened: which heartbeat of a service
came last, which of its statistics was the last to say something, and what the last recalculation made
of the timestamp it found. The histories of this reference have the latest event first.
-/

namespace BookHub.HealthMonitor

open Elixir

/-- A heartbeat that is a JSON object with a string as its id and an instant as its timestamp. -/
structure Heartbeat (jason : String → Option Term) where
  data : String
  entries : Entries
  decodes : jason data = some (.map entries)
  id : String
  hasId : entries.find? "serviceId" = some (.binary id)
  text : String
  hasTimestamp : entries.find? "timestamp" = some (.binary text)
  timestamp : DateTime
  parses : DateTime.fromIso8601 (.binary text) = .ok (some timestamp)

/-- A heartbeat, with the time at which it is handled, or a recalculation. -/
inductive MonitorEvent (jason : String → Option Term) where
  | heartbeat (handledAt : DateTime) (hb : Heartbeat jason)
  | pass (now : DateTime) (order : List HeartbeatEntry)

variable {jason : String → Option Term}

namespace Heartbeat

def stats (hb : Heartbeat jason) : Term := (hb.entries.find? "stats").getD .nil

def serviceData (hb : Heartbeat jason) : Term := (hb.entries.find? "data").getD .nil

def structured (hb : Heartbeat jason) : ServiceStatus :=
  ⟨.binary hb.id, .dateTime hb.timestamp, none, hb.stats, hb.serviceData⟩

theorem structuredMessage_eq (hb : Heartbeat jason) :
    structuredMessage (.map hb.entries) = .ok hb.structured := by
  have hid : (Term.map hb.entries).access "serviceId" = .ok (.binary hb.id) := by
    rw [Term.access, hb.hasId, Option.getD_some]
  have htimestamp : (Term.map hb.entries).access "timestamp" = .ok (.binary hb.text) := by
    rw [Term.access, hb.hasTimestamp, Option.getD_some]
  unfold structuredMessage
  rw [hid, htimestamp]
  show (DateTime.fromIso8601 (.binary hb.text) >>= fun timestamp => _) = _
  rw [hb.parses]
  rfl

theorem heartbeatStep_eq (hb : Heartbeat jason) (table : HeartbeatTable) :
    (heartbeatStep jason table hb.data).2 = store table hb.structured := by
  rw [heartbeatStep_of_ok hb.decodes hb.structuredMessage_eq]

end Heartbeat

def MonitorEvent.apply (table : HeartbeatTable) : MonitorEvent jason → HeartbeatTable
  | heartbeat _ hb => (heartbeatStep jason table hb.data).2
  | pass now order => (passStep table now order).2

/-- The table after these events, from the empty table. -/
def tableAfter (events : List (MonitorEvent jason)) : HeartbeatTable :=
  events.foldl MonitorEvent.apply .empty

/-! ### The reference -/

namespace Reference

/-- The last heartbeat of a service, with the time at which it was handled. -/
def lastHeartbeat (id : String) : List (MonitorEvent jason) → Option (DateTime × Heartbeat jason)
  | [] => none
  | .heartbeat handledAt hb :: earlier =>
      if hb.id = id then some (handledAt, hb) else lastHeartbeat id earlier
  | .pass _ _ :: earlier => lastHeartbeat id earlier

/-- The last value of a field that a service sent and that is neither missing, null nor false. -/
def lastSent (field : Heartbeat jason → Term) (id : String) : List (MonitorEvent jason) → Term
  | [] => .nil
  | .heartbeat _ hb :: earlier =>
      if hb.id = id ∧ (field hb).truthy then field hb else lastSent field id earlier
  | .pass _ _ :: earlier => lastSent field id earlier

/-- The status by the age of a heartbeat in seconds. -/
def classify (age : Int) : Status :=
  if age ≤ 30 then .healthy else if age ≤ 60 then .stale else .offline

/-- What the last recalculation after the first heartbeat made of the timestamp it found. -/
def status (id : String) : List (MonitorEvent jason) → Status
  | [] => .offline
  | .heartbeat _ _ :: earlier => status id earlier
  | .pass now _ :: earlier =>
      match lastHeartbeat id earlier with
      | some (_, hb) => classify (now.diff hb.timestamp)
      | none => .offline

def record (id : String) (history : List (MonitorEvent jason)) : Option ServiceStatus :=
  (lastHeartbeat id history).map fun last =>
    { serviceId := .binary id
      timestamp := .dateTime last.2.timestamp
      status := some (status id history)
      stats := lastSent Heartbeat.stats id history
      data := lastSent Heartbeat.serviceData id history }

/-- The record under any id of the table. -/
def recordOf (history : List (MonitorEvent jason)) : Term → Option ServiceStatus
  | .binary id => record id history
  | _ => none

section Silent

variable {id : String} {event : MonitorEvent jason} {history : List (MonitorEvent jason)}

theorem lastHeartbeat_tail_none (h : lastHeartbeat id (event :: history) = none) :
    lastHeartbeat id history = none := by
  cases event with
  | heartbeat handledAt hb =>
      rw [lastHeartbeat] at h
      split at h
      · cases h
      · exact h
  | pass now order => exact h

theorem status_of_silent (h : lastHeartbeat id history = none) : status id history = .offline := by
  induction history with
  | nil => rfl
  | cons event earlier ih =>
      have hearlier := lastHeartbeat_tail_none h
      cases event with
      | heartbeat handledAt hb => exact ih hearlier
      | pass now order => rw [status, hearlier]

theorem lastSent_of_silent (field : Heartbeat jason → Term)
    (h : lastHeartbeat id history = none) : lastSent field id history = .nil := by
  induction history with
  | nil => rfl
  | cons event earlier ih =>
      have hearlier := lastHeartbeat_tail_none h
      cases event with
      | heartbeat handledAt hb =>
          have hother : ¬ hb.id = id := by
            intro hid
            rw [lastHeartbeat, if_pos hid] at h
            cases h
          rw [lastSent, if_neg fun hboth => hother hboth.1]
          exact ih hearlier
      | pass now order => exact ih hearlier

end Silent

/-- What the reference keeps of the record before a heartbeat of the same service. -/
theorem existing_record (id : String) (history : List (MonitorEvent jason)) :
    ((record id history).getD defaultMessage).status = some (status id history) ∧
      ((record id history).getD defaultMessage).stats = lastSent Heartbeat.stats id history ∧
      ((record id history).getD defaultMessage).data = lastSent Heartbeat.serviceData id history := by
  unfold record
  cases hlast : lastHeartbeat id history with
  | none =>
      rw [status_of_silent hlast, lastSent_of_silent _ hlast, lastSent_of_silent _ hlast]
      exact ⟨rfl, rfl, rfl⟩
  | some last => exact ⟨rfl, rfl, rfl⟩

theorem lastSent_heartbeat (field : Heartbeat jason → Term) (handledAt : DateTime)
    (hb : Heartbeat jason) (history : List (MonitorEvent jason)) :
    lastSent field hb.id (.heartbeat handledAt hb :: history) =
      (field hb).orElse (lastSent field hb.id history) := by
  rw [lastSent, Term.orElse]
  by_cases htruthy : (field hb).truthy = true
  · rw [if_pos ⟨rfl, htruthy⟩, if_pos htruthy]
  · rw [if_neg fun hboth => htruthy hboth.2, if_neg htruthy]

/-- A heartbeat of a service makes of its record what the merge makes of it. -/
theorem record_heartbeat (handledAt : DateTime) (hb : Heartbeat jason)
    (history : List (MonitorEvent jason)) :
    record hb.id (.heartbeat handledAt hb :: history) =
      some (merge ((record hb.id history).getD defaultMessage) hb.structured) := by
  obtain ⟨hstatus, hstats, hdata⟩ := existing_record hb.id history
  have hlast : lastHeartbeat hb.id (.heartbeat handledAt hb :: history) = some (handledAt, hb) :=
    if_pos rfl
  have hmerge : merge ((record hb.id history).getD defaultMessage) hb.structured =
      { serviceId := .binary hb.id
        timestamp := .dateTime hb.timestamp
        status := ((record hb.id history).getD defaultMessage).status
        stats := hb.stats.orElse ((record hb.id history).getD defaultMessage).stats
        data := hb.serviceData.orElse ((record hb.id history).getD defaultMessage).data } := by
    have hid : (Term.binary hb.id).truthy = true := by simp [Term.truthy, Term.nil]
    simp only [merge, Heartbeat.structured, Term.orElse, hid, if_true]
    rfl
  rw [hmerge, hstatus, hstats, hdata, record, hlast, Option.map_some, lastSent_heartbeat,
    lastSent_heartbeat]
  rfl

theorem recordOf_heartbeat (handledAt : DateTime) (hb : Heartbeat jason)
    (history : List (MonitorEvent jason)) (key : Term) :
    recordOf (.heartbeat handledAt hb :: history) key =
      if key = .binary hb.id then
        some (merge ((record hb.id history).getD defaultMessage) hb.structured)
      else recordOf history key := by
  by_cases hkey : key = .binary hb.id
  · rw [if_pos hkey, hkey]
    exact record_heartbeat handledAt hb history
  · rw [if_neg hkey]
    cases key with
    | binary id =>
        have hother : ¬ hb.id = id := by
          rintro rfl
          exact hkey rfl
        simp only [recordOf, record, lastHeartbeat, lastSent, status, hother, if_false, false_and]
    | _ => rfl

theorem recordOf_pass (now : DateTime) (order : List HeartbeatEntry)
    (history : List (MonitorEvent jason)) (key : Term) :
    recordOf (.pass now order :: history) key = (recordOf history key).map (reclassify now) := by
  cases key with
  | binary id =>
      simp only [recordOf, record, lastHeartbeat, lastSent, status]
      cases hlast : lastHeartbeat id history with
      | none => rfl
      | some last => rfl
  | _ => rfl

/-- Every record has an instant, under an id that has a text. -/
theorem sound_of_recordOf {history : List (MonitorEvent jason)} {table : HeartbeatTable}
    (h : ∀ key, HeartbeatTable.lookup table key = recordOf history key) : Sound table := by
  intro entry hentry
  rw [mem_docs_iff_lookup, h] at hentry
  obtain ⟨key, state⟩ := entry
  cases key with
  | binary id =>
      obtain ⟨last, -, rfl⟩ := Option.map_eq_some_iff.mp hentry
      exact ⟨Timestamp.noConfusion, rfl⟩
  | _ => cases hentry

theorem recordOf_isSome (history : List (MonitorEvent jason)) (key : Term) :
    (recordOf history key).isSome ↔
      ∃ handledAt hb, MonitorEvent.heartbeat handledAt hb ∈ history ∧ key = .binary hb.id := by
  induction history with
  | nil =>
      cases key with
      | binary id => simp [recordOf, record, lastHeartbeat]
      | _ => simp [recordOf]
  | cons event earlier ih =>
      cases event with
      | heartbeat handledAt hb =>
          rw [recordOf_heartbeat]
          by_cases hkey : key = .binary hb.id
          · rw [if_pos hkey]
            exact iff_of_true rfl ⟨handledAt, hb, List.mem_cons_self, hkey⟩
          · rw [if_neg hkey, ih]
            constructor
            · rintro ⟨at', hb', hmem, hid⟩
              exact ⟨at', hb', List.mem_cons_of_mem _ hmem, hid⟩
            · rintro ⟨at', hb', hmem, hid⟩
              obtain heq | hmem := List.mem_cons.mp hmem
              · cases heq
                exact absurd hid hkey
              · exact ⟨at', hb', hmem, hid⟩
      | pass now order =>
          rw [recordOf_pass, Option.isSome_map, ih]
          simp

end Reference

/-! ### The table refines the reference -/

theorem lookup_tableAfter (events : List (MonitorEvent jason)) (key : Term) :
    HeartbeatTable.lookup (tableAfter events) key = Reference.recordOf events.reverse key := by
  induction events using List.reverseRecOn generalizing key with
  | nil =>
      cases key with
      | binary id => rfl
      | _ => rfl
  | append_singleton events event ih =>
      have hstep : tableAfter (events ++ [event]) = event.apply (tableAfter events) := by
        rw [tableAfter, List.foldl_append]
        rfl
      rw [hstep, List.reverse_append, List.reverse_singleton, List.singleton_append]
      cases event with
      | heartbeat handledAt hb =>
          rw [Reference.recordOf_heartbeat, MonitorEvent.apply, hb.heartbeatStep_eq, store,
            lookup_put, ih, ih]
          rfl
      | pass now order =>
          have hsound := Reference.sound_of_recordOf ih
          rw [Reference.recordOf_pass, MonitorEvent.apply, lookup_passStep (hsound.recalculates now),
            ih]

/-- What the table holds after these events: one entry for each id that sent a heartbeat, with the
record of the reference. -/
structure RefinesHistory (events : List (MonitorEvent jason)) (table : HeartbeatTable) : Prop where
  ids : ∀ key, key ∈ table.keys ↔
    ∃ handledAt hb, MonitorEvent.heartbeat handledAt hb ∈ events ∧ key = .binary hb.id
  once : ∀ key ∈ table.keys, (table.docs.filter fun entry => entry.1 == key).length = 1
  records : ∀ id, HeartbeatTable.lookup table (.binary id) = Reference.record id events.reverse

theorem tableAfter_refines (events : List (MonitorEvent jason)) :
    RefinesHistory events (tableAfter events) where
  ids key := by
    rw [mem_keys_iff_lookup, lookup_tableAfter, Reference.recordOf_isSome]
    simp only [List.mem_reverse]
  once key hkey := Collection.length_filter_of_mem_keys hkey
  records id := lookup_tableAfter events (.binary id)

end BookHub.HealthMonitor
