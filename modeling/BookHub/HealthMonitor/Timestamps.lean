import BookHub.HealthMonitor.Reference

/-!
# The sender's timestamps

The health monitor never reads a clock when a heartbeat comes in, and never compares the timestamp of
a heartbeat with the one it replaces. So the timestamp of a service is that of the heartbeat handled
last, whatever it says, and a service is offline when that timestamp is old, however long ago the
heartbeat was handled.
-/

namespace BookHub.HealthMonitor

open Elixir

variable {jason : String → Option Term}

def storedTimestamp (table : HeartbeatTable) (id : String) : Option Timestamp :=
  (HeartbeatTable.lookup table (.binary id)).map ServiceStatus.timestamp

/-- The table after these heartbeats, each handled alone. -/
def handleAll (table : HeartbeatTable) (order : List (Heartbeat jason)) : HeartbeatTable :=
  order.foldl (fun table hb => (heartbeatStep jason table hb.data).2) table

/-- The last of these heartbeats that is of the service. -/
def lastOf (id : String) (order : List (Heartbeat jason)) : Option (Heartbeat jason) :=
  (order.filter fun hb => hb.id == id).getLast?

/-- The stored timestamp is not before that of any heartbeat of the service. -/
def IsLatest (id : String) (heartbeats : List (Heartbeat jason)) (stored : Option Timestamp) : Prop :=
  ∃ dt, stored = some (.dateTime dt) ∧
    ∀ hb ∈ heartbeats, hb.id = id → hb.timestamp.micros ≤ dt.micros

/-- The stored timestamp was replaced by an earlier one. -/
def WentBack (before after : Option Timestamp) : Prop :=
  ∃ dt dt', before = some (.dateTime dt) ∧ after = some (.dateTime dt') ∧ dt'.micros < dt.micros

/-! ### In any order -/

theorem storedTimestamp_store (table : HeartbeatTable) (hb : Heartbeat jason) (id : String) :
    storedTimestamp (store table hb.structured) id =
      if hb.id = id then some (.dateTime hb.timestamp) else storedTimestamp table id := by
  rw [storedTimestamp, store, lookup_put]
  by_cases hid : hb.id = id
  · rw [if_pos hid, if_pos (by rw [← hid]; rfl)]
    rfl
  · rw [if_neg hid, if_neg]
    · rfl
    · intro heq
      exact hid (Term.binary.inj heq).symm

theorem handleAll_append (table : HeartbeatTable) (order : List (Heartbeat jason))
    (hb : Heartbeat jason) :
    handleAll table (order ++ [hb]) = store (handleAll table order) hb.structured := by
  rw [handleAll, List.foldl_append]
  exact hb.heartbeatStep_eq _

theorem storedTimestamp_handleAll {order : List (Heartbeat jason)} {id : String}
    {last : Heartbeat jason} (hlast : lastOf id order = some last) (table : HeartbeatTable) :
    storedTimestamp (handleAll table order) id = some (.dateTime last.timestamp) := by
  induction order using List.reverseRecOn with
  | nil => cases hlast
  | append_singleton order hb ih =>
      rw [handleAll_append, storedTimestamp_store]
      rw [lastOf, List.filter_append] at hlast
      by_cases hid : hb.id = id
      · have hkept : [hb].filter (fun hb => hb.id == id) = [hb] := by simp [hid]
        rw [hkept, List.getLast?_concat] at hlast
        cases hlast
        rw [if_pos hid]
      · have hdropped : [hb].filter (fun hb => hb.id == id) = [] := by simp [hid]
        rw [hdropped, List.append_nil] at hlast
        rw [if_neg hid]
        exact ih hlast

theorem wentBack_store_iff (table : HeartbeatTable) (hb : Heartbeat jason) (id : String) :
    WentBack (storedTimestamp table id) (storedTimestamp (store table hb.structured) id) ↔
      hb.id = id ∧
        ∃ dt, storedTimestamp table id = some (.dateTime dt) ∧ hb.timestamp.micros < dt.micros := by
  rw [storedTimestamp_store]
  by_cases hid : hb.id = id
  · rw [if_pos hid]
    constructor
    · intro hback
      obtain ⟨dt, dt', hbefore, hafter, hlt⟩ := hback
      cases hafter
      exact ⟨hid, dt, hbefore, hlt⟩
    · intro hearlier
      obtain ⟨-, dt, hbefore, hlt⟩ := hearlier
      exact ⟨dt, hb.timestamp, hbefore, rfl, hlt⟩
  · rw [if_neg hid]
    constructor
    · intro hback
      obtain ⟨dt, dt', hbefore, hafter, hlt⟩ := hback
      rw [hbefore] at hafter
      cases hafter
      exact absurd hlt (Int.lt_irrefl _)
    · intro hearlier
      exact absurd hearlier.1 hid

/-- The order in which heartbeats are handled decides: the last one of a service is the one that is
stored, the latest one only if it is that one, and the stored timestamp goes back at each heartbeat
that is older than it. -/
structure LastHandledWins (table : HeartbeatTable) (heartbeats order : List (Heartbeat jason)) :
    Prop where
  stored : ∀ id last, lastOf id order = some last →
    storedTimestamp (handleAll table order) id = some (.dateTime last.timestamp)
  latest : ∀ id last, lastOf id order = some last →
    (IsLatest id heartbeats (storedTimestamp (handleAll table order) id) ↔
      ∀ hb ∈ order, hb.id = id → hb.timestamp.micros ≤ last.timestamp.micros)
  back : ∀ earlier hb later, order = earlier ++ hb :: later → ∀ id,
    (WentBack (storedTimestamp (handleAll table earlier) id)
        (storedTimestamp (handleAll table (earlier ++ [hb])) id) ↔
      hb.id = id ∧ ∃ dt, storedTimestamp (handleAll table earlier) id = some (.dateTime dt) ∧
        hb.timestamp.micros < dt.micros)

theorem lastHandledWins (table : HeartbeatTable) {heartbeats order : List (Heartbeat jason)}
    (horder : order.Perm heartbeats) : LastHandledWins table heartbeats order where
  stored id last hlast := storedTimestamp_handleAll hlast table
  latest id last hlast := by
    rw [storedTimestamp_handleAll hlast]
    constructor
    · intro hlatest hb hhb
      obtain ⟨dt, hdt, hle⟩ := hlatest
      cases hdt
      exact hle hb (horder.mem_iff.mp hhb)
    · intro hle
      exact ⟨last.timestamp, rfl, fun hb hhb => hle hb (horder.mem_iff.mpr hhb)⟩
  back earlier hb later _ id := by
    rw [handleAll_append]
    exact wentBack_store_iff _ hb id

/-! ### Two heartbeats of one service -/

def ofX (timestamp : String) : Entries :=
  .cons "serviceId" (.binary "x") (.cons "timestamp" (.binary timestamp) .nil)

/-- The heartbeats of service x at noon and at one o'clock. -/
def noonText : String := "\x7b\"serviceId\":\"x\",\"timestamp\":\"2026-01-01T12:00:00Z\"\x7d"

def oneText : String := "\x7b\"serviceId\":\"x\",\"timestamp\":\"2026-01-01T13:00:00Z\"\x7d"

def jasonOfX (data : String) : Option Term :=
  if data = noonText then some (.map (ofX "2026-01-01T12:00:00Z"))
  else if data = oneText then some (.map (ofX "2026-01-01T13:00:00Z"))
  else none

def noon : DateTime := ⟨63934488000000000, 0⟩

def one : DateTime := ⟨63934491600000000, 0⟩

def noonHeartbeat : Heartbeat jasonOfX :=
  ⟨noonText, _, rfl, "x", rfl, "2026-01-01T12:00:00Z", rfl, noon, rfl⟩

def oneHeartbeat : Heartbeat jasonOfX :=
  ⟨oneText, _, rfl, "x", rfl, "2026-01-01T13:00:00Z", rfl, one, rfl⟩

theorem lastHandledWins_oneThenNoon :
    LastHandledWins .empty [noonHeartbeat, oneHeartbeat] [oneHeartbeat, noonHeartbeat] :=
  lastHandledWins .empty (List.Perm.swap noonHeartbeat oneHeartbeat [])

/-- The heartbeat of noon is handled after that of one o'clock. -/
theorem not_always_latest : ¬ ∀ (jason : String → Option Term) (table : HeartbeatTable)
    (heartbeats order : List (Heartbeat jason)), order.Perm heartbeats →
    ∀ hb ∈ heartbeats, IsLatest hb.id heartbeats (storedTimestamp (handleAll table order) hb.id) := by
  intro h
  have hlatest := h jasonOfX .empty [noonHeartbeat, oneHeartbeat] [oneHeartbeat, noonHeartbeat]
    (List.Perm.swap noonHeartbeat oneHeartbeat []) oneHeartbeat (by simp)
  obtain ⟨dt, hstored, hle⟩ := hlatest
  have hlast : lastOf "x" [oneHeartbeat, noonHeartbeat] = some noonHeartbeat := by
    simp [lastOf, oneHeartbeat, noonHeartbeat]
  have hdt : some (Timestamp.dateTime noon) = some (.dateTime dt) :=
    (storedTimestamp_handleAll hlast .empty).symm.trans hstored
  cases hdt
  exact absurd (hle oneHeartbeat (by simp) rfl) (by decide)

/-! ### How long ago -/

theorem newStatus_offline_iff (diff : Int) : newStatus diff = .offline ↔ 60 < diff := by
  unfold newStatus healthyTreshold staleTreshold
  by_cases hhealthy : diff ≤ 30
  · simp only [if_pos hhealthy, reduceCtorEq, false_iff]
    omega
  · by_cases hstale : diff ≤ 60
    · simp only [if_neg hhealthy, if_pos hstale, reduceCtorEq, false_iff]
      omega
    · simp only [if_neg hhealthy, if_neg hstale, true_iff]
      omega

/-- The status after a recalculation, from the last heartbeat before it. -/
theorem status_after_pass (events : List (MonitorEvent jason)) (now : DateTime)
    (order : List HeartbeatEntry) {id : String} {handledAt : DateTime} {hb : Heartbeat jason}
    (hlast : Reference.lastHeartbeat id events.reverse = some (handledAt, hb)) :
    ∃ state, HeartbeatTable.lookup (tableAfter (events ++ [.pass now order])) (.binary id) = some state ∧
      state.status = some (newStatus (now.diff hb.timestamp)) := by
  have hhistory : (events ++ [MonitorEvent.pass now order]).reverse =
      .pass now order :: events.reverse := by
    rw [List.reverse_append]
    rfl
  have hrecord := lookup_tableAfter (events ++ [.pass now order]) (.binary id)
  rw [hhistory] at hrecord
  simp only [Reference.recordOf, Reference.record, Reference.lastHeartbeat, Reference.status, hlast,
    Option.map_some] at hrecord
  exact ⟨_, hrecord, rfl⟩

/-- After a recalculation at `now`, a service is offline when the timestamp of its last heartbeat is
more than a minute before `now`. When the heartbeat was handled does not matter, unless its timestamp
is known not to be after that. -/
theorem offline_after_pass (events : List (MonitorEvent jason)) (now : DateTime)
    (order : List HeartbeatEntry) {id : String} {handledAt : DateTime} {hb : Heartbeat jason}
    (hlast : Reference.lastHeartbeat id events.reverse = some (handledAt, hb)) :
    ∃ state, HeartbeatTable.lookup (tableAfter (events ++ [.pass now order])) (.binary id) = some state ∧
      (state.status = some .offline ↔ 60 < now.diff hb.timestamp) ∧
      (60 < now.diff handledAt → hb.timestamp.micros ≤ handledAt.micros →
        state.status = some .offline) := by
  obtain ⟨state, hstate, hstatus⟩ := status_after_pass events now order hlast
  refine ⟨state, hstate, ?_, fun hhandled hle => ?_⟩
  · rw [hstatus, Option.some_inj, newStatus_offline_iff]
  · have hdiff : now.diff handledAt ≤ now.diff hb.timestamp := by
      unfold DateTime.diff
      omega
    rw [hstatus, Option.some_inj, newStatus_offline_iff]
    omega

def twoPastNoon : DateTime := ⟨63934488120000000, 0⟩

/-- The heartbeat of noon, handled at noon, and a recalculation two minutes later. -/
theorem offline_after_pass_noon :
    ∃ state, HeartbeatTable.lookup (tableAfter
        ([.heartbeat noon noonHeartbeat] ++ [.pass twoPastNoon []])) (.binary "x") = some state ∧
      (state.status = some .offline ↔ 60 < twoPastNoon.diff noon) ∧
      (60 < twoPastNoon.diff noon → noon.micros ≤ noon.micros → state.status = some .offline) := by
  have hlast : Reference.lastHeartbeat "x" [MonitorEvent.heartbeat noon noonHeartbeat].reverse =
      some (noon, noonHeartbeat) := by
    simp [Reference.lastHeartbeat, noonHeartbeat]
  exact offline_after_pass [.heartbeat noon noonHeartbeat] twoPastNoon [] hlast

/-- A sender whose clock is an hour ahead stays healthy for an hour after its last heartbeat. -/
theorem not_offline_after_minute : ¬ ∀ (jason : String → Option Term)
    (events : List (MonitorEvent jason)) (now : DateTime) (order : List HeartbeatEntry) (id : String)
    (handledAt : DateTime) (hb : Heartbeat jason),
    Reference.lastHeartbeat id events.reverse = some (handledAt, hb) → 60 < now.diff handledAt →
    ∃ state, HeartbeatTable.lookup (tableAfter (events ++ [.pass now order])) (.binary id) = some state ∧
      state.status = some .offline := by
  intro h
  have hlast : Reference.lastHeartbeat "x" [MonitorEvent.heartbeat noon oneHeartbeat].reverse =
      some (noon, oneHeartbeat) := by
    simp [Reference.lastHeartbeat, oneHeartbeat]
  obtain ⟨state, hstate, hoffline⟩ :=
    h jasonOfX [.heartbeat noon oneHeartbeat] twoPastNoon [] "x" noon oneHeartbeat hlast (by decide)
  obtain ⟨state', hstate', hstatus⟩ := status_after_pass _ twoPastNoon [] hlast
  cases hstate.symm.trans hstate'
  rw [hstatus] at hoffline
  exact absurd hoffline (by decide)

end BookHub.HealthMonitor
