import BookHub.HealthMonitor.Timestamps

/-!
# A recalculation among handlers

One recalculation runs interleaved with any number of heartbeat handlers. It writes back whole records
of its snapshot, of which it has changed the status only, so it undoes a heartbeat exactly when it
writes a record whose other fields have been replaced in the table since. Where it never does, the
handlers might as well run without it: `recalculation_undoes_nothing`.
-/

namespace BookHub.HealthMonitor

open Elixir

/-- The heartbeat handlers over the table. -/
def service (jason : String → Option Term) :
    Service heartbeatSig Raise HeartbeatTable (List HeartbeatEntry) String Unit where
  handler := handleMessage jason
  exec := exec

abbrev HeartbeatPool : Type := Pool heartbeatSig Raise HeartbeatTable String Unit

abbrev HeartbeatMove : Type := Move (List HeartbeatEntry) String

/-- The handlers in progress, and what is left of the recalculation. -/
structure Monitor where
  handlers : HeartbeatPool
  pass : HeartbeatM Unit

inductive MonitorMove where
  | handler (move : HeartbeatMove)
  | pass (order : List HeartbeatEntry)
  deriving DecidableEq, Repr

namespace MonitorMove

def handler? : MonitorMove → Option HeartbeatMove
  | handler move => some move
  | pass _ => none

end MonitorMove

namespace Monitor

def passMove (s : Monitor) (order : List HeartbeatEntry) : Option Monitor :=
  match s.pass with
  | .done _ => none
  | .await op resume =>
      let (answer, store) := exec s.handlers.store op order
      some ⟨{ s.handlers with store }, resume answer⟩

def machine (jason : String → Option Term) : Machine Monitor MonitorMove where
  step
    | s, .handler move =>
        ((service jason).machine.step s.handlers move).map fun handlers => { s with handlers }
    | s, .pass order => s.passMove order

/-- A recalculation at `now` is about to start, and no handler is in progress. -/
def start (table : HeartbeatTable) (now : DateTime) : Monitor :=
  ⟨Service.start table, recalculateAllStatuses now⟩

end Monitor

/-! ### What a heartbeat brings -/

/-- A record without its status. -/
def contents (state : ServiceStatus) : ServiceStatus := { state with status := none }

def storedContents (table : HeartbeatTable) (id : Term) : Option ServiceStatus :=
  (HeartbeatTable.lookup table id).map contents

/-- The tables agree on everything but statuses. -/
def SameContents (table table' : HeartbeatTable) : Prop :=
  ∀ id, storedContents table id = storedContents table' id

theorem storedContents_put (table : HeartbeatTable) (key : Term) (state : ServiceStatus) (id : Term) :
    storedContents (table.put (key, state)) id =
      if id = key then some (contents state) else storedContents table id := by
  rw [storedContents, lookup_put]
  split <;> rfl

/-- Writing a record changes no contents exactly when its contents are those stored. -/
theorem sameContents_put_iff (table : HeartbeatTable) (id : Term) (state : ServiceStatus) :
    SameContents (table.put (id, state)) table ↔ storedContents table id = some (contents state) := by
  constructor
  · intro h
    rw [← h id, storedContents_put, if_pos rfl]
  · intro h id'
    rw [storedContents_put]
    by_cases hid : id' = id
    · rw [if_pos hid, hid, h]
    · rw [if_neg hid]

/-- The record that the recalculation is about to write back, if it is. -/
def Monitor.pendingWrite (s : Monitor) : Option HeartbeatEntry :=
  match s.pass with
  | .await (.insert id state) _ => some (id, state)
  | _ => none

/-- What the recalculation is about to write back brings no other contents than those stored. -/
def NotOvertaken (s : Monitor) : MonitorMove → Prop
  | .handler _ => True
  | .pass _ => ∀ entry ∈ s.pendingWrite,
      storedContents s.handlers.store entry.1 = some (contents entry.2)

instance (s : Monitor) (move : MonitorMove) : Decidable (NotOvertaken s move) :=
  match move with
  | .handler _ => .isTrue trivial
  | .pass _ => inferInstanceAs (Decidable (∀ entry ∈ s.pendingWrite, _ = _))

/-! ### The handlers without the recalculation -/

/-- A handler from its lookup on. -/
def mergeInto (structured : ServiceStatus) : HeartbeatM Unit := do
  let existing ← call (.lookup structured.serviceId)
  call (.insert structured.serviceId (merge (existing.getD defaultMessage) structured))

/-- Two codes of one handler that have met different statuses. -/
inductive SameHandler : HeartbeatM Unit → HeartbeatM Unit → Prop where
  | done (result : Except Raise Unit) : SameHandler (.done result) (.done result)
  | lookup (structured : ServiceStatus) : SameHandler (mergeInto structured) (mergeInto structured)
  | insert (id : Term) (state state' : ServiceStatus) (h : contents state = contents state') :
      SameHandler (call (.insert id state)) (call (.insert id state'))

theorem sameHandler_handleMessage (jason : String → Option Term) (data : String) :
    SameHandler (handleMessage jason data) (handleMessage jason data) := by
  unfold handleMessage
  cases jason data with
  | none => exact .done _
  | some decoded =>
      simp only
      cases structuredMessage decoded with
      | error err => exact .done _
      | ok structured => exact .lookup structured

theorem contents_merge {existing existing' : ServiceStatus} (h : contents existing = contents existing')
    (structured : ServiceStatus) :
    contents (merge existing structured) = contents (merge existing' structured) := by
  obtain ⟨serviceId, timestamp, status, stats, data⟩ := existing
  obtain ⟨serviceId', timestamp', status', stats', data'⟩ := existing'
  simp only [contents, ServiceStatus.mk.injEq, true_and] at h
  obtain ⟨rfl, rfl, rfl, rfl⟩ := h
  rfl

theorem contents_getD {found found' : Option ServiceStatus}
    (h : found.map contents = found'.map contents) :
    contents (found.getD defaultMessage) = contents (found'.getD defaultMessage) := by
  cases found with
  | none =>
      cases found' with
      | none => rfl
      | some state' => cases h
  | some state =>
      cases found' with
      | none => cases h
      | some state' => exact Option.some.inj h

theorem sameContents_put {table table' : HeartbeatTable} (h : SameContents table table') (id : Term)
    {state state' : ServiceStatus} (hstate : contents state = contents state') :
    SameContents (table.put (id, state)) (table'.put (id, state')) := by
  intro id'
  rw [storedContents_put, storedContents_put, hstate, h id']

/-- An operation of a handler keeps the tables alike, and what is left of the handler. -/
theorem sameHandler_exec (table table' : HeartbeatTable) (op : HeartbeatOp)
    (resume : Except Raise (heartbeatSig.Answer op) → HeartbeatM Unit) (code : HeartbeatM Unit)
    (order : List HeartbeatEntry) (h : SameContents table table')
    (hcode : SameHandler (.await op resume) code) :
    ∃ op' resume', code = .await op' resume' ∧
      SameContents (exec table op order).2 (exec table' op' order).2 ∧
      SameHandler (resume (exec table op order).1) (resume' (exec table' op' order).1) := by
  generalize hawait : (.await op resume : HeartbeatM Unit) = left at hcode
  cases hcode with
  | done result => cases hawait
  | lookup structured =>
      obtain ⟨rfl, hresume⟩ := Coroutine.await.inj hawait
      cases hresume
      refine ⟨_, _, rfl, h, ?_⟩
      exact .insert _ _ _ (contents_merge (contents_getD (h structured.serviceId)) structured)
  | insert id state state' hstate =>
      obtain ⟨rfl, hresume⟩ := Coroutine.await.inj hawait
      cases hresume
      exact ⟨_, _, rfl, sameContents_put h id hstate, .done _⟩

/-! ### The recalculation leaves no trace -/

/-- The handlers of a run with the recalculation, and those of the run without it. -/
abbrev Beside (p p' : HeartbeatPool) : Prop := Service.Alongside SameContents SameHandler p p'

/-- A move of the recalculation that is not overtaken keeps the contents of the table. -/
theorem sameContents_passMove {s s' : Monitor} {order : List HeartbeatEntry}
    (hcond : NotOvertaken s (.pass order)) (hmove : s.passMove order = some s') :
    SameContents s'.handlers.store s.handlers.store ∧ s'.handlers.threads = s.handlers.threads := by
  unfold Monitor.passMove at hmove
  cases hpass : s.pass with
  | done result =>
      rw [hpass] at hmove
      cases hmove
  | await op resume =>
      rw [hpass] at hmove
      cases hmove
      refine ⟨?_, rfl⟩
      cases op with
      | lookup id => exact fun _ => rfl
      | insert id state =>
          have hpending : s.pendingWrite = some (id, state) := by
            rw [Monitor.pendingWrite, hpass]
          exact (sameContents_put_iff _ id state).mpr (hcond _ hpending)
      | tab2list => exact fun _ => rfl

theorem beside_run (jason : String → Option Term) {s s' : Monitor} {p : HeartbeatPool}
    {moves : List MonitorMove} (h : Beside s.handlers p)
    (hmeets : (Monitor.machine jason).Meets NotOvertaken s moves)
    (hrun : (Monitor.machine jason).run s moves = some s') :
    ∃ p', (service jason).machine.run p (moves.filterMap MonitorMove.handler?) = some p' ∧
      Beside s'.handlers p' := by
  induction moves generalizing s p with
  | nil =>
      cases hrun
      exact ⟨p, rfl, h⟩
  | cons move rest ih =>
      obtain ⟨mid, hmid, hrest⟩ := Option.bind_eq_some_iff.mp hrun
      have hmeets' := hmeets.2 mid hmid
      cases move with
      | handler move =>
          obtain ⟨handlers, hhandlers, rfl⟩ := Option.map_eq_some_iff.mp hmid
          obtain ⟨q, hq, hbeside⟩ := Service.alongside_step (service jason) (fun _ _ _ _ _ => rfl)
            (sameHandler_handleMessage jason) sameHandler_exec h hhandlers
          obtain ⟨p', hp', hfinal⟩ := ih hbeside hmeets' hrest
          refine ⟨p', ?_, hfinal⟩
          rw [List.filterMap_cons_some (show MonitorMove.handler? (.handler move) = some move from rfl),
            Machine.run, hq]
          exact hp'
      | pass order =>
          obtain ⟨hstore, hthreads⟩ := sameContents_passMove hmeets.1 hmid
          have hbeside : Beside mid.handlers p := by
            refine ⟨fun id => (hstore id).trans (h.stores id), hthreads ▸ h.length, ?_⟩
            rw [hthreads]
            exact h.codes
          exact ih hbeside hmeets' hrest

/-- Where the recalculation writes back no record that a handler has replaced, the contents of every
record are those of the same handlers run without it. -/
theorem recalculation_undoes_nothing (jason : String → Option Term) (table : HeartbeatTable)
    (now : DateTime) {moves : List MonitorMove} {s : Monitor}
    (hmeets : (Monitor.machine jason).Meets NotOvertaken (Monitor.start table now) moves)
    (hrun : (Monitor.machine jason).run (Monitor.start table now) moves = some s) :
    ∃ p, (service jason).machine.run (Service.start table) (moves.filterMap MonitorMove.handler?) =
        some p ∧ ∀ id, storedContents s.handlers.store id = storedContents p.store id := by
  have hstart : Beside (Monitor.start table now).handlers (Service.start table) := by
    refine ⟨fun _ => rfl, rfl, fun index t t' ht => ?_⟩
    cases ht
  obtain ⟨p, hp, hbeside⟩ := beside_run jason hstart hmeets hrun
  exact ⟨p, hp, hbeside.stores⟩

/-! ### A heartbeat between the snapshot and the write -/

/-- Service x has sent nothing since noon, and is marked healthy. -/
def healthySinceNoon : HeartbeatTable :=
  ⟨[(.binary "x", ⟨.binary "x", .dateTime noon, some .healthy, .nil, .nil⟩)], List.nodup_singleton _⟩

/-- The recalculation takes its snapshot, a heartbeat of service x is handled, and the recalculation
goes on. -/
def overtaken : List MonitorMove :=
  [.pass [], .handler (.arrive oneText), .handler (.resume 0 []), .handler (.resume 0 []), .pass []]

/-- The heartbeat of service x is handled after the recalculation. -/
def notOvertaken : List MonitorMove :=
  [.pass [], .pass [], .handler (.arrive oneText), .handler (.resume 0 []), .handler (.resume 0 [])]

theorem recalculation_undoes_nothing_notOvertaken :
    ∃ s, (Monitor.machine jasonOfX).run (.start healthySinceNoon twoPastNoon) notOvertaken = some s ∧
      ∃ p, (service jasonOfX).machine.run (Service.start healthySinceNoon)
          (notOvertaken.filterMap MonitorMove.handler?) = some p ∧
        ∀ id, storedContents s.handlers.store id = storedContents p.store id := by
  obtain ⟨s, hs⟩ : ∃ s, (Monitor.machine jasonOfX).run (.start healthySinceNoon twoPastNoon)
      notOvertaken = some s := Option.isSome_iff_exists.mp (by decide +kernel)
  have hmeets : (Monitor.machine jasonOfX).Meets NotOvertaken (.start healthySinceNoon twoPastNoon)
      notOvertaken := by decide +kernel
  exact ⟨s, hs, recalculation_undoes_nothing jasonOfX healthySinceNoon twoPastNoon hmeets hs⟩

def finished : HeartbeatM Unit → Bool
  | .done _ => true
  | .await _ _ => false

def Monitor.finished (s : Monitor) : Bool :=
  HealthMonitor.finished s.pass && s.handlers.threads.all fun t => HealthMonitor.finished t.code

/-- The service that a heartbeat is of. -/
def serviceOf (jason : String → Option Term) (data : String) : Option Term :=
  (jason data).bind fun decoded =>
    (structuredMessage decoded).toOption.map ServiceStatus.serviceId

/-- A heartbeat comes in while no handler of its service is in progress. -/
def OneAtATime (jason : String → Option Term) (s : Monitor) : MonitorMove → Prop
  | .handler (.arrive data) => ∀ t ∈ s.handlers.threads, finished t.code = false →
      serviceOf jason t.request ≠ serviceOf jason data
  | _ => True

instance (jason : String → Option Term) (s : Monitor) (move : MonitorMove) :
    Decidable (OneAtATime jason s move) :=
  match move with
  | .handler (.arrive _) => inferInstanceAs (Decidable (∀ t ∈ s.handlers.threads, _ → _ ≠ _))
  | .handler (.resume _ _) => .isTrue trivial
  | .pass _ => .isTrue trivial

/-- The recalculation puts the timestamp of its snapshot back over that of the heartbeat. -/
theorem not_recalculation_undoes_nothing : ¬ ∀ (jason : String → Option Term) (table : HeartbeatTable)
    (now : DateTime) (moves : List MonitorMove) (s : Monitor) (p : HeartbeatPool),
    (Monitor.machine jason).Meets (OneAtATime jason) (.start table now) moves →
    (Monitor.machine jason).run (.start table now) moves = some s → s.finished = true →
    (service jason).machine.run (Service.start table) (moves.filterMap MonitorMove.handler?) = some p →
    ∀ id, storedTimestamp s.handlers.store id = storedTimestamp p.store id := by
  intro h
  have hwith : ((Monitor.machine jasonOfX).run (.start healthySinceNoon twoPastNoon) overtaken).map
      (fun s => (s.finished, storedTimestamp s.handlers.store "x")) =
        some (true, some (.dateTime noon)) := by
    decide +kernel
  have hone : (Monitor.machine jasonOfX).Meets (OneAtATime jasonOfX)
      (.start healthySinceNoon twoPastNoon) overtaken := by
    decide +kernel
  have hwithout : ((service jasonOfX).machine.run (Service.start healthySinceNoon)
      (overtaken.filterMap MonitorMove.handler?)).map (fun p => storedTimestamp p.store "x") =
        some (some (.dateTime one)) := by
    decide +kernel
  obtain ⟨s, hs, hafter⟩ := Option.map_eq_some_iff.mp hwith
  obtain ⟨hfinished, hnoon⟩ := Prod.mk.inj hafter
  obtain ⟨p, hp, hlater⟩ := Option.map_eq_some_iff.mp hwithout
  have hsame := h jasonOfX healthySinceNoon twoPastNoon overtaken s p hone hs hfinished hp "x"
  rw [hnoon, hlater] at hsame
  exact absurd hsame (by decide)

end BookHub.HealthMonitor
