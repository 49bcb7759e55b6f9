import BookHub.Base.Lists
import BookHub.Base.Supervisor
import BookHub.HealthMonitor.Recalculation
import BookHub.HealthMonitor.Signers

/-!
# The supervised application

The children of the application with their timers, under a supervisor with the default intensity. Two of
them raise by their own code: the process that fetches the keys, and the one that recalculates. These are
the failures that are modelled. The table of the heartbeats belongs to a third one that does nothing else,
so no restart empties it.

The process that recalculates waits for ten seconds first, each time it starts; the one that fetches the
keys does so at once. So the application never goes down because of what is in the table, and goes down
when the keys cannot be read several times in a row: `supervised`.
-/

namespace BookHub.HealthMonitor

open Elixir

/-- The children that raise. -/
inductive Child where
  | jwksStrategy
  | statusUpdater
  deriving DecidableEq, Repr

/-- The application: the clock in milliseconds, the state of its children with the times of the next
messages to themselves, and its supervisor. The failures are those there ever were, the newest first. -/
structure Application (Signer : Type) where
  clock : Nat
  strategy : JwksStrategy Signer
  fetchAt : Nat
  table : HeartbeatTable
  recalculateAt : Nat
  supervisor : Supervisor
  failures : List (Child × Nat)
  running : Bool

def heartbeatRecalculationInterval : Nat := 10000

namespace Application

variable {Signer : Type}

/-- The supervisor has started its children. -/
def start (clock : Nat) : Application Signer where
  clock := clock
  strategy := .init
  fetchAt := clock
  table := .empty
  recalculateAt := clock + heartbeatRecalculationInterval
  supervisor := ⟨3, 5, []⟩
  failures := []
  running := true

/-- `schedule_recalculation`. -/
def scheduleRecalculation (s : Application Signer) : Application Signer :=
  { s with recalculateAt := s.clock + heartbeatRecalculationInterval }

/-- A child is started, and its `init` runs. -/
def startChild (s : Application Signer) : Child → Application Signer
  | .jwksStrategy => { s with strategy := .init, fetchAt := s.clock }
  | .statusUpdater => s.scheduleRecalculation

def addRestart (s : Application Signer) (child : Child) : Application Signer :=
  { s with
    supervisor := s.supervisor.addRestart (s.clock / 1000)
    failures := (child, s.clock) :: s.failures }

/-- The strategy is `:one_for_one`: the other children go on, unless the supervisor gives up. -/
def died (s : Application Signer) (child : Child) : Application Signer :=
  let s := s.addRestart child
  if s.supervisor.Exhausted then { s with running := false } else s.startChild child

end Application

inductive ApplicationEvent where
  | tick (ms : Nat)
  | heartbeat (data : String)
  | recalculate (now : DateTime) (order : List HeartbeatEntry)
  | fetched (result : HttpcResult)
  deriving DecidableEq, Repr

section Supervision

variable {Signer : Type} (jason : String → Option Term) (joken : Joken Signer)

/-- What becomes of the table is for the steps of the monitor to say. -/
def ApplicationEvent.healthStep? : ApplicationEvent → Option HealthStep
  | .heartbeat data => some (.heartbeat data)
  | .recalculate now order => some (.pass now order)
  | _ => none

/-- The application under any heartbeats and any answers to its fetches. What the handler of a heartbeat
raises, its processor catches; what the other two raise, they die of. -/
def application : Machine (Application Signer) ApplicationEvent where
  step s event :=
    if s.running = false then none
    else
      match event with
      | .tick ms => some { s with clock := s.clock + ms }
      | .heartbeat data => some { s with table := (heartbeatStep jason s.table data).2 }
      | .recalculate now order =>
          if s.recalculateAt ≤ s.clock then
            match passStep s.table now order with
            | (.ok _, table) => some { s with table := table }.scheduleRecalculation
            | (.error _, table) => some ({ s with table := table }.died .statusUpdater)
          else none
      | .fetched result =>
          if s.fetchAt ≤ s.clock then
            match s.strategy.handleInfo jason joken result with
            | .ok strategy =>
                some { s with strategy := strategy, fetchAt := s.clock + strategy.sendAfter }
            | .error _ => some (s.died .jwksStrategy)
          else none

/-- The application has gone down exactly if the last four failures lie within five seconds; three of
them at least were failures to read the keys. As long as it is up, the next recalculation is ten seconds
away at most, and the next fetch an hour. -/
structure Supervised (s : Application Signer) : Prop where
  down_iff : s.running = false ↔ ∃ newest fourth, s.failures.head? = some newest ∧
    s.failures[3]? = some fourth ∧ newest.2 / 1000 ≤ fourth.2 / 1000 + 5
  fetches : s.running = false →
    3 ≤ ((s.failures.take 4).map Prod.fst).count .jwksStrategy
  recalculation : s.running = true → s.recalculateAt ≤ s.clock + 10000
  fetch : s.running = true → s.fetchAt ≤ s.clock + 3600000

variable {jason joken}

/-! ### The failures -/

/-- What is known of the failures at any time. Those of the recalculation lie ten seconds apart. -/
structure Recorded (clock : Nat) (supervisor : Supervisor) (failures : List (Child × Nat)) : Prop where
  intensity : supervisor.intensity = 3
  period : supervisor.period = 5
  past : ∀ failure ∈ failures, failure.2 ≤ clock
  sorted : failures.Pairwise fun newer older => older.2 ≤ newer.2
  window : supervisor.Window (failures.map (·.2 / 1000))
  spaced : (failures.filter (·.1 = .statusUpdater)).Pairwise fun newer older =>
    older.2 + heartbeatRecalculationInterval ≤ newer.2

/-- A failure of the recalculation comes when the recalculation is due. -/
theorem Recorded.died {clock : Nat} {supervisor : Supervisor} {failures : List (Child × Nat)}
    (h : Recorded clock supervisor failures) (child : Child)
    (hdue : child = .statusUpdater → ∀ failure ∈ failures, failure.1 = .statusUpdater →
      failure.2 + heartbeatRecalculationInterval ≤ clock) :
    Recorded clock (supervisor.addRestart (clock / 1000)) ((child, clock) :: failures) where
  intensity := h.intensity
  period := h.period
  past := by
    intro failure hfailure
    obtain rfl | hold := List.mem_cons.mp hfailure
    · exact Nat.le_refl _
    · exact h.past failure hold
  sorted := List.pairwise_cons.mpr ⟨h.past, h.sorted⟩
  window := by
    apply Supervisor.window_addRestart h.window
    cases failures with
    | nil => exact Nat.zero_le _
    | cons newest rest => exact Nat.div_le_div_right (h.past newest List.mem_cons_self)
  spaced := by
    by_cases hchild : child = .statusUpdater
    · rw [List.filter_cons_of_pos (by simpa using hchild)]
      refine List.pairwise_cons.mpr ⟨?_, h.spaced⟩
      intro failure hfailure
      obtain ⟨hmem, hupdater⟩ := List.mem_filter.mp hfailure
      exact hdue hchild failure hmem (of_decide_eq_true hupdater)
    · rw [List.filter_cons_of_neg (by simpa using hchild)]
      exact h.spaced

theorem Recorded.later {clock later : Nat} {supervisor : Supervisor} {failures : List (Child × Nat)}
    (h : Recorded clock supervisor failures) (hle : clock ≤ later) :
    Recorded later supervisor failures :=
  { h with past := fun failure hfailure => Nat.le_trans (h.past failure hfailure) hle }

theorem count_add_count (children : List Child) :
    children.count .jwksStrategy + children.count .statusUpdater = children.length := by
  induction children with
  | nil => rfl
  | cons child rest ih =>
      cases child with
      | jwksStrategy =>
          rw [List.count_cons_self, List.count_cons_of_ne (by decide), List.length_cons]
          omega
      | statusUpdater =>
          rw [List.count_cons_self, List.count_cons_of_ne (by decide), List.length_cons]
          omega

theorem exists_of_getElem?_three {failures : List (Child × Nat)} {fourth : Child × Nat}
    (h : failures[3]? = some fourth) :
    ∃ newest second third rest, failures = newest :: second :: third :: fourth :: rest := by
  match failures, h with
  | newest :: second :: third :: _ :: rest, rfl => exact ⟨newest, second, third, rest, rfl⟩

/-- One of the four at most is a failure of the recalculation. -/
theorem Recorded.three_le {clock : Nat} {supervisor : Supervisor} {failures : List (Child × Nat)}
    (h : Recorded clock supervisor failures) {newest fourth : Child × Nat}
    (hnewest : failures.head? = some newest) (hfourth : failures[3]? = some fourth)
    (hle : newest.2 / 1000 ≤ fourth.2 / 1000 + 5) :
    3 ≤ ((failures.take 4).map Prod.fst).count .jwksStrategy := by
  obtain ⟨first, second, third, rest, rfl⟩ := exists_of_getElem?_three hfourth
  cases hnewest
  have hbetween : ∀ failure ∈ [newest, second, third, fourth],
      fourth.2 ≤ failure.2 ∧ failure.2 ≤ newest.2 := by
    have hsorted := h.sorted
    simp only [List.pairwise_cons, List.forall_mem_cons] at hsorted
    simp only [List.forall_mem_cons, List.not_mem_nil, false_implies, implies_true, and_true]
    omega
  let updaters := [newest, second, third, fourth].filter (·.1 = .statusUpdater)
  have hspaced : (updaters.map (·.2 / 1000)).Pairwise fun newer older => older + 5 < newer := by
    rw [List.pairwise_map]
    have hsub : List.Sublist [newest, second, third, fourth]
        (newest :: second :: third :: fourth :: rest) :=
      List.sublist_append_left [newest, second, third, fourth] rest
    refine (h.spaced.sublist (hsub.filter _)).imp ?_
    intro newer older hfar
    unfold heartbeatRecalculationInterval at hfar
    omega
  have hone : (updaters.map (·.2 / 1000)).length ≤ 1 := by
    have hin : ∀ time ∈ updaters.map (·.2 / 1000),
        time ≤ newest.2 / 1000 ∧ newest.2 / 1000 ≤ time + 5 := by
      intro time htime
      obtain ⟨failure, hfailure, rfl⟩ := List.mem_map.mp htime
      have hfailure := hbetween failure (List.mem_filter.mp hfailure).1
      omega
    exact Supervisor.length_le_one_of_spaced hspaced hin
  have hcount : ([newest, second, third, fourth].map Prod.fst).count .statusUpdater =
      updaters.length := by
    rw [List.count_eq_length_filter, List.filter_map, List.length_map]
    rfl
  have htotal := count_add_count ([newest, second, third, fourth].map Prod.fst)
  rw [List.length_map] at hone
  show 3 ≤ ([newest, second, third, fourth].map Prod.fst).count .jwksStrategy
  simp only [List.length_map, List.length_cons, List.length_nil] at htotal
  omega

/-- What is known while the application is up. -/
structure Application.Scheduled (s : Application Signer) : Prop where
  updater : ∀ failure ∈ s.failures, failure.1 = .statusUpdater →
    failure.2 + heartbeatRecalculationInterval ≤ s.recalculateAt
  recalculation : s.recalculateAt ≤ s.clock + heartbeatRecalculationInterval
  fetch : s.fetchAt ≤ s.clock + 3600000

structure Application.Valid (s : Application Signer) : Prop where
  recorded : Recorded s.clock s.supervisor s.failures
  scheduled : s.running = true → s.Scheduled
  down_iff : s.running = false ↔ s.supervisor.Exhausted

namespace Application

theorem valid_start (clock : Nat) : (start clock : Application Signer).Valid where
  recorded := {
    intensity := rfl
    period := rfl
    past := nofun
    sorted := .nil
    window := rfl
    spaced := .nil }
  scheduled _ := {
    updater := nofun
    recalculation := Nat.le_refl _
    fetch := Nat.le_add_right _ _ }
  down_iff := by
    constructor
    · intro hdown
      cases hdown
    · intro hexhausted
      exact absurd hexhausted (Nat.not_lt_zero 3)

theorem Scheduled.startChild {s : Application Signer} (hpast : ∀ failure ∈ s.failures,
    failure.2 ≤ s.clock) (child : Child) (hupdater : child = .jwksStrategy →
      ∀ failure ∈ s.failures, failure.1 = .statusUpdater →
        failure.2 + heartbeatRecalculationInterval ≤ s.recalculateAt)
    (hrecalculation : s.recalculateAt ≤ s.clock + heartbeatRecalculationInterval)
    (hfetch : s.fetchAt ≤ s.clock + 3600000) : (s.startChild child).Scheduled := by
  cases child with
  | jwksStrategy => exact ⟨hupdater rfl, hrecalculation, Nat.le_add_right _ _⟩
  | statusUpdater =>
      refine ⟨?_, Nat.le_refl _, hfetch⟩
      intro failure hfailure _
      exact Nat.add_le_add_right (hpast failure hfailure) _

theorem Valid.died {s : Application Signer} (h : s.Valid) (hrunning : s.running = true)
    (child : Child) (hdue : child = .statusUpdater → s.recalculateAt ≤ s.clock) :
    (s.died child).Valid := by
  have hscheduled := h.scheduled hrunning
  have hrecorded := h.recorded.died child fun hchild failure hfailure hupdater =>
    Nat.le_trans (hscheduled.updater failure hfailure hupdater) (hdue hchild)
  unfold Application.died
  by_cases hexhausted : (s.addRestart child).supervisor.Exhausted
  · simp only [if_pos hexhausted]
    exact ⟨hrecorded, nofun, iff_of_true rfl hexhausted⟩
  · simp only [if_neg hexhausted]
    have hup : ¬ s.running = false := by
      rw [hrunning]
      nofun
    refine ⟨?_, fun _ => ?_, ?_⟩
    · cases child <;> exact hrecorded
    · refine Scheduled.startChild (s := s.addRestart child) hrecorded.past child ?_
        hscheduled.recalculation hscheduled.fetch
      rintro rfl failure hfailure hupdater
      obtain rfl | hold := List.mem_cons.mp hfailure
      · cases hupdater
      · exact hscheduled.updater failure hold hupdater
    · cases child <;> exact iff_of_false hup hexhausted

theorem sendAfter_le {s s' : JwksStrategy Signer} {result : HttpcResult}
    (h : s.handleInfo jason joken result = .ok s') : s'.sendAfter ≤ 3600000 := by
  unfold JwksStrategy.handleInfo at h
  split at h
  · split at h
    · cases h
    · obtain ⟨table, -, hs'⟩ := bind_eq_ok_iff.mp h
      cases hs'
      exact Nat.le_refl _
    · cases h
  · cases h
    exact (by decide : 60000 ≤ 3600000)

/-- A step of the application that is up: it goes on, or a child dies. -/
theorem step_cases {s s' : Application Signer} {event : ApplicationEvent}
    (h : (application jason joken).step s event = some s') :
    s.running = true ∧
      ((∃ ms, event = .tick ms ∧ s' = { s with clock := s.clock + ms }) ∨
      (∃ data, event = .heartbeat data ∧
        s' = { s with table := (heartbeatStep jason s.table data).2 }) ∨
      (∃ now order, event = .recalculate now order ∧ s.recalculateAt ≤ s.clock ∧
        (s' = { s with table := (passStep s.table now order).2 }.scheduleRecalculation ∨
          s' = { s with table := (passStep s.table now order).2 }.died .statusUpdater)) ∨
      (∃ result, event = .fetched result ∧
        ((∃ strategy, s.strategy.handleInfo jason joken result = .ok strategy ∧
          s' = { s with strategy := strategy, fetchAt := s.clock + strategy.sendAfter }) ∨
        s' = s.died .jwksStrategy))) := by
  obtain ⟨hup, hmove⟩ := Option.ite_none_left_eq_some.mp h
  refine ⟨(Bool.not_eq_false _).mp hup, ?_⟩
  cases event with
  | tick ms => exact .inl ⟨ms, rfl, (Option.some.inj hmove).symm⟩
  | heartbeat data => exact .inr (.inl ⟨data, rfl, (Option.some.inj hmove).symm⟩)
  | recalculate now order =>
      obtain ⟨hdue, hmove⟩ := Option.ite_none_right_eq_some.mp hmove
      refine .inr (.inr (.inl ⟨now, order, rfl, hdue, ?_⟩))
      split at hmove
      · rename_i table hpass
        rw [hpass]
        exact .inl (Option.some.inj hmove).symm
      · rename_i table hpass
        rw [hpass]
        exact .inr (Option.some.inj hmove).symm
  | fetched result =>
      obtain ⟨-, hmove⟩ := Option.ite_none_right_eq_some.mp hmove
      refine .inr (.inr (.inr ⟨result, rfl, ?_⟩))
      split at hmove
      · rename_i strategy hstrategy
        exact .inl ⟨strategy, hstrategy, (Option.some.inj hmove).symm⟩
      · exact .inr (Option.some.inj hmove).symm

theorem valid_step (s : Application Signer) (event : ApplicationEvent) (s' : Application Signer)
    (h : s.Valid) (hmove : (application jason joken).step s event = some s') : s'.Valid := by
  obtain ⟨hrunning, ⟨ms, rfl, rfl⟩ | ⟨data, rfl, rfl⟩ | ⟨now, order, rfl, hdue, rfl | rfl⟩ |
    ⟨result, rfl, ⟨strategy, hstrategy, rfl⟩ | rfl⟩⟩ := step_cases hmove
  · have hscheduled := h.scheduled hrunning
    refine ⟨h.recorded.later (Nat.le_add_right _ _), fun _ => ⟨hscheduled.updater, ?_, ?_⟩, h.down_iff⟩
    · exact Nat.le_trans hscheduled.recalculation
        (Nat.add_le_add_right (Nat.le_add_right s.clock ms) _)
    · exact Nat.le_trans hscheduled.fetch (Nat.add_le_add_right (Nat.le_add_right s.clock ms) _)
  · have hscheduled := h.scheduled hrunning
    exact ⟨h.recorded, fun _ => ⟨hscheduled.updater, hscheduled.recalculation, hscheduled.fetch⟩,
      h.down_iff⟩
  · have hscheduled := h.scheduled hrunning
    refine ⟨h.recorded, fun _ => ⟨?_, Nat.le_refl _, hscheduled.fetch⟩, h.down_iff⟩
    intro failure hfailure _
    exact Nat.add_le_add_right (h.recorded.past failure hfailure) _
  · have hscheduled := h.scheduled hrunning
    have hvalid : ({ s with table := (passStep s.table now order).2 } : Application Signer).Valid :=
      ⟨h.recorded, fun _ => ⟨hscheduled.updater, hscheduled.recalculation, hscheduled.fetch⟩,
        h.down_iff⟩
    exact hvalid.died hrunning .statusUpdater fun _ => hdue
  · have hscheduled := h.scheduled hrunning
    refine ⟨h.recorded, fun _ => ⟨hscheduled.updater, hscheduled.recalculation, ?_⟩, h.down_iff⟩
    exact Nat.add_le_add_left (sendAfter_le hstrategy) _
  · exact h.died hrunning .jwksStrategy nofun

/-! ### What is known of it at any time -/

theorem Valid.down_iff_failures {s : Application Signer} (h : s.Valid) :
    s.running = false ↔ ∃ newest fourth, s.failures.head? = some newest ∧
      s.failures[3]? = some fourth ∧ newest.2 / 1000 ≤ fourth.2 / 1000 + 5 := by
  have hsorted : (s.failures.map (·.2 / 1000)).Pairwise (· ≥ ·) := by
    rw [List.pairwise_map]
    exact h.recorded.sorted.imp fun hle => Nat.div_le_div_right hle
  rw [h.down_iff, Supervisor.exhausted_iff h.recorded.window hsorted, h.recorded.intensity,
    h.recorded.period]
  cases hfailures : s.failures with
  | nil => simp
  | cons newest rest => simp

theorem Valid.supervised {s : Application Signer} (h : s.Valid) : Supervised s where
  down_iff := h.down_iff_failures
  fetches hdown := by
    obtain ⟨newest, fourth, hnewest, hfourth, hle⟩ := h.down_iff_failures.mp hdown
    exact h.recorded.three_le hnewest hfourth hle
  recalculation hrunning := (h.scheduled hrunning).recalculation
  fetch hrunning := (h.scheduled hrunning).fetch

/-! ### The table -/

theorem table_died (s : Application Signer) (child : Child) : (s.died child).table = s.table := by
  unfold Application.died
  cases child with
  | jwksStrategy => simp only [startChild]; split <;> rfl
  | statusUpdater => simp only [startChild]; split <;> rfl

end Application

/-- Of the steps of the application those that are steps of the monitor leave the same table there. -/
theorem table_of_run {s s' : Application Signer} {events : List ApplicationEvent}
    (hrun : (application jason joken).run s events = some s') :
    (monitor jason).run s.table (events.filterMap ApplicationEvent.healthStep?) = some s'.table := by
  apply Machine.run_filterMap _ _ hrun
  · intro s event s' hnone hmove
    obtain ⟨-, ⟨ms, rfl, rfl⟩ | ⟨data, rfl, rfl⟩ | ⟨now, order, rfl, -, rfl | rfl⟩ |
      ⟨result, rfl, ⟨strategy, -, rfl⟩ | rfl⟩⟩ := Application.step_cases hmove
    · rfl
    · cases hnone
    · cases hnone
    · cases hnone
    · rfl
    · exact Application.table_died s .jwksStrategy
  · intro s event s' step hsome hmove
    obtain ⟨-, ⟨ms, rfl, rfl⟩ | ⟨data, rfl, rfl⟩ | ⟨now, order, rfl, -, rfl | rfl⟩ |
      ⟨result, rfl, ⟨strategy, -, rfl⟩ | rfl⟩⟩ := Application.step_cases hmove
    · cases hsome
    · cases hsome
      rfl
    · cases hsome
      rfl
    · cases hsome
      rw [Application.table_died]
      rfl
    · cases hsome
    · cases hsome

/-- In every run, whatever is in the heartbeats and whatever the auth service answers; and no child
that dies takes anything of the table with it. -/
theorem always_supervised (jason : String → Option Term) (joken : Joken Signer) (clock : Nat)
    (events : List ApplicationEvent) :
    (application jason joken).Always Supervised (.start clock) events ∧
      ∀ s, (application jason joken).run (.start clock) events = some s →
        (monitor jason).run .empty (events.filterMap ApplicationEvent.healthStep?) =
          some s.table := by
  refine ⟨?_, fun s hrun => table_of_run hrun⟩
  apply @Machine.always_of_meets _ _ _ (fun _ _ => True) Application.Valid
  · exact fun s event s' h _ hmove => Application.valid_step s event s' h hmove
  · exact fun s h => h.supervised
  · exact Application.valid_start clock
  · exact Machine.meets_of_forall (fun _ _ => trivial) _ events

end Supervision

/-- Four answers that are no JSON, as fast as they are asked for. -/
example : ((application (fun _ => none) plainJoken).run (.start 0)
    (List.replicate 4 (.fetched (.response 200 "garbage")))).map (·.running) = some false := rfl

end BookHub.HealthMonitor
