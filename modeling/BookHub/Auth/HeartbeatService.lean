import BookHub.Base.Machine
import Mathlib.Data.List.Basic

/-!
# The heartbeat publisher of the auth service

`ExecuteAsync` between its awaits. A pipeline with a retry strategy executes a callback that opens a
connection and a channel, declares the exchange and publishes for as long as nothing fails. Both
objects are in `using` declarations, so whichever way the callback is left they are disposed of. The
strategy tries five times more before the exception reaches the `catch`, where the service waits a
minute and begins with a new execution of the pipeline.

The broker and the clock settle what the service waits for, and the host may cancel it at any time.
What was about to complete may still complete after that.
-/

namespace BookHub.Auth

/-- What `ExecuteAsync` waits for. The first five are inside the callback. -/
inductive Awaiting where
  | createConnection
  | createChannel
  | exchangeDeclare
  | basicPublish
  | delay
  | retryDelay
  | minute
  | returned
  deriving DecidableEq, Repr

def Awaiting.inCallback : Awaiting → Bool
  | .createConnection | .createChannel | .exchangeDeclare | .basicPublish | .delay => true
  | .retryDelay | .minute | .returned => false

/-- The objects of `using` declarations, numbered as they are created. -/
inductive Disposable where
  | connection (number : Nat)
  | channel (number connection : Nat)
  deriving DecidableEq, Repr

/-- The lines of the log. -/
inductive HeartbeatLine where
  | published
  | retrying (attempt : Nat)
  | exhausted
  deriving DecidableEq, Repr

/-- The service: what it waits for, the attempt that the strategy is at, its token, the objects of the
callback with the innermost first, and all objects it has made that are not disposed of. -/
structure HeartbeatPublisherService where
  awaiting : Awaiting
  attemptNumber : Nat
  isCancellationRequested : Bool
  created : Nat
  scope : List Disposable
  undisposed : List Disposable
  lines : List HeartbeatLine
  deriving DecidableEq, Repr

def maxRetryAttempts : Nat := 5

namespace HeartbeatPublisherService

def start : HeartbeatPublisherService := ⟨.createConnection, 0, false, 0, [], [], []⟩

/-- The callback is left, at its end or by an exception. -/
def leave (s : HeartbeatPublisherService) : HeartbeatPublisherService :=
  { s with scope := [], undisposed := s.undisposed.filter (· ∉ s.scope) }

/-- The `while` of `ExecuteAsync`, with a new execution of the pipeline. -/
def executeAsync (s : HeartbeatPublisherService) : HeartbeatPublisherService :=
  if s.isCancellationRequested then { s with awaiting := .returned }
  else { s with awaiting := .createConnection, attemptNumber := 0 }

/-- The `catch`; its delay raises at once where the token is cancelled. -/
def caught (s : HeartbeatPublisherService) : HeartbeatPublisherService :=
  { s with
    lines := s.lines ++ [.exhausted]
    awaiting := if s.isCancellationRequested then .returned else .minute }

/-- The strategy, after an execution of the callback that has raised. -/
def retry (s : HeartbeatPublisherService) : HeartbeatPublisherService :=
  if s.isCancellationRequested ∨ maxRetryAttempts ≤ s.attemptNumber then s.caught
  else
    { s with
      lines := s.lines ++ [.retrying (s.attemptNumber + 1)]
      awaiting := .retryDelay }

/-- The `while` of the callback. -/
def publishLoop (s : HeartbeatPublisherService) : HeartbeatPublisherService :=
  if s.isCancellationRequested then s.leave.executeAsync else { s with awaiting := .basicPublish }

/-- The strategy, after its delay; it executes nothing for a token that is cancelled. -/
def nextAttempt (s : HeartbeatPublisherService) : HeartbeatPublisherService :=
  if s.isCancellationRequested then { s with attemptNumber := s.attemptNumber + 1 }.caught
  else { s with attemptNumber := s.attemptNumber + 1, awaiting := .createConnection }

/-- An object is made and declared with `using`. -/
def acquire (s : HeartbeatPublisherService) (object : Disposable) (awaiting : Awaiting) :
    HeartbeatPublisherService :=
  { s with
    awaiting := awaiting
    created := s.created + 1
    scope := object :: s.scope
    undisposed := object :: s.undisposed }

/-- The number of the connection of the callback. -/
def connection (s : HeartbeatPublisherService) : Nat :=
  match s.scope with
  | .connection number :: _ => number
  | _ => 0

/-- What the service waits for has completed. -/
def completed (s : HeartbeatPublisherService) : Option HeartbeatPublisherService :=
  match s.awaiting with
  | .createConnection => some (s.acquire (.connection s.created) .createChannel)
  | .createChannel => some (s.acquire (.channel s.created s.connection) .exchangeDeclare)
  | .exchangeDeclare => some s.publishLoop
  | .basicPublish => some { s with lines := s.lines ++ [.published], awaiting := .delay }
  | .delay => some s.publishLoop
  | .retryDelay => some s.nextAttempt
  | .minute => some s.executeAsync
  | .returned => none

/-- What the service waits for has raised; a delay does so only when it is cancelled. -/
def raised (s : HeartbeatPublisherService) : Option HeartbeatPublisherService :=
  match s.awaiting with
  | .createConnection | .createChannel | .exchangeDeclare | .basicPublish => some s.leave.retry
  | .delay => if s.isCancellationRequested then some s.leave.retry else none
  | .retryDelay => if s.isCancellationRequested then some s.caught else none
  | .minute => if s.isCancellationRequested then some { s with awaiting := .returned } else none
  | .returned => none

/-- `StopAsync` of the host. -/
def cancel (s : HeartbeatPublisherService) : Option HeartbeatPublisherService :=
  if s.isCancellationRequested then none else some { s with isCancellationRequested := true }

end HeartbeatPublisherService

inductive HeartbeatEvent where
  | completed
  | raised
  | cancel
  deriving DecidableEq, Repr

/-- The service under any outcomes of what it waits for, cancelled at any time. -/
def heartbeatPublisher : Machine HeartbeatPublisherService HeartbeatEvent where
  step
    | s, .completed => s.completed
    | s, .raised => s.raised
    | s, .cancel => s.cancel

namespace HeartbeatPublisherService

/-! ### What is held, and where it goes on from -/

/-- The objects that the callback holds where it waits. -/
def Holding : Awaiting → List Disposable → Prop
  | .createConnection, held | .retryDelay, held | .minute, held | .returned, held => held = []
  | .createChannel, held => ∃ number, held = [.connection number]
  | .exchangeDeclare, held | .basicPublish, held | .delay, held =>
      ∃ number connection, held = [.channel number connection, .connection connection]

/-- Every object that is not disposed of is one of the running callback; a service that is not cancelled
publishes within five completions, and one that is cancelled ends within three steps, with nothing left
to dispose of. -/
structure WellBehaved (s : HeartbeatPublisherService) : Prop where
  disposed : s.undisposed = s.scope
  holding : Holding s.awaiting s.scope
  publishes : s.isCancellationRequested = false → ∃ n ≤ 5, ∃ s',
    heartbeatPublisher.run s (List.replicate n .completed) = some s' ∧
      s'.lines = s.lines ++ [.published]
  ends : s.isCancellationRequested = true → ∀ events s', heartbeatPublisher.run s events = some s' →
    events.length ≤ 3 ∧ ((∀ event, heartbeatPublisher.step s' event = none) →
      s'.awaiting = .returned ∧ s'.undisposed = [])

structure Held (s : HeartbeatPublisherService) : Prop where
  disposed : s.undisposed = s.scope
  holding : Holding s.awaiting s.scope
  cancelled : s.awaiting = .returned → s.isCancellationRequested = true

/-- Nothing is held between two executions of the callback. -/
def Empty (s : HeartbeatPublisherService) : Prop := s.scope = [] ∧ s.undisposed = []

theorem Held.empty_leave {s : HeartbeatPublisherService} (h : Held s) : Empty s.leave := by
  refine ⟨rfl, ?_⟩
  show s.undisposed.filter (· ∉ s.scope) = []
  rw [h.disposed, List.filter_eq_nil_iff]
  intro object hobject
  simp [hobject]

theorem held_of_empty {s : HeartbeatPublisherService} (h : Empty s)
    (hholding : Holding s.awaiting [])
    (hcancelled : s.awaiting = .returned → s.isCancellationRequested = true) : Held s where
  disposed := h.2.trans h.1.symm
  holding := by rwa [h.1]
  cancelled := hcancelled

theorem Empty.held_caught {s : HeartbeatPublisherService} (h : Empty s) : Held s.caught := by
  refine held_of_empty (s := s.caught) h ?_ ?_
  · unfold caught
    split <;> rfl
  · intro hreturned
    unfold caught at hreturned
    split at hreturned
    · assumption
    · cases hreturned

theorem Empty.held_executeAsync {s : HeartbeatPublisherService} (h : Empty s) :
    Held s.executeAsync := by
  unfold executeAsync
  split
  · rename_i hcancelled
    exact held_of_empty h rfl fun _ => hcancelled
  · exact held_of_empty h rfl (nomatch ·)

theorem Empty.held_retry {s : HeartbeatPublisherService} (h : Empty s) : Held s.retry := by
  unfold retry
  split
  · exact h.held_caught
  · exact held_of_empty h rfl (nomatch ·)

theorem Empty.held_nextAttempt {s : HeartbeatPublisherService} (h : Empty s) :
    Held s.nextAttempt := by
  unfold nextAttempt
  split
  · exact Empty.held_caught h
  · exact held_of_empty h rfl (nomatch ·)

theorem Held.publishLoop {s : HeartbeatPublisherService} (h : Held s)
    (hholding : Holding .basicPublish s.scope) : Held s.publishLoop := by
  unfold HeartbeatPublisherService.publishLoop
  split
  · exact h.empty_leave.held_executeAsync
  · exact ⟨h.disposed, hholding, nofun⟩

/-! ### One step -/

theorem completed_cases {s s' : HeartbeatPublisherService} (hmove : s.completed = some s') :
    (s.awaiting = .createConnection ∧ s' = s.acquire (.connection s.created) .createChannel) ∨
    (s.awaiting = .createChannel ∧
      s' = s.acquire (.channel s.created s.connection) .exchangeDeclare) ∨
    ((s.awaiting = .exchangeDeclare ∨ s.awaiting = .delay) ∧ s' = s.publishLoop) ∨
    (s.awaiting = .basicPublish ∧
      s' = { s with lines := s.lines ++ [.published], awaiting := .delay }) ∨
    (s.awaiting = .retryDelay ∧ s' = s.nextAttempt) ∨
    (s.awaiting = .minute ∧ s' = s.executeAsync) := by
  unfold completed at hmove
  cases hawaiting : s.awaiting with
  | returned =>
      rw [hawaiting] at hmove
      cases hmove
  | _ =>
      rw [hawaiting] at hmove
      cases hmove
      simp

theorem raised_cases {s s' : HeartbeatPublisherService} (hmove : s.raised = some s') :
    (s.awaiting.inCallback = true ∧ s' = s.leave.retry) ∨
    (s.isCancellationRequested = true ∧
      (s.awaiting = .retryDelay ∧ s' = s.caught ∨
        s.awaiting = .minute ∧ s' = { s with awaiting := .returned })) := by
  unfold raised at hmove
  cases hawaiting : s.awaiting with
  | returned =>
      rw [hawaiting] at hmove
      cases hmove
  | createConnection | createChannel | exchangeDeclare | basicPublish =>
      rw [hawaiting] at hmove
      exact .inl ⟨rfl, (Option.some.inj hmove).symm⟩
  | delay =>
      rw [hawaiting] at hmove
      obtain ⟨-, hmove⟩ := Option.ite_none_right_eq_some.mp hmove
      exact .inl ⟨rfl, (Option.some.inj hmove).symm⟩
  | retryDelay | minute =>
      rw [hawaiting] at hmove
      obtain ⟨hcancelled, hmove⟩ := Option.ite_none_right_eq_some.mp hmove
      simp [hcancelled, ← Option.some.inj hmove]

theorem cancel_cases {s s' : HeartbeatPublisherService} (hmove : s.cancel = some s') :
    s.isCancellationRequested = false ∧ s' = { s with isCancellationRequested := true } := by
  obtain ⟨hcancelled, hmove⟩ := Option.ite_none_left_eq_some.mp hmove
  exact ⟨(Bool.not_eq_true _).mp hcancelled, (Option.some.inj hmove).symm⟩

theorem Held.completed {s s' : HeartbeatPublisherService} (h : Held s)
    (hmove : s.completed = some s') : Held s' := by
  have hholding := h.holding
  have hdisposed := h.disposed
  obtain ⟨hawaiting, rfl⟩ | ⟨hawaiting, rfl⟩ | ⟨hawaiting, rfl⟩ | ⟨hawaiting, rfl⟩ |
    ⟨hawaiting, rfl⟩ | ⟨hawaiting, rfl⟩ := completed_cases hmove
  · rw [hawaiting] at hholding
    have hscope : s.scope = [] := hholding
    refine ⟨congrArg _ hdisposed, ⟨s.created, ?_⟩, nofun⟩
    exact congrArg _ hscope
  · rw [hawaiting] at hholding
    obtain ⟨number, hscope⟩ := hholding
    have hconnection : s.connection = number := by rw [connection, hscope]
    refine ⟨congrArg _ hdisposed, ⟨s.created, number, ?_⟩, nofun⟩
    show Disposable.channel s.created s.connection :: s.scope = _
    rw [hconnection, hscope]
  · apply h.publishLoop
    obtain hawaiting | hawaiting := hawaiting <;> rwa [hawaiting] at hholding
  · rw [hawaiting] at hholding
    exact ⟨hdisposed, hholding, nofun⟩
  · rw [hawaiting] at hholding
    exact Empty.held_nextAttempt ⟨hholding, hdisposed.trans hholding⟩
  · rw [hawaiting] at hholding
    exact Empty.held_executeAsync ⟨hholding, hdisposed.trans hholding⟩

theorem Held.raised {s s' : HeartbeatPublisherService} (h : Held s) (hmove : s.raised = some s') :
    Held s' := by
  have hholding := h.holding
  obtain ⟨-, rfl⟩ | ⟨hcancelled, ⟨hawaiting, rfl⟩ | ⟨hawaiting, rfl⟩⟩ := raised_cases hmove
  · exact h.empty_leave.held_retry
  · rw [hawaiting] at hholding
    exact Empty.held_caught ⟨hholding, h.disposed.trans hholding⟩
  · rw [hawaiting] at hholding
    exact ⟨h.disposed, hholding, fun _ => hcancelled⟩

theorem held_step (s : HeartbeatPublisherService) (event : HeartbeatEvent)
    (s' : HeartbeatPublisherService) (h : Held s) (hmove : heartbeatPublisher.step s event = some s') :
    Held s' := by
  cases event with
  | completed => exact h.completed hmove
  | raised => exact h.raised hmove
  | cancel =>
      obtain ⟨-, rfl⟩ := cancel_cases hmove
      exact ⟨h.disposed, h.holding, fun _ => rfl⟩

/-! ### After the cancellation -/

/-- The most steps that a service takes once it is cancelled. -/
def remaining : Awaiting → Nat
  | .createConnection => 3
  | .createChannel | .basicPublish => 2
  | .exchangeDeclare | .delay | .retryDelay | .minute => 1
  | .returned => 0

theorem remaining_pos {awaiting : Awaiting} (h : awaiting.inCallback = true) :
    0 < remaining awaiting := by
  cases awaiting with
  | retryDelay | minute | returned => cases h
  | _ => decide

theorem cancelled_completed {s s' : HeartbeatPublisherService}
    (h : s.isCancellationRequested = true) (hmove : s.completed = some s') :
    s'.isCancellationRequested = true ∧ remaining s'.awaiting < remaining s.awaiting := by
  obtain ⟨hawaiting, rfl⟩ | ⟨hawaiting, rfl⟩ | ⟨hawaiting, rfl⟩ | ⟨hawaiting, rfl⟩ |
    ⟨hawaiting, rfl⟩ | ⟨hawaiting, rfl⟩ := completed_cases hmove
  · simp [acquire, hawaiting, h, remaining]
  · simp [acquire, hawaiting, h, remaining]
  · obtain hawaiting | hawaiting := hawaiting <;>
      simp [publishLoop, leave, executeAsync, hawaiting, h, remaining]
  · simp [hawaiting, h, remaining]
  · simp [nextAttempt, caught, hawaiting, h, remaining]
  · simp [executeAsync, hawaiting, h, remaining]

theorem cancelled_raised {s s' : HeartbeatPublisherService}
    (h : s.isCancellationRequested = true) (hmove : s.raised = some s') :
    s'.isCancellationRequested = true ∧ remaining s'.awaiting < remaining s.awaiting := by
  obtain ⟨hcallback, rfl⟩ | ⟨-, ⟨hawaiting, rfl⟩ | ⟨hawaiting, rfl⟩⟩ := raised_cases hmove
  · have hpos := remaining_pos hcallback
    simpa [retry, caught, leave, h, remaining] using hpos
  · simp [caught, hawaiting, h, remaining]
  · simp [hawaiting, h, remaining]

theorem cancelled_step (s : HeartbeatPublisherService) (event : HeartbeatEvent)
    (s' : HeartbeatPublisherService) (h : s.isCancellationRequested = true)
    (hmove : heartbeatPublisher.step s event = some s') :
    s'.isCancellationRequested = true ∧ remaining s'.awaiting < remaining s.awaiting := by
  cases event with
  | completed => exact cancelled_completed h hmove
  | raised => exact cancelled_raised h hmove
  | cancel =>
      obtain ⟨hnot, -⟩ := cancel_cases hmove
      rw [h] at hnot
      cases hnot

/-- A cancelled service that has not ended goes on when what it waits for has completed. -/
theorem returned_of_stuck {s : HeartbeatPublisherService}
    (h : ∀ event, heartbeatPublisher.step s event = none) : s.awaiting = .returned := by
  have hcompleted : s.completed = none := h .completed
  unfold completed at hcompleted
  cases hawaiting : s.awaiting with
  | returned => rfl
  | _ =>
      rw [hawaiting] at hcompleted
      cases hcompleted

theorem Held.ends {s : HeartbeatPublisherService} (h : Held s)
    (hcancelled : s.isCancellationRequested = true) (events : List HeartbeatEvent)
    (s' : HeartbeatPublisherService) (hrun : heartbeatPublisher.run s events = some s') :
    events.length ≤ 3 ∧ ((∀ event, heartbeatPublisher.step s' event = none) →
      s'.awaiting = .returned ∧ s'.undisposed = []) := by
  constructor
  · have hlength := @Machine.length_le_of_rank _ _ heartbeatPublisher _
      (fun s => remaining s.awaiting) cancelled_step _ _ _ hcancelled hrun
    have hrank : remaining s.awaiting ≤ 3 := by
      cases s.awaiting <;> decide
    omega
  · intro hstuck
    have hreturned := returned_of_stuck hstuck
    have hheld : Held s' := Machine.invariant held_step h hrun
    refine ⟨hreturned, ?_⟩
    have hholding := hheld.holding
    rw [hreturned] at hholding
    rw [hheld.disposed]
    exact hholding

/-! ### Before it -/

/-- From wherever it waits, the service gets to its next heartbeat. -/
theorem Held.publishes {s : HeartbeatPublisherService} (h : Held s)
    (hcancelled : s.isCancellationRequested = false) : ∃ n ≤ 5, ∃ s',
      heartbeatPublisher.run s (List.replicate n .completed) = some s' ∧
        s'.lines = s.lines ++ [.published] := by
  have hreturned := h.cancelled
  obtain ⟨awaiting, attemptNumber, cancelled, created, scope, undisposed, lines⟩ := s
  have hfalse : cancelled = false := hcancelled
  subst hfalse
  cases awaiting with
  | createConnection => exact ⟨4, by decide, _, rfl, rfl⟩
  | createChannel => exact ⟨3, by decide, _, rfl, rfl⟩
  | exchangeDeclare => exact ⟨2, by decide, _, rfl, rfl⟩
  | basicPublish => exact ⟨1, by decide, _, rfl, rfl⟩
  | delay => exact ⟨2, by decide, _, rfl, rfl⟩
  | retryDelay => exact ⟨5, by decide, _, rfl, rfl⟩
  | minute => exact ⟨5, by decide, _, rfl, rfl⟩
  | returned => cases hreturned rfl

/-- In every state of every run. -/
theorem always_wellBehaved (events : List HeartbeatEvent) :
    heartbeatPublisher.Always WellBehaved start events := by
  apply @Machine.always_of_meets _ _ _ (fun _ _ => True) Held
  · exact fun s event s' h _ hmove => held_step s event s' h hmove
  · intro s h
    exact ⟨h.disposed, h.holding, h.publishes, h.ends⟩
  · exact ⟨rfl, rfl, nofun⟩
  · exact Machine.meets_of_forall (fun _ _ => trivial) start events

/-! ### The numbers of the failures

The strategy counts the executions of the callback that have raised, however long each of them has
published before, and nothing that succeeds takes the count back. So the line of a failure follows from
the number of failures before it alone. -/

/-- The line of the failure with this number, counted from the start of the service. -/
def failureLine (number : Nat) : HeartbeatLine :=
  if number % 6 = 5 then .exhausted else .retrying (number % 6 + 1)

def failures (s : HeartbeatPublisherService) : List HeartbeatLine :=
  s.lines.filter (· ≠ .published)

/-- The attempt that the strategy is at after so many failures. -/
def AtAttempt (number attemptNumber : Nat) : Awaiting → Prop
  | .retryDelay => number % 6 = attemptNumber + 1
  | .minute => number % 6 = 0
  | .returned => False
  | _ => number % 6 = attemptNumber

structure Numbered (number : Nat) (s : HeartbeatPublisherService) : Prop where
  cancelled : s.isCancellationRequested = false
  failures : s.failures = (List.range number).map failureLine
  attempt : AtAttempt number s.attemptNumber s.awaiting

theorem atAttempt_of_inCallback {number attemptNumber : Nat} {awaiting : Awaiting}
    (hawaiting : awaiting.inCallback = true) :
    AtAttempt number attemptNumber awaiting ↔ number % 6 = attemptNumber := by
  cases awaiting with
  | retryDelay | minute | returned => cases hawaiting
  | _ => exact Iff.rfl

theorem Numbered.completed {number : Nat} {s s' : HeartbeatPublisherService} (h : Numbered number s)
    (hmove : s.completed = some s') : Numbered number s' := by
  have hattempt := h.attempt
  have hcancelled := h.cancelled
  have hfailures := h.failures
  obtain ⟨hawaiting, rfl⟩ | ⟨hawaiting, rfl⟩ | ⟨hawaiting, rfl⟩ | ⟨hawaiting, rfl⟩ |
    ⟨hawaiting, rfl⟩ | ⟨hawaiting, rfl⟩ := completed_cases hmove
  · rw [hawaiting] at hattempt
    exact ⟨hcancelled, hfailures, hattempt⟩
  · rw [hawaiting] at hattempt
    exact ⟨hcancelled, hfailures, hattempt⟩
  · have hnumber : number % 6 = s.attemptNumber := by
      obtain hawaiting | hawaiting := hawaiting <;> rwa [hawaiting] at hattempt
    have hloop : s.publishLoop = { s with awaiting := .basicPublish } := by
      simp [publishLoop, hcancelled]
    rw [hloop]
    exact ⟨hcancelled, hfailures, hnumber⟩
  · rw [hawaiting] at hattempt
    refine ⟨hcancelled, ?_, hattempt⟩
    rw [← hfailures]
    simp [HeartbeatPublisherService.failures]
  · rw [hawaiting] at hattempt
    have hnext : s.nextAttempt =
        { s with attemptNumber := s.attemptNumber + 1, awaiting := .createConnection } := by
      simp [nextAttempt, hcancelled]
    rw [hnext]
    exact ⟨hcancelled, hfailures, hattempt⟩
  · rw [hawaiting] at hattempt
    have hexecute : s.executeAsync = { s with awaiting := .createConnection, attemptNumber := 0 } := by
      simp [executeAsync, hcancelled]
    rw [hexecute]
    exact ⟨hcancelled, hfailures, hattempt⟩

theorem Numbered.raised {number : Nat} {s s' : HeartbeatPublisherService} (h : Numbered number s)
    (hmove : s.raised = some s') : Numbered (number + 1) s' := by
  have hcancelled := h.cancelled
  obtain ⟨hcallback, rfl⟩ | ⟨htrue, -⟩ := raised_cases hmove
  · have hattempt := (atAttempt_of_inCallback hcallback).mp h.attempt
    have hrange : (List.range (number + 1)).map failureLine = s.failures ++ [failureLine number] := by
      rw [List.range_succ, List.map_append, h.failures]
      rfl
    by_cases hlast : maxRetryAttempts ≤ s.attemptNumber
    · have hfive : number % 6 = 5 := by
        unfold maxRetryAttempts at hlast
        omega
      have hretry : s.leave.retry =
          { s.leave with lines := s.lines ++ [.exhausted], awaiting := .minute } := by
        simp [retry, caught, leave, hcancelled, hlast]
      rw [hretry]
      refine ⟨hcancelled, ?_, ?_⟩
      · rw [hrange, failureLine, if_pos hfive]
        simp [HeartbeatPublisherService.failures]
      · show (number + 1) % 6 = 0
        omega
    · have hretry : s.leave.retry =
          { s.leave with
            lines := s.lines ++ [.retrying (s.attemptNumber + 1)], awaiting := .retryDelay } := by
        simp [retry, leave, hcancelled, hlast]
      unfold maxRetryAttempts at hlast
      have hnot : number % 6 ≠ 5 := by omega
      rw [hretry]
      refine ⟨hcancelled, ?_, ?_⟩
      · rw [hrange, failureLine, if_neg hnot, hattempt]
        simp [HeartbeatPublisherService.failures]
      · show (number + 1) % 6 = s.attemptNumber + 1
        omega
  · rw [hcancelled] at htrue
    cases htrue

theorem Numbered.run {number : Nat} {s s' : HeartbeatPublisherService} {events : List HeartbeatEvent}
    (h : Numbered number s) (hevents : .cancel ∉ events)
    (hrun : heartbeatPublisher.run s events = some s') :
    Numbered (number + events.count .raised) s' := by
  induction events generalizing number s with
  | nil =>
      cases hrun
      exact h
  | cons event rest ih =>
      obtain ⟨mid, hmid, hrest⟩ := Option.bind_eq_some_iff.mp hrun
      obtain ⟨hevent, hnot⟩ := not_or.mp (mt List.mem_cons.mpr hevents)
      cases event with
      | completed => exact ih (h.completed hmid) hnot hrest
      | raised =>
          have hfinal := ih (h.raised hmid) hnot hrest
          rw [List.count_cons_self]
          rwa [Nat.add_right_comm, Nat.add_assoc] at hfinal
      | cancel => exact absurd rfl hevent

/-- Five failures in a row of six are retried, with the numbers 1 to 5, and the sixth is waited over for
a minute, whatever was published in between. -/
theorem failures_eq {events : List HeartbeatEvent} (hevents : .cancel ∉ events)
    {s : HeartbeatPublisherService} (hrun : heartbeatPublisher.run start events = some s) :
    s.failures = (List.range (events.count .raised)).map failureLine := by
  have h : Numbered 0 start := ⟨rfl, rfl, rfl⟩
  have hfinal := h.run hevents hrun
  rw [Nat.zero_add] at hfinal
  exact hfinal.failures

/-- A connection that is refused, and one that is lost after a heartbeat. -/
theorem failures_eq_two : ∃ s, heartbeatPublisher.run start
    (.raised :: List.replicate 6 .completed ++ [.raised]) = some s ∧
      s.failures = (List.range 2).map failureLine :=
  ⟨_, rfl, @failures_eq (.raised :: List.replicate 6 .completed ++ [.raised]) (by decide) _ rfl⟩

end HeartbeatPublisherService

end BookHub.Auth
