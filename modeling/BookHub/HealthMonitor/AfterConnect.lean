import Mathlib.Algebra.Group.Nat.Defs
import BookHub.Base.Machine

/-!
# The retries of the heartbeat subscriber

`after_connect` declares the exchange and then the queue, each by a function that calls itself again,
after a delay, for as long as the broker refuses. Both count their failures in one place, the
persistent term, and only a declared exchange resets it.

The delay is computed with floats: the power raises where it leaves their range, and so does the
product, and the cap comes only afterwards. What is raised in `ensure_exchange` is rescued there, and
`after_connect` goes on to the queue; what is raised in `ensure_queue` leaves `after_connect`.
-/

namespace BookHub.HealthMonitor

inductive ArithmeticError where
  | badArgument
  deriving DecidableEq, Repr

/-- The first power of two that is no float. -/
@[irreducible] def floatBound : Nat := 2 ^ 1024

/-- The float result of an operation whose exact result is a natural number. -/
def float (exact : Nat) : Except ArithmeticError Nat :=
  if exact < floatBound then .ok exact else .error .badArgument

def initialRetryDelay : Nat := 1000

def maxRetryDelay : Nat := 64000

def calculateDelay (attempt : Nat) : Except ArithmeticError Nat := do
  let power ← float (2 ^ attempt)
  let delay ← float (initialRetryDelay * power)
  return min delay maxRetryDelay

/-- What `after_connect` waits for, if it is running. -/
inductive SubscriberPoint where
  | idle
  | exchange
  | queue
  deriving DecidableEq, Repr

/-- The answer to a declaration; with a channel that is gone the call exits. -/
inductive Declared where
  | ok
  | error
  | exit
  deriving DecidableEq, Repr

/-- The calls of `after_connect` so far: where the present one is, the persistent term, and for each
declaration that failed the milliseconds it slept, or what computing them raised. -/
structure Subscriber where
  point : SubscriberPoint
  backoff : Nat
  delays : List (Except ArithmeticError Nat)

namespace Subscriber

/-- `start_link` has put the term. -/
def start : Subscriber := ⟨.idle, 0, []⟩

def incrementBackoff (s : Subscriber) : Nat × Subscriber :=
  (s.backoff, { s with backoff := s.backoff + 1 })

def resetBackoff (s : Subscriber) : Subscriber := { s with backoff := 0 }

/-- The branch of a refused declaration: sleep and declare again, unless computing the delay raises,
which leads to `raised`. -/
def refused (s : Subscriber) (raised : SubscriberPoint) : Subscriber :=
  let (attempt, s) := s.incrementBackoff
  match calculateDelay attempt with
  | .ok delay => { s with delays := s.delays ++ [.ok delay] }
  | .error error => { s with delays := s.delays ++ [.error error], point := raised }

def ensureExchange (s : Subscriber) : Declared → Subscriber
  | .ok => { s.resetBackoff with point := .queue }
  | .error => s.refused .queue
  | .exit => { s with point := .idle }

def ensureQueue (s : Subscriber) : Declared → Subscriber
  | .ok => { s with point := .idle }
  | .error => s.refused .idle
  | .exit => { s with point := .idle }

end Subscriber

inductive SubscriberEvent where
  | afterConnect
  | exchange (declared : Declared)
  | queue (declared : Declared)
  deriving DecidableEq, Repr

/-- Calls of `after_connect`, one after another, under any answers of the broker. -/
def subscriber : Machine Subscriber SubscriberEvent where
  step s event :=
    match event with
    | .afterConnect => if s.point = .idle then some { s with point := .exchange } else none
    | .exchange declared => if s.point = .exchange then some (s.ensureExchange declared) else none
    | .queue declared => if s.point = .queue then some (s.ensureQueue declared) else none

/-- The numbers of the declarations that failed, each counted from the last exchange that was declared
before it; `number` is the next one. -/
def failedNumbers (number : Nat) : List SubscriberEvent → List Nat
  | [] => []
  | .exchange .ok :: rest => failedNumbers 0 rest
  | .exchange .error :: rest => number :: failedNumbers (number + 1) rest
  | .queue .error :: rest => number :: failedNumbers (number + 1) rest
  | _ :: rest => failedNumbers number rest

namespace Subscriber

/-! ### One delay -/

theorem float_of_lt {exact : Nat} (h : exact < floatBound) : float exact = .ok exact := if_pos h

theorem float_of_le {exact : Nat} (h : floatBound ≤ exact) : float exact = .error .badArgument :=
  if_neg (Nat.not_lt.mpr h)

/-- A thousand is less than `2 ^ 10` and more than `2 ^ 9`. -/
theorem product_lt_floatBound_iff (attempt : Nat) :
    initialRetryDelay * 2 ^ attempt < floatBound ↔ attempt < 1015 := by
  have hpos : 0 < 2 ^ attempt := Nat.two_pow_pos attempt
  unfold initialRetryDelay floatBound
  constructor
  · intro h
    by_contra hle
    have hexp : 1024 ≤ attempt + 9 := by omega
    have hpow := Nat.pow_le_pow_right Nat.two_pos hexp
    rw [Nat.pow_add 2 attempt] at hpow
    omega
  · intro h
    have hexp : attempt + 10 ≤ 1024 := by omega
    have hpow := Nat.pow_le_pow_right Nat.two_pos hexp
    rw [Nat.pow_add 2 attempt] at hpow
    omega

theorem calculateDelay_of_lt {attempt : Nat} (h : attempt < 1015) :
    calculateDelay attempt = .ok (min (initialRetryDelay * 2 ^ attempt) maxRetryDelay) := by
  have hproduct := (product_lt_floatBound_iff attempt).mpr h
  have hpower : 2 ^ attempt < floatBound :=
    Nat.lt_of_le_of_lt (Nat.le_mul_of_pos_left _ (by decide)) hproduct
  simp only [calculateDelay, float_of_lt hpower, bind, Except.bind, float_of_lt hproduct, pure,
    Except.pure]

theorem calculateDelay_of_le {attempt : Nat} (h : 1015 ≤ attempt) :
    calculateDelay attempt = .error .badArgument := by
  have hproduct : floatBound ≤ initialRetryDelay * 2 ^ attempt := by
    rw [← Nat.not_lt, product_lt_floatBound_iff]
    omega
  by_cases hpower : 2 ^ attempt < floatBound
  · simp only [calculateDelay, float_of_lt hpower, bind, Except.bind, float_of_le hproduct]
  · simp only [calculateDelay, float_of_le (Nat.not_lt.mp hpower), bind, Except.bind]

theorem calculateDelay_eq_iff (attempt : Nat) :
    calculateDelay attempt = .ok (min (1000 * 2 ^ attempt) 64000) ↔ attempt < 1015 := by
  refine ⟨fun h => ?_, calculateDelay_of_lt⟩
  by_contra hle
  rw [calculateDelay_of_le (Nat.not_lt.mp hle)] at h
  cases h

/-! ### Runs -/

theorem backoff_refused (s : Subscriber) (raised : SubscriberPoint) :
    (s.refused raised).backoff = s.backoff + 1 := by
  unfold refused incrementBackoff
  cases hdelay : calculateDelay s.backoff with
  | ok delay => simp only [hdelay]
  | error error => simp only [hdelay]

theorem delays_refused (s : Subscriber) (raised : SubscriberPoint) :
    (s.refused raised).delays = s.delays ++ [calculateDelay s.backoff] := by
  unfold refused incrementBackoff
  cases hdelay : calculateDelay s.backoff with
  | ok delay => simp only [hdelay]
  | error error => simp only [hdelay]

/-- The persistent term is the next number, and the delays are those of the numbers so far. -/
theorem delays_step {s s' : Subscriber} {event : SubscriberEvent}
    (h : subscriber.step s event = some s') (rest : List SubscriberEvent) :
    s.delays ++ (failedNumbers s.backoff (event :: rest)).map calculateDelay =
      s'.delays ++ (failedNumbers s'.backoff rest).map calculateDelay := by
  have hrefused : ∀ raised, s.delays ++
      (s.backoff :: failedNumbers (s.backoff + 1) rest).map calculateDelay =
      (s.refused raised).delays ++
        (failedNumbers (s.refused raised).backoff rest).map calculateDelay := by
    intro raised
    rw [backoff_refused, delays_refused, List.map_cons, List.append_assoc, List.singleton_append]
  cases event with
  | afterConnect =>
      obtain ⟨-, hmove⟩ := Option.ite_none_right_eq_some.mp h
      obtain rfl := Option.some.inj hmove
      rfl
  | exchange declared =>
      obtain ⟨-, hmove⟩ := Option.ite_none_right_eq_some.mp h
      obtain rfl := Option.some.inj hmove
      cases declared with
      | ok => rfl
      | error => exact hrefused .queue
      | exit => rfl
  | queue declared =>
      obtain ⟨-, hmove⟩ := Option.ite_none_right_eq_some.mp h
      obtain rfl := Option.some.inj hmove
      cases declared with
      | ok => rfl
      | error => exact hrefused .idle
      | exit => rfl

theorem delays_of_run {s s' : Subscriber} {events : List SubscriberEvent}
    (hrun : subscriber.run s events = some s') :
    s'.delays = s.delays ++ (failedNumbers s.backoff events).map calculateDelay := by
  induction events generalizing s with
  | nil =>
      cases hrun
      exact (List.append_nil _).symm
  | cons event rest ih =>
      obtain ⟨mid, hmove, hrest⟩ := Option.bind_eq_some_iff.mp hrun
      rw [ih hrest, delays_step hmove rest]

theorem delays_of_start {s : Subscriber} {events : List SubscriberEvent}
    (hrun : subscriber.run start events = some s) :
    s.delays = (failedNumbers 0 events).map calculateDelay :=
  delays_of_run hrun

theorem map_calculateDelay_iff (numbers : List Nat) :
    numbers.map calculateDelay = numbers.map (fun k => .ok (min (1000 * 2 ^ k) 64000)) ↔
      ∀ k ∈ numbers, k < 1015 := by
  rw [List.map_inj_left]
  exact forall_congr' fun k => imp_congr_right fun _ => calculateDelay_eq_iff k

/-- Each declaration that fails sleeps for its delay, exactly if no number reaches 1015. -/
theorem delays_iff (events : List SubscriberEvent) (s : Subscriber)
    (hrun : subscriber.run start events = some s) :
    s.delays = (failedNumbers 0 events).map (fun k => .ok (min (1000 * 2 ^ k) 64000)) ↔
      ∀ k ∈ failedNumbers 0 events, k < 1015 := by
  rw [delays_of_start hrun]
  exact map_calculateDelay_iff _

/-- Three refusals, two of them of the queue. -/
def refusedThrice : List SubscriberEvent :=
  [.afterConnect, .exchange .error, .exchange .ok, .queue .error, .queue .error, .queue .ok]

theorem delays_refusedThrice : ∃ s, subscriber.run start refusedThrice = some s ∧
    s.delays = [.ok 1000, .ok 1000, .ok 2000] := by
  have hsome : (subscriber.run start refusedThrice).isSome = true := by decide +kernel
  obtain ⟨s, hrun⟩ := Option.isSome_iff_exists.mp hsome
  exact ⟨s, hrun, (delays_iff refusedThrice s hrun).mpr (by decide)⟩

/-! ### A broker that is away for long -/

/-- A broker that refuses the exchange once more than the float range allows. -/
def longOutage : List SubscriberEvent := .afterConnect :: List.replicate 1016 (.exchange .error)

theorem failedNumbers_replicate (number count : Nat) :
    failedNumbers number (List.replicate count (.exchange .error)) = List.range' number count := by
  induction count generalizing number with
  | zero => rfl
  | succ count ih =>
      rw [List.replicate_succ, failedNumbers, ih, List.range'_succ]

theorem exists_run_refused (count : Nat) {s : Subscriber} (hpoint : s.point = .exchange)
    (hbackoff : s.backoff + count ≤ 1015) :
    ∃ s', subscriber.run s (List.replicate (count + 1) (.exchange .error)) = some s' := by
  have hmove : subscriber.step s (.exchange .error) = some (s.refused .queue) := if_pos hpoint
  induction count generalizing s with
  | zero => exact ⟨s.refused .queue, Option.bind_eq_some_iff.mpr ⟨_, hmove, rfl⟩⟩
  | succ count ih =>
      have hlt : s.backoff < 1015 := by omega
      have hstays : (s.refused .queue).point = .exchange := by
        rw [refused, incrementBackoff]
        simp only [calculateDelay_of_lt hlt, hpoint]
      have hnext : (s.refused .queue).backoff + count ≤ 1015 := by
        rw [backoff_refused]
        omega
      obtain ⟨s', hrun⟩ := ih hstays hnext (if_pos hstays)
      exact ⟨s', Option.bind_eq_some_iff.mpr ⟨_, hmove, hrun⟩⟩

/-- Number 1015 raises. -/
theorem not_delays : ∃ s, subscriber.run start longOutage = some s ∧
    s.delays ≠ (failedNumbers 0 longOutage).map (fun k => .ok (min (1000 * 2 ^ k) 64000)) := by
  have hskip (rest : List SubscriberEvent) :
      failedNumbers 0 (.afterConnect :: rest) = failedNumbers 0 rest := rfl
  have hnumbers : 1015 ∈ failedNumbers 0 longOutage := by
    rw [longOutage, hskip, failedNumbers_replicate]
    exact List.mem_range'_1.mpr (by omega)
  have hfirst : subscriber.step start .afterConnect = some { start with point := .exchange } := rfl
  obtain ⟨s, hrest⟩ := @exists_run_refused 1015 { start with point := .exchange } rfl (Nat.le_refl _)
  have hrun : subscriber.run start longOutage = some s := by
    rw [longOutage]
    exact Option.bind_eq_some_iff.mpr ⟨_, hfirst, hrest⟩
  refine ⟨s, hrun, fun h => ?_⟩
  rw [delays_of_start hrun, map_calculateDelay_iff] at h
  exact absurd (h 1015 hnumbers) (Nat.lt_irrefl 1015)

end Subscriber

end BookHub.HealthMonitor
