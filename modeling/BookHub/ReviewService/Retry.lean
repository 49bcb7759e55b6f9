import Mathlib.Algebra.Group.Int.Defs
import Mathlib.Algebra.Group.Nat.Defs
import Mathlib.Algebra.Order.Ring.Int
import Mathlib.Tactic.Ring

/-!
# The back-off of the retry loops

The sync and the consumer sleep for `getExponentialBackoffDelay attempt` before each attempt. The power
is a `float64`, which is exact up to `2 ^ 1023` and infinite from there on; it is converted to a
`time.Duration`, an `int64` of nanoseconds, and then multiplied by `10 ^ 9` with wrap-around, before
the cap is applied. What the conversion makes of a power that is out of range is left to the
architecture the service is built for.
-/

namespace BookHub.ReviewService

/-- The architectures the image is built for. -/
inductive Arch where
  | amd64
  | arm64
  deriving DecidableEq, Repr

/-- `math.Pow(2, float64(attempt))`; `none` is `+Inf`. -/
def pow2 (attempt : Nat) : Option Nat :=
  if attempt < 1024 then some (2 ^ attempt) else none

/-- Out of range, amd64 converts to the smallest `int64` and arm64 to the largest. -/
def Arch.outOfRange : Arch → Int
  | amd64 => -2 ^ 63
  | arm64 => 2 ^ 63 - 1

/-- The conversion of a power to an `int64`. -/
def toInt64 (arch : Arch) : Option Nat → Int
  | some power => if power < 2 ^ 63 then power else arch.outOfRange
  | none => arch.outOfRange

/-- `time.Second`, in nanoseconds. -/
def second : Int := 10 ^ 9

/-- Ten minutes. -/
def MAX_DELAY : Int := 600 * second

def getExponentialBackoffDelay (arch : Arch) (attempt : Nat) : Int :=
  let delay := (toInt64 arch (pow2 attempt) * second).bmod (2 ^ 64)
  if delay > MAX_DELAY then MAX_DELAY else delay

/-- What a retry loop has done: the delays it slept, and what the attempt it ended with returned. -/
structure Retried (ρ σ : Type) where
  slept : List Int
  result : Option ρ
  state : σ

/-- A retry loop, over what its attempts meet: sleep, count the attempt, and leave with the first one
that returns a result. -/
def retry {ε ρ σ : Type} (arch : Arch) (body : ε → σ → Option ρ × σ) :
    Nat → σ → List ε → Retried ρ σ
  | _, s, [] => ⟨[], none, s⟩
  | attempt, s, met :: rest =>
      let delay := getExponentialBackoffDelay arch attempt
      match body met s with
      | (some result, s') => ⟨[delay], some result, s'⟩
      | (none, s') =>
          let further := retry arch body (attempt + 1) s' rest
          { further with slept := delay :: further.slept }

/-- What the delay is for: it doubles from one second up to ten minutes. -/
structure BackOff (arch : Arch) (attempt : Nat) : Prop where
  eq : getExponentialBackoffDelay arch attempt = min (2 ^ attempt * second) MAX_DELAY
  second_le : second ≤ getExponentialBackoffDelay arch attempt
  le_max : getExponentialBackoffDelay arch attempt ≤ MAX_DELAY
  monotone : ∀ earlier ≤ attempt,
    getExponentialBackoffDelay arch earlier ≤ getExponentialBackoffDelay arch attempt

/-- The attempts whose product is positive after the wrap. -/
def WrapsPositive (attempt : Nat) : Prop :=
  attempt ≤ 33 ∨ attempt ∈ [37, 41, 42, 45, 47, 50, 51, 53]

instance (attempt : Nat) : Decidable (WrapsPositive attempt) :=
  inferInstanceAs (Decidable (_ ∨ _))

/-! ### The product, after the wrap -/

theorem delay_le_max (arch : Arch) (attempt : Nat) :
    getExponentialBackoffDelay arch attempt ≤ MAX_DELAY := by
  simp only [getExponentialBackoffDelay]
  split <;> omega

theorem toInt64_pow2_of_lt (arch : Arch) {attempt : Nat} (h : attempt < 63) :
    toInt64 arch (pow2 attempt) = 2 ^ attempt := by
  have hpow : 2 ^ attempt < 2 ^ 63 := Nat.pow_lt_pow_right (by decide) h
  rw [pow2, if_pos (by omega), toInt64, if_pos hpow]
  push_cast
  rfl

theorem toInt64_pow2_of_le (arch : Arch) {attempt : Nat} (h : 63 ≤ attempt) :
    toInt64 arch (pow2 attempt) = arch.outOfRange := by
  have hpow : 2 ^ 63 ≤ 2 ^ attempt := Nat.pow_le_pow_right (by decide) h
  unfold pow2
  split
  · rw [toInt64, if_neg (by omega)]
  · rfl

/-- From the 55th attempt on every bit of the product is wrapped away, or the conversion is out of
range; on arm64 this leaves minus one second. -/
theorem delay_nonpos_of_le (arch : Arch) {attempt : Nat} (h : 55 ≤ attempt) :
    getExponentialBackoffDelay arch attempt ≤ 0 := by
  by_cases hrange : attempt < 63
  · have hzero : ((2 : Int) ^ attempt * second).bmod (2 ^ 64) = 0 := by
      apply Int.bmod_eq_zero_of_dvd
      have hsplit : (2 : Int) ^ attempt * second = 2 ^ 64 * (2 ^ (attempt - 55) * 5 ^ 9) := by
        have hexp : attempt = 55 + (attempt - 55) := by omega
        conv => lhs; rw [hexp, pow_add]
        show 2 ^ 55 * 2 ^ (attempt - 55) * 10 ^ 9 = _
        ring
      rw [hsplit]
      exact Dvd.intro _ rfl
    simp only [getExponentialBackoffDelay, toInt64_pow2_of_lt arch hrange, hzero]
    decide
  · simp only [getExponentialBackoffDelay, toInt64_pow2_of_le arch (Nat.le_of_not_lt hrange)]
    cases arch with
    | amd64 => decide
    | arm64 => decide

/-- Below, each product is computed. -/
theorem delay_of_lt (arch : Arch) {attempt : Nat} (h : attempt < 55) :
    if WrapsPositive attempt
    then getExponentialBackoffDelay arch attempt = min (2 ^ attempt * second) MAX_DELAY
    else getExponentialBackoffDelay arch attempt ≤ 0 := by
  simp only [getExponentialBackoffDelay, toInt64_pow2_of_lt arch (show attempt < 63 by omega)]
  revert attempt
  decide +kernel

theorem delay_of_wrapsPositive (arch : Arch) {attempt : Nat} (h : WrapsPositive attempt) :
    getExponentialBackoffDelay arch attempt = min (2 ^ attempt * second) MAX_DELAY := by
  have hlt : attempt < 55 := by
    by_contra hge
    unfold WrapsPositive at h
    simp only [List.mem_cons, List.not_mem_nil, or_false] at h
    omega
  have hdelay := delay_of_lt arch hlt
  rwa [if_pos h] at hdelay

theorem delay_nonpos (arch : Arch) {attempt : Nat} (h : ¬WrapsPositive attempt) :
    getExponentialBackoffDelay arch attempt ≤ 0 := by
  by_cases hlt : attempt < 55
  · have hdelay := delay_of_lt arch hlt
    rwa [if_neg h] at hdelay
  · exact delay_nonpos_of_le arch (by omega)

/-! ### What the loops sleep, and how they end -/

/-- A loop that has left did so with one of its attempts, and all before it returned nothing. -/
theorem retry_eq_some {ε ρ σ : Type} {arch : Arch} {body : ε → σ → Option ρ × σ} {attempt : Nat}
    {s : σ} {met : List ε} {result : ρ} (h : (retry arch body attempt s met).result = some result) :
    ∃ before last rest, met = before ++ last :: rest ∧
      (retry arch body attempt s before).result = none ∧
      body last (retry arch body attempt s before).state =
        (some result, (retry arch body attempt s met).state) := by
  induction met generalizing attempt s with
  | nil => cases h
  | cons first rest ih =>
      cases houtcome : body first s with
      | mk outcome s' =>
          cases outcome with
          | some value =>
              simp only [retry, houtcome] at h ⊢
              exact ⟨[], first, rest, rfl, rfl, by rw [← h]; exact houtcome⟩
          | none =>
              simp only [retry, houtcome] at h ⊢
              obtain ⟨before, last, tail, hsplit, hnone, hlast⟩ := ih h
              refine ⟨first :: before, last, tail, by rw [hsplit, List.cons_append], ?_⟩
              simp only [retry, houtcome]
              exact ⟨hnone, hlast⟩

/-- Every attempt number is reached: the loop sleeps the delay of the `n`th one before it. -/
theorem slept_retry {ε ρ σ : Type} (arch : Arch) (body : ε → σ → Option ρ × σ)
    (hfail : ∀ met s, (body met s).1 = none) (attempt : Nat) (s : σ) (met : List ε) :
    (retry arch body attempt s met).slept =
      (List.range' attempt met.length).map (getExponentialBackoffDelay arch) := by
  induction met generalizing attempt s with
  | nil => rfl
  | cons first rest ih =>
      have hnone := hfail first s
      rw [retry]
      generalize body first s = outcome at hnone
      obtain ⟨result, s'⟩ := outcome
      dsimp only at hnone
      subst hnone
      rw [List.length_cons, List.range'_succ, List.map_cons, ← ih (attempt + 1) s']

/-- The delay is the capped power of two exactly where the product is positive after the wrap; at
every other attempt the loop does not sleep at all. -/
theorem backOff_iff (arch : Arch) (attempt : Nat) :
    BackOff arch attempt ↔ WrapsPositive attempt := by
  constructor
  · intro h
    by_contra hwraps
    have hnonpos := delay_nonpos arch hwraps
    have hsecond := h.second_le
    unfold second at hsecond
    omega
  · intro h
    have heq := delay_of_wrapsPositive arch h
    have hone : (1 : Int) ≤ 2 ^ attempt := one_le_pow₀ (by decide)
    refine ⟨heq, ?_, delay_le_max arch attempt, ?_⟩
    · rw [heq]
      unfold MAX_DELAY second
      omega
    · intro earlier hle
      by_cases hearlier : WrapsPositive earlier
      · have hpow : (2 : Int) ^ earlier ≤ 2 ^ attempt := pow_le_pow_right₀ (by decide) hle
        rw [delay_of_wrapsPositive arch hearlier, heq]
        unfold MAX_DELAY second
        omega
      · have hnonpos := delay_nonpos arch hearlier
        rw [heq]
        unfold MAX_DELAY second
        omega

/-- After some four hours of outage the product is negative, and the loop turns without a pause. -/
theorem delay_of_wrap :
    getExponentialBackoffDelay .amd64 34 = -1266874889709551616 ∧ ¬BackOff .amd64 34 := by
  have hdelay : getExponentialBackoffDelay .amd64 34 = -1266874889709551616 := by decide +kernel
  refine ⟨hdelay, ?_⟩
  intro h
  have hsecond := h.second_le
  rw [hdelay] at hsecond
  revert hsecond
  decide

end BookHub.ReviewService
