import Mathlib.Data.List.TakeWhile

/-!
# The restart intensity of a supervisor

A supervisor restarts a child that has died, unless too many restarts lie within a period: then it gives
up. It keeps only the restarts of the period, the newest first. `Window` says that these are what a look
at all restarts there ever were would give; and a child that dies at long intervals has one of them at
most, however often it dies.
-/

namespace BookHub

/-- A supervisor, with the times of its last restarts. -/
structure Supervisor where
  intensity : Nat
  period : Nat
  restarts : List Nat
  deriving DecidableEq, Repr

namespace Supervisor

def inPeriod (sup : Supervisor) (now restart : Nat) : Bool := now ≤ restart + sup.period

def addRestart (sup : Supervisor) (now : Nat) : Supervisor :=
  { sup with restarts := (now :: sup.restarts).takeWhile (sup.inPeriod now) }

/-- The supervisor gives up. -/
def Exhausted (sup : Supervisor) : Prop := sup.intensity < sup.restarts.length

instance (sup : Supervisor) : Decidable sup.Exhausted := Nat.decLt _ _

/-- The restarts that are kept are those of the period before the last of all times. -/
def Window (sup : Supervisor) (times : List Nat) : Prop :=
  sup.restarts = times.takeWhile (sup.inPeriod (times.headD 0))

theorem takeWhile_inPeriod {sup : Supervisor} {last now : Nat} (hle : last ≤ now) (times : List Nat) :
    (times.takeWhile (sup.inPeriod last)).takeWhile (sup.inPeriod now) =
      times.takeWhile (sup.inPeriod now) := by
  rw [List.takeWhile_takeWhile]
  congr 1
  funext time
  by_cases hin : now ≤ time + sup.period
  · have hlast : last ≤ time + sup.period := Nat.le_trans hle hin
    simp [inPeriod, hin, hlast]
  · simp [inPeriod, hin]

theorem window_addRestart {sup : Supervisor} {times : List Nat} {now : Nat} (h : sup.Window times)
    (hnow : times.headD 0 ≤ now) : (sup.addRestart now).Window (now :: times) := by
  show (now :: sup.restarts).takeWhile (sup.inPeriod now) =
    (now :: times).takeWhile (sup.inPeriod now)
  rw [h, List.takeWhile_cons, List.takeWhile_cons, takeWhile_inPeriod hnow]

/-- The supervisor gives up exactly when the restart that is one too many lies within the period. -/
theorem exhausted_iff {sup : Supervisor} {times : List Nat} (h : sup.Window times)
    (hsorted : times.Pairwise (· ≥ ·)) :
    sup.Exhausted ↔
      ∃ time, times[sup.intensity]? = some time ∧ times.headD 0 ≤ time + sup.period := by
  unfold Exhausted
  rw [h]
  clear h
  generalize times.headD 0 = now
  generalize sup.intensity = intensity
  induction times generalizing intensity with
  | nil => simp
  | cons time rest ih =>
      obtain ⟨hfirst, hrest⟩ := List.pairwise_cons.mp hsorted
      by_cases hin : now ≤ time + sup.period
      · rw [List.takeWhile_cons_of_pos (by simpa [inPeriod] using hin)]
        cases intensity with
        | zero => simp [hin]
        | succ intensity =>
            rw [List.length_cons, Nat.add_lt_add_iff_right, ih hrest]
            simp
      · rw [List.takeWhile_cons_of_neg (by simpa [inPeriod] using hin)]
        refine iff_of_false (Nat.not_lt_zero _) ?_
        rintro ⟨found, hfound, hle⟩
        have hfoundLe : found ≤ time := by
          obtain rfl | hmem := List.mem_cons.mp (List.mem_of_getElem? hfound)
          · exact Nat.le_refl _
          · exact hfirst found hmem
        omega

/-- Of times that lie further apart than the period is long, one at most is in it. -/
theorem length_le_one_of_spaced {times : List Nat} {now period : Nat}
    (hspaced : times.Pairwise fun newer older => older + period < newer)
    (hin : ∀ time ∈ times, time ≤ now ∧ now ≤ time + period) : times.length ≤ 1 := by
  cases times with
  | nil => exact Nat.zero_le _
  | cons newer rest =>
      cases rest with
      | nil => exact Nat.le_refl _
      | cons older rest =>
          have hlt := (List.pairwise_cons.mp hspaced).1 older List.mem_cons_self
          have hnewer := hin newer List.mem_cons_self
          have holder := hin older (List.mem_cons_of_mem newer List.mem_cons_self)
          omega

end Supervisor

end BookHub
