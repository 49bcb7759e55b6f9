import BookHub.HealthMonitor.Signers

/-!
# A fetch that fails

Only an answer other than 200 is treated as an error. A body that is no JSON object, keys that are no
list, and a key that makes no signer raise in the process that owns the table, and the table goes with
it: no caller is known any more until the restarted process has fetched the keys again.
-/

namespace BookHub.HealthMonitor

open Elixir

section FailedFetch

variable {Signer : Type} (jason : String → Option Term) (joken : Joken Signer)

/-- Every lookup comes to what it came to before, and the process is there to fetch again. -/
structure KeepsKeys (m m' : KeyMonitor Signer) : Prop where
  signers : ∀ kid, getSigner m'.strategy kid = getSigner m.strategy kid
  again : ∃ s, m'.strategy = some s ∧ 0 < s.sendAfter

/-- A failed fetch keeps the keys exactly if it ends cleanly, whatever the table holds. -/
theorem keepsKeys_iff_endsCleanly (m : KeyMonitor Signer) (s : JwksStrategy Signer)
    (result : HttpcResult) (hs : m.strategy = some s)
    (hfailed : fetchedKids jason joken result = none) :
    (∃ m', (keyMonitor jason joken).step m (.fetch result) = some m' ∧ KeepsKeys m m') ↔
      EndsCleanly jason result := by
  simp only [keyMonitor, hs]
  obtain ⟨hclean, sendAfter, hpos, hok⟩ | ⟨hunclean, err, herr⟩ := handleInfo_of_failed s hfailed
  · refine iff_of_true ?_ hclean
    rw [hok]
    refine ⟨_, rfl, ?_, _, rfl, hpos⟩
    intro kid
    rw [hs]
    rfl
  · refine iff_of_false ?_ hunclean
    rw [herr]
    rintro ⟨m', hmove, hkeeps⟩
    cases hmove
    obtain ⟨s', hs', -⟩ := hkeeps.again
    cases hs'

/-- Otherwise every lookup raises, and after the restart no key has a signer. -/
theorem signers_lost {m : KeyMonitor Signer} {s : JwksStrategy Signer} {result : HttpcResult}
    (hs : m.strategy = some s) (hfailed : fetchedKids jason joken result = none)
    (hunclean : ¬ EndsCleanly jason result) :
    ∃ died restarted, (keyMonitor jason joken).step m (.fetch result) = some died ∧
      (keyMonitor jason joken).step died .restart = some restarted ∧
      ∀ kid, getSigner died.strategy kid = .error .badArgument ∧
        getSigner restarted.strategy kid = .ok none := by
  obtain ⟨hclean, -⟩ | ⟨-, err, herr⟩ := handleInfo_of_failed s hfailed
  · exact absurd hclean hunclean
  · simp only [keyMonitor, hs, herr]
    refine ⟨_, _, rfl, rfl, ?_⟩
    intro kid
    exact ⟨rfl, rfl⟩

end FailedFetch

/-- The process with a signer for one key. -/
def oneSigner : KeyMonitor Term :=
  ⟨some ⟨Collection.empty.put (.binary "k1", .binary "k1"), 3600000⟩, some [.binary "k1"]⟩

theorem keepsKeys_of_unavailable :
    ∃ m', (keyMonitor oneKey plainJoken).step oneSigner (.fetch (.response 503 "")) = some m' ∧
      KeepsKeys oneSigner m' := by
  apply (keepsKeys_iff_endsCleanly oneKey plainJoken oneSigner _ (.response 503 "") rfl rfl).mpr
  intro heq
  cases heq

/-- A body that is no JSON leaves the key without a signer. -/
theorem not_keepsKeys_of_garbage :
    fetchedKids (fun _ => none) plainJoken (.response 200 "<html>") = none ∧
      getSigner oneSigner.strategy (.binary "k1") = .ok (some (.binary "k1")) ∧
      ¬ ∃ m', (keyMonitor (fun _ => none) plainJoken).step oneSigner
          (.fetch (.response 200 "<html>")) = some m' ∧ KeepsKeys oneSigner m' := by
  refine ⟨rfl, rfl, ?_⟩
  intro ⟨m', hmove, hkeeps⟩
  cases hmove
  obtain ⟨s', hs', -⟩ := hkeeps.again
  cases hs'

end BookHub.HealthMonitor
