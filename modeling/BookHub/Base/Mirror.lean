import BookHub.Base.Pool

/-!
# Two executions of a handler

What can be told apart from outside is a matter of two executions. `Mirrors` follows two handlers side
by side: they issue related operations as long as they get related answers, and what they return in
the end is as `post` says, a predicate on the two traces and the two results. As for `Issues`, it is a
statement about handlers, and the stores and the schedule come in later: where related operations
take related stores to related stores and answers, two services run the same moves with every thread
mirrored by the one at its place.
-/

namespace BookHub

/-! ### Related lists -/

theorem rel_cases {τ τ' : Type} {rel : τ → τ' → Prop} {x : Option τ} {x' : Option τ'}
    (h : Option.Rel rel x x') :
    (x = none ∧ x' = none) ∨ ∃ y y', x = some y ∧ x' = some y' ∧ rel y y' := by
  cases h with
  | some hrel => exact .inr ⟨_, _, rfl, rfl, hrel⟩
  | none => exact .inl ⟨rfl, rfl⟩

section Related

variable {τ τ' : Type} {rel : τ → τ' → Prop} {l : List τ} {l' : List τ'} {f : τ → Bool} {f' : τ' → Bool}

theorem rel_find? (h : List.Forall₂ rel l l') (hf : ∀ x y, rel x y → f x = f' y) :
    Option.Rel rel (l.find? f) (l'.find? f') := by
  induction h with
  | nil => exact .none
  | cons hhead _ ih =>
      rw [List.find?_cons, List.find?_cons, hf _ _ hhead]
      split
      · exact .some hhead
      · exact ih

theorem any_eq_of_forall₂ (h : List.Forall₂ rel l l') (hf : ∀ x y, rel x y → f x = f' y) :
    l.any f = l'.any f' := by
  induction h with
  | nil => rfl
  | cons hhead _ ih => rw [List.any_cons, List.any_cons, hf _ _ hhead, ih]

end Related

/-! ### Two handlers -/

variable {sig : Signature} {ε α : Type}

/-- Answers to related operations: related values, or the same error. -/
def Answered (values : (op op' : sig.Op) → sig.Answer op → sig.Answer op' → Prop) (op op' : sig.Op) :
    Except ε (sig.Answer op) → Except ε (sig.Answer op') → Prop
  | .ok value, .ok value' => values op op' value value'
  | .error err, .error err' => err = err'
  | _, _ => False

theorem answered_cases {values : (op op' : sig.Op) → sig.Answer op → sig.Answer op' → Prop}
    {op op' : sig.Op} {answer : Except ε (sig.Answer op)} {answer' : Except ε (sig.Answer op')}
    (h : Answered values op op' answer answer') :
    (∃ err, answer = .error err ∧ answer' = .error err) ∨
      ∃ value value', answer = .ok value ∧ answer' = .ok value' ∧ values op op' value value' := by
  cases answer with
  | error err =>
      cases answer' with
      | error err' =>
          cases h
          exact .inl ⟨err, rfl, rfl⟩
      | ok value' => exact h.elim
  | ok value =>
      cases answer' with
      | error err' => exact h.elim
      | ok value' => exact .inr ⟨value, value', rfl, rfl, h⟩

namespace Coroutine

/-- From these traces on, the two handlers issue related operations while they get related answers,
and end together, with results as `post` says. -/
def Mirrors (ops : sig.Op → sig.Op → Prop)
    (values : (op op' : sig.Op) → sig.Answer op → sig.Answer op' → Prop)
    (post : List (sig.Event ε) → List (sig.Event ε) → Except ε α → Except ε α → Prop) :
    List (sig.Event ε) → List (sig.Event ε) → Coroutine sig ε α → Coroutine sig ε α → Prop
  | trace, trace', done result, done result' => post trace trace' result result'
  | trace, trace', await op resume, await op' resume' =>
      ops op op' ∧ ∀ answer answer', Answered values op op' answer answer' →
        Mirrors ops values post (trace ++ [⟨op, answer⟩]) (trace' ++ [⟨op', answer'⟩])
          (resume answer) (resume' answer')
  | _, _, _, _ => False

end Coroutine

/-! ### Two services -/

namespace Service

variable {Store Env Req : Type} {svc svc' : Service sig ε Store Env Req α}
  {ops : sig.Op → sig.Op → Prop}
  {values : (op op' : sig.Op) → sig.Answer op → sig.Answer op' → Prop}
  {post : List (sig.Event ε) → List (sig.Event ε) → Except ε α → Except ε α → Prop}
  {stores : Store → Store → Prop}

/-- A thread and the one at its place in the other execution. -/
structure Mirrored (ops : sig.Op → sig.Op → Prop)
    (values : (op op' : sig.Op) → sig.Answer op → sig.Answer op' → Prop)
    (post : List (sig.Event ε) → List (sig.Event ε) → Except ε α → Except ε α → Prop)
    (t t' : Thread sig ε Req α) : Prop where
  request : t.request = t'.request
  code : Coroutine.Mirrors ops values post t.trace t'.trace t.code t'.code

theorem mirrored_run (hadmits : ∀ s s' request, stores s s' → svc.admits s request →
      svc'.admits s' request)
    (hhandler : ∀ request,
      Coroutine.Mirrors ops values post [] [] (svc.handler request) (svc'.handler request))
    (hexec : ∀ s s' op op' env, stores s s' → ops op op' →
      Answered values op op' (svc.exec s op env).1 (svc'.exec s' op' env).1 ∧
        stores (svc.exec s op env).2 (svc'.exec s' op' env).2)
    {s s' : Store} (h : stores s s') {moves : List (Move Env Req)} {p : Pool sig ε Store Req α}
    (hrun : svc.machine.run (start s) moves = some p) :
    ∃ p', svc'.machine.run (start s') moves = some p' ∧
      Lockstep stores (Mirrored ops values post) p p' := by
  apply Machine.run_of_simulates _ (lockstep_start h) hrun
  intro p p' move q hrel hstep
  apply lockstep_step hadmits (fun request => ⟨rfl, hhandler request⟩) _ hrel hstep
  intro s s' t t' op resume env hstores hmirrored hcode
  have hmirrors := hmirrored.code
  rw [hcode] at hmirrors
  cases hcode' : t'.code with
  | done result =>
      rw [hcode'] at hmirrors
      exact hmirrors.elim
  | await op' resume' =>
      rw [hcode'] at hmirrors
      obtain ⟨hops, hresume⟩ := hmirrors
      obtain ⟨hanswers, hstores'⟩ := hexec s s' op op' env hstores hops
      exact ⟨op', resume', rfl, hstores', hmirrored.request, hresume _ _ hanswers⟩

end Service

end BookHub
