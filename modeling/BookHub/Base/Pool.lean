import BookHub.Base.Coroutine
import BookHub.Base.Machine
import Mathlib.Data.List.Forall2

/-!
# Interleaved handlers

A service runs the handlers of its requests concurrently: a request arrives at any time, and any
handler that waits for an operation may be the next one to have it executed. The store changes only
when an operation is executed, so a schedule is a list of arrivals and of indices of handlers.

A thread keeps, besides what is left of its code, the trace of answers it has received. The trace is
what a safety argument about a schedule speaks of: in a pool that is `Justified`, whatever a handler
issues is justified by its own trace, whatever the other threads did in between.
-/

namespace BookHub

/-- How a service answers a request, and how its store executes an operation. The environment of an
operation carries what the store alone does not determine: failures, clocks, generated values. -/
structure Service (sig : Signature) (ε Store Env Req α : Type) where
  handler : Req → Coroutine sig ε α
  exec : Store → (op : sig.Op) → Env → Except ε (sig.Answer op) × Store
  admits : Store → Req → Bool := fun _ _ => true

/-- A request in progress. -/
structure Thread (sig : Signature) (ε Req α : Type) where
  request : Req
  trace : List (sig.Event ε)
  code : Coroutine sig ε α

/-- The store and the requests that have arrived, finished ones included. -/
structure Pool (sig : Signature) (ε Store Req α : Type) where
  store : Store
  threads : List (Thread sig ε Req α)

/-- One move of a schedule. -/
inductive Move (Env Req : Type) where
  | arrive (request : Req)
  | resume (index : Nat) (env : Env)
  deriving DecidableEq, Repr

/-! ### Exclusive ownership among threads -/

/-- No two entries of the list own the same thing. -/
def Exclusive {τ κ : Type} (owns : τ → Option κ) (threads : List τ) : Prop :=
  ∀ (i j : Nat) t t', threads[i]? = some t → threads[j]? = some t' →
    ∀ k, owns t = some k → owns t' = some k → i = j

section Exclusive

variable {τ κ : Type} {owns : τ → Option κ} {threads : List τ}

theorem exclusive_nil : Exclusive owns [] := by
  intro i j t t' hi
  simp at hi

theorem exclusive_append (h : Exclusive owns threads) {t : τ} (ht : owns t = none) :
    Exclusive owns (threads ++ [t]) := by
  intro i j u u' hi hj k hk hk'
  have hold : ∀ (n : Nat) v, (threads ++ [t])[n]? = some v → owns v = some k →
      threads[n]? = some v := by
    intro n v hn hv
    obtain hlt | hge := Nat.lt_or_ge n threads.length
    · rwa [List.getElem?_append_left hlt] at hn
    · rw [List.getElem?_append_right hge, List.getElem?_singleton] at hn
      split at hn
      · cases hn
        rw [ht] at hv
        cases hv
      · cases hn
  exact h i j u u' (hold i u hi hk) (hold j u' hj hk') k hk hk'

theorem exclusive_set (h : Exclusive owns threads) {index : Nat} {t t' : τ}
    (ht : threads[index]? = some t)
    (howns : owns t' = owns t ∨ ∃ k, owns t' = some k ∧ ∀ u ∈ threads, owns u ≠ some k) :
    Exclusive owns (threads.set index t') := by
  intro i j u u' hi hj k hk hk'
  have hindex : index < threads.length := (List.getElem?_eq_some_iff.mp ht).1
  rw [List.getElem?_set] at hi hj
  by_cases heqi : index = i <;> by_cases heqj : index = j
  · omega
  · rw [if_pos heqi, if_pos hindex] at hi
    rw [if_neg heqj] at hj
    cases hi
    obtain hsame | ⟨k', hnew, hfresh⟩ := howns
    · rw [hsame] at hk
      exact heqi ▸ h index j t u' ht hj k hk hk'
    · cases hnew.symm.trans hk
      exact absurd hk' (hfresh u' (List.mem_of_getElem? hj))
  · rw [if_neg heqi] at hi
    rw [if_pos heqj, if_pos hindex] at hj
    cases hj
    obtain hsame | ⟨k', hnew, hfresh⟩ := howns
    · rw [hsame] at hk'
      exact heqj ▸ h i index u t hi ht k hk hk'
    · cases hnew.symm.trans hk'
      exact absurd hk (hfresh u (List.mem_of_getElem? hi))
  · rw [if_neg heqi] at hi
    rw [if_neg heqj] at hj
    exact h i j u u' hi hj k hk hk'

end Exclusive

theorem getElem?_concat_cases {τ : Type} {threads : List τ} {t u : τ} {index : Nat}
    (h : (threads ++ [t])[index]? = some u) :
    threads[index]? = some u ∨ index = threads.length ∧ u = t := by
  obtain hlt | rfl | hgt := Nat.lt_trichotomy index threads.length
  · rw [List.getElem?_append_left hlt] at h
    exact .inl h
  · rw [List.getElem?_concat_length] at h
    exact .inr ⟨rfl, (Option.some.inj h).symm⟩
  · rw [List.getElem?_eq_none (by rw [List.length_append]; exact hgt)] at h
    cases h

theorem getElem?_set_cases {τ : Type} {threads : List τ} {t u : τ} {index index' : Nat}
    (h : (threads.set index t)[index']? = some u) :
    threads[index']? = some u ∨ index = index' ∧ u = t := by
  rw [List.getElem?_set] at h
  split at h
  · rename_i heq
    obtain ⟨-, hsame⟩ := Option.ite_none_right_eq_some.mp h
    exact .inr ⟨heq, (Option.some.inj hsame).symm⟩
  · exact .inl h

theorem mem_set_of_ne {τ : Type} {threads : List τ} {index : Nat} {t t' u : τ}
    (ht : threads[index]? = some t) (hu : u ∈ threads) (hne : u ≠ t) :
    u ∈ threads.set index t' := by
  obtain ⟨j, hj⟩ := List.getElem?_of_mem hu
  have hindex : index ≠ j := by
    rintro rfl
    rw [ht] at hj
    exact hne (Option.some.inj hj).symm
  exact List.mem_of_getElem? ((List.getElem?_set_ne hindex).trans hj)

theorem forall₂_getElem? {τ τ' : Type} {rel : τ → τ' → Prop} {threads : List τ} {threads' : List τ'}
    (h : List.Forall₂ rel threads threads') {index : Nat} {t : τ} (ht : threads[index]? = some t) :
    ∃ t', threads'[index]? = some t' ∧ rel t t' := by
  induction h generalizing index with
  | nil => cases ht
  | cons hhead htail ih =>
      cases index with
      | zero =>
          cases ht
          exact ⟨_, rfl, hhead⟩
      | succ index => exact ih ht

theorem forall₂_set {τ τ' : Type} {rel : τ → τ' → Prop} {threads : List τ} {threads' : List τ'}
    (h : List.Forall₂ rel threads threads') {index : Nat} {t : τ} {t' : τ'} (ht : rel t t') :
    List.Forall₂ rel (threads.set index t) (threads'.set index t') := by
  induction h generalizing index with
  | nil => exact .nil
  | cons hhead htail ih =>
      cases index with
      | zero => exact .cons ht htail
      | succ index => exact .cons hhead ih

namespace Service

variable {sig : Signature} {ε Store Env Req α : Type} (svc : Service sig ε Store Env Req α)

/-- The thread of a request that has just arrived. -/
def spawn (request : Req) : Thread sig ε Req α := ⟨request, [], svc.handler request⟩

/-- A thread after its operation was executed. -/
def advance (t : Thread sig ε Req α) (op : sig.Op)
    (resume : Except ε (sig.Answer op) → Coroutine sig ε α) (answer : Except ε (sig.Answer op)) :
    Thread sig ε Req α :=
  ⟨t.request, t.trace ++ [⟨op, answer⟩], resume answer⟩

/-- One step of the service: a request arrives, or the operation a thread waits for is executed. -/
def step (p : Pool sig ε Store Req α) : Move Env Req → Option (Pool sig ε Store Req α)
  | .arrive request =>
      if svc.admits p.store request then some ⟨p.store, p.threads ++ [svc.spawn request]⟩ else none
  | .resume index env =>
      match p.threads[index]? with
      | none => none
      | some t =>
          match t.code with
          | .done _ => none
          | .await op resume =>
              let (answer, store) := svc.exec p.store op env
              some ⟨store, p.threads.set index (advance t op resume answer)⟩

/-- The service as a machine. -/
def machine : Machine (Pool sig ε Store Req α) (Move Env Req) := ⟨svc.step⟩

/-- A service that has not received a request yet. -/
def start (store : Store) : Pool sig ε Store Req α := ⟨store, []⟩

theorem step_arrive {p p' : Pool sig ε Store Req α} {request : Req}
    (h : svc.machine.step p (.arrive request) = some p') :
    svc.admits p.store request = true ∧ p' = ⟨p.store, p.threads ++ [svc.spawn request]⟩ := by
  simp only [machine, step, Option.ite_none_right_eq_some, Option.some.injEq] at h
  exact ⟨h.1, h.2.symm⟩

theorem step_resume {p p' : Pool sig ε Store Req α} {index : Nat} {env : Env}
    (h : svc.machine.step p (.resume index env) = some p') :
    ∃ t op resume, p.threads[index]? = some t ∧ t.code = .await op resume ∧
      p' = ⟨(svc.exec p.store op env).2,
        p.threads.set index (advance t op resume (svc.exec p.store op env).1)⟩ := by
  simp only [machine, step] at h
  split at h
  · cases h
  · rename_i t ht
    split at h
    · cases h
    · rename_i op resume hcode
      exact ⟨t, op, resume, ht, hcode, (Option.some.inj h).symm⟩

/-- What holds of a thread when it arrives, and of each thread after a step of its own, holds of all. -/
theorem threads_step {good : Thread sig ε Req α → Prop} {p p' : Pool sig ε Store Req α}
    {move : Move Env Req} (hp : ∀ t ∈ p.threads, good t)
    (hspawn : ∀ request, move = .arrive request → good (svc.spawn request))
    (hadvance : ∀ t ∈ p.threads, ∀ op resume env, t.code = .await op resume →
      good (advance t op resume (svc.exec p.store op env).1))
    (hstep : svc.machine.step p move = some p') : ∀ t ∈ p'.threads, good t := by
  intro t ht
  cases move with
  | arrive request =>
      obtain ⟨-, rfl⟩ := svc.step_arrive hstep
      obtain ht | ht := List.mem_append.mp ht
      · exact hp t ht
      · rw [List.mem_singleton.mp ht]
        exact hspawn request rfl
  | resume index env =>
      obtain ⟨t₀, op, resume, ht₀, hcode, rfl⟩ := svc.step_resume hstep
      obtain ht | rfl := List.mem_or_eq_of_mem_set ht
      · exact hp t ht
      · exact hadvance t₀ (List.mem_of_getElem? ht₀) op resume env hcode

/-- What holds of every request that arrives holds of the requests of all threads. -/
theorem requests_step {good : Req → Prop} {p p' : Pool sig ε Store Req α} {move : Move Env Req}
    (hp : ∀ t ∈ p.threads, good t.request) (hmove : ∀ request, move = .arrive request → good request)
    (hstep : svc.machine.step p move = some p') : ∀ t ∈ p'.threads, good t.request := by
  apply svc.threads_step hp hmove _ hstep
  intro t ht _ _ _ _
  exact hp t ht

/-- A thread keeps its place and its request, and its trace grows. -/
theorem thread_step {p p' : Pool sig ε Store Req α} {move : Move Env Req}
    (hstep : svc.machine.step p move = some p') {index : Nat} {t : Thread sig ε Req α}
    (ht : p.threads[index]? = some t) :
    ∃ t', p'.threads[index]? = some t' ∧ t'.request = t.request ∧ t.trace ⊆ t'.trace := by
  cases move with
  | arrive request =>
      obtain ⟨-, rfl⟩ := svc.step_arrive hstep
      have hindex := (List.getElem?_eq_some_iff.mp ht).1
      exact ⟨t, (List.getElem?_append_left hindex).trans ht, rfl, List.Subset.refl _⟩
  | resume index' env =>
      obtain ⟨t₀, op, resume, ht₀, hcode, rfl⟩ := svc.step_resume hstep
      by_cases heq : index' = index
      · subst heq
        cases ht₀.symm.trans ht
        exact ⟨_, List.getElem?_set_self (List.getElem?_eq_some_iff.mp ht).1, rfl,
          List.subset_append_left _ _⟩
      · exact ⟨t, (List.getElem?_set_ne heq).trans ht, rfl, List.Subset.refl _⟩

/-- What holds of every answer that was received goes on to hold, if it holds of the answer of each
operation that is executed; that may depend on the store. -/
theorem events_step {good good' : sig.Event ε → Prop} {p p' : Pool sig ε Store Req α}
    {move : Move Env Req} (hp : ∀ t ∈ p.threads, ∀ event ∈ t.trace, good event)
    (hmono : ∀ event, good event → good' event)
    (hexec : ∀ t ∈ p.threads, ∀ op resume env, t.code = .await op resume →
      p'.store = (svc.exec p.store op env).2 → good' ⟨op, (svc.exec p.store op env).1⟩)
    (hstep : svc.machine.step p move = some p') : ∀ t ∈ p'.threads, ∀ event ∈ t.trace, good' event := by
  intro t ht event hevent
  cases move with
  | arrive request =>
      obtain ⟨-, rfl⟩ := svc.step_arrive hstep
      obtain ht | ht := List.mem_append.mp ht
      · exact hmono event (hp t ht event hevent)
      · rw [List.mem_singleton.mp ht] at hevent
        exact absurd hevent List.not_mem_nil
  | resume index env =>
      obtain ⟨t₀, op, resume, ht₀, hcode, rfl⟩ := svc.step_resume hstep
      have hmem := List.mem_of_getElem? ht₀
      obtain ht | rfl := List.mem_or_eq_of_mem_set ht
      · exact hmono event (hp t ht event hevent)
      · obtain hevent | hevent := List.mem_append.mp hevent
        · exact hmono event (hp t₀ hmem event hevent)
        · rw [List.mem_singleton.mp hevent]
          exact hexec t₀ hmem op resume env hcode rfl

/-! ### Every issued operation is justified by its thread's trace -/

variable {honest : (op : sig.Op) → Except ε (sig.Answer op) → Prop}
  {spec : Req → List (sig.Event ε) → sig.Op → Prop}

/-- The handlers in progress keep to the specification of their requests. -/
def Justified (honest : (op : sig.Op) → Except ε (sig.Answer op) → Prop)
    (spec : Req → List (sig.Event ε) → sig.Op → Prop) (p : Pool sig ε Store Req α) : Prop :=
  ∀ t ∈ p.threads, Coroutine.Issues honest (spec t.request) t.trace t.code

theorem justified_start (store : Store) :
    Justified honest spec (start store : Pool sig ε Store Req α) := by
  intro t ht
  exact absurd ht List.not_mem_nil

theorem justified_step (hhonest : ∀ s op env, honest op (svc.exec s op env).1)
    (hhandler : ∀ request, Coroutine.Issues honest (spec request) [] (svc.handler request))
    (p : Pool sig ε Store Req α) (move : Move Env Req) (p' : Pool sig ε Store Req α)
    (hp : Justified honest spec p) (hstep : svc.machine.step p move = some p') :
    Justified honest spec p' := by
  apply svc.threads_step hp _ _ hstep
  · intro request _
    exact hhandler request
  · intro t ht op resume env hcode
    have hissues := hp t ht
    rw [hcode] at hissues
    exact hissues.2 _ (hhonest p.store op env)

theorem Justified.issued_of_await {p : Pool sig ε Store Req α} (h : Justified honest spec p)
    {t : Thread sig ε Req α} (ht : t ∈ p.threads) {op : sig.Op}
    {resume : Except ε (sig.Answer op) → Coroutine sig ε α} (hcode : t.code = .await op resume) :
    spec t.request t.trace op := by
  have hissues := h t ht
  rw [hcode] at hissues
  exact hissues.1

/-! ### Every handler ends as its request says -/

section Ended

variable {post : Req → List (sig.Event ε) → Except ε α → Prop}

/-- The handlers in progress will end, and those that have returned did end, as their requests say. -/
def Ended (honest : (op : sig.Op) → Except ε (sig.Answer op) → Prop)
    (post : Req → List (sig.Event ε) → Except ε α → Prop) (p : Pool sig ε Store Req α) : Prop :=
  ∀ t ∈ p.threads, Coroutine.Ends honest (post t.request) t.trace t.code

theorem ended_start (store : Store) : Ended honest post (start store : Pool sig ε Store Req α) := by
  intro t ht
  exact absurd ht List.not_mem_nil

theorem ended_step (hhonest : ∀ s op env, honest op (svc.exec s op env).1)
    (hhandler : ∀ request, Coroutine.Ends honest (post request) [] (svc.handler request))
    (p : Pool sig ε Store Req α) (move : Move Env Req) (p' : Pool sig ε Store Req α)
    (hp : Ended honest post p) (hstep : svc.machine.step p move = some p') : Ended honest post p' := by
  apply svc.threads_step hp _ _ hstep
  · intro request _
    exact hhandler request
  · intro t ht op resume env hcode
    have hends := hp t ht
    rw [hcode] at hends
    exact hends _ (hhonest p.store op env)

/-- The last event of the thread that a step resumes is what the step has executed. -/
theorem exec_of_resume {p p' : Pool sig ε Store Req α} {index : Nat} {env : Env}
    (hstep : svc.machine.step p (.resume index env) = some p') {t : Thread sig ε Req α}
    (ht : p'.threads[index]? = some t) {trace : List (sig.Event ε)} {op : sig.Op}
    {answer : Except ε (sig.Answer op)} (htrace : t.trace = trace ++ [⟨op, answer⟩]) :
    svc.exec p.store op env = (answer, p'.store) ∧
      ∃ t₀ resume, p.threads[index]? = some t₀ ∧ t₀.code = .await op resume := by
  obtain ⟨t₀, op₀, resume, ht₀, hcode, rfl⟩ := svc.step_resume hstep
  have hindex := (List.getElem?_eq_some_iff.mp ht₀).1
  rw [List.getElem?_set_self hindex] at ht
  cases ht
  obtain ⟨-, hlast⟩ := List.append_inj' htrace rfl
  cases List.singleton_inj.mp hlast
  exact ⟨rfl, t₀, resume, ht₀, hcode⟩

end Ended

/-! ### Two services in lockstep

The same moves on two pools. Where related threads wait for operations that keep the stores and the
threads related, the second service can follow the first. -/

/-- The stores are related, and so is each thread to the one at its place. -/
structure Lockstep (stores : Store → Store → Prop)
    (threads : Thread sig ε Req α → Thread sig ε Req α → Prop) (p p' : Pool sig ε Store Req α) :
    Prop where
  stores : stores p.store p'.store
  threads : List.Forall₂ threads p.threads p'.threads

theorem lockstep_start {stores : Store → Store → Prop}
    {threads : Thread sig ε Req α → Thread sig ε Req α → Prop} {s s' : Store} (h : stores s s') :
    Lockstep stores threads (start s) (start s') := ⟨h, .nil⟩

theorem lockstep_step {svc svc' : Service sig ε Store Env Req α} {stores : Store → Store → Prop}
    {threads : Thread sig ε Req α → Thread sig ε Req α → Prop}
    (hadmits : ∀ s s' request, stores s s' → svc.admits s request → svc'.admits s' request)
    (hspawn : ∀ request, threads (svc.spawn request) (svc'.spawn request))
    (hexec : ∀ s s' t t' op resume env, stores s s' → threads t t' → t.code = .await op resume →
      ∃ op' resume', t'.code = .await op' resume' ∧
        stores (svc.exec s op env).2 (svc'.exec s' op' env).2 ∧
        threads (advance t op resume (svc.exec s op env).1)
          (advance t' op' resume' (svc'.exec s' op' env).1))
    {p q p' : Pool sig ε Store Req α} {move : Move Env Req} (h : Lockstep stores threads p p')
    (hstep : svc.machine.step p move = some q) :
    ∃ q', svc'.machine.step p' move = some q' ∧ Lockstep stores threads q q' := by
  cases move with
  | arrive request =>
      obtain ⟨hadmitted, rfl⟩ := svc.step_arrive hstep
      refine ⟨⟨p'.store, p'.threads ++ [svc'.spawn request]⟩,
        if_pos (hadmits p.store p'.store request h.stores hadmitted), h.stores, ?_⟩
      exact List.rel_append h.threads (.cons (hspawn request) .nil)
  | resume index env =>
      obtain ⟨t, op, resume, ht, hcode, rfl⟩ := svc.step_resume hstep
      obtain ⟨t', ht', hrel⟩ := forall₂_getElem? h.threads ht
      obtain ⟨op', resume', hcode', hstores, hthreads⟩ :=
        hexec p.store p'.store t t' op resume env h.stores hrel hcode
      refine ⟨⟨(svc'.exec p'.store op' env).2,
        p'.threads.set index (advance t' op' resume' (svc'.exec p'.store op' env).1)⟩, ?_, hstores,
        forall₂_set h.threads hthreads⟩
      simp only [machine, step, ht', hcode']

/-! ### Two pools side by side

The same moves on two pools of one service, whose stores differ in a way that the handlers do not
notice. -/

section Alongside

variable {sameStore : Store → Store → Prop} {sameCode : Coroutine sig ε α → Coroutine sig ε α → Prop}

/-- The stores are alike, and so is the code that is left of each thread. -/
structure Alongside (sameStore : Store → Store → Prop)
    (sameCode : Coroutine sig ε α → Coroutine sig ε α → Prop) (p p' : Pool sig ε Store Req α) :
    Prop where
  stores : sameStore p.store p'.store
  length : p.threads.length = p'.threads.length
  codes : ∀ (index : Nat) t t', p.threads[index]? = some t → p'.threads[index]? = some t' →
    sameCode t.code t'.code

theorem alongside_iff_lockstep {p p' : Pool sig ε Store Req α} :
    Alongside sameStore sameCode p p' ↔
      Lockstep sameStore (fun t t' => sameCode t.code t'.code) p p' := by
  constructor
  · intro h
    refine ⟨h.stores, List.forall₂_iff_get.mpr ⟨h.length, fun index hlt hlt' => ?_⟩⟩
    exact h.codes index _ _ (List.getElem?_eq_getElem hlt) (List.getElem?_eq_getElem hlt')
  · intro h
    refine ⟨h.stores, h.threads.length_eq, fun index t t' ht ht' => ?_⟩
    obtain ⟨u, hu, hsame⟩ := forall₂_getElem? h.threads ht
    cases hu.symm.trans ht'
    exact hsame

theorem alongside_step (hadmits : ∀ s s' request, sameStore s s' → svc.admits s request →
      svc.admits s' request)
    (hhandler : ∀ request, sameCode (svc.handler request) (svc.handler request))
    (hexec : ∀ s s' op resume code env, sameStore s s' → sameCode (.await op resume) code →
      ∃ op' resume', code = .await op' resume' ∧
        sameStore (svc.exec s op env).2 (svc.exec s' op' env).2 ∧
        sameCode (resume (svc.exec s op env).1) (resume' (svc.exec s' op' env).1))
    {p q p' : Pool sig ε Store Req α} {move : Move Env Req} (h : Alongside sameStore sameCode p p')
    (hstep : svc.machine.step p move = some q) :
    ∃ q', svc.machine.step p' move = some q' ∧ Alongside sameStore sameCode q q' := by
  obtain ⟨q', hq', hlockstep⟩ := lockstep_step hadmits hhandler
    (fun s s' t t' op resume env hstores hsame hcode => by
      rw [hcode] at hsame
      exact hexec s s' op resume t'.code env hstores hsame)
    (alongside_iff_lockstep.mp h) hstep
  exact ⟨q', hq', alongside_iff_lockstep.mpr hlockstep⟩

end Alongside

end Service

end BookHub
