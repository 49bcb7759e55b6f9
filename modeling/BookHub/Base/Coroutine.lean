import Mathlib.Logic.Basic

/-!
# Handlers as coroutines

The request handlers of the services are `async` functions, or goroutines and processes that wait for
a store between two pieces of local code. A coroutine is such a function cut at those points: it has
returned, or it issues one operation and goes on with the answer. An answer is a value or an error, so
an operation that raises is an answer like any other, and `try` is a match on it.

The same definition of a handler is run in two ways: `eval` runs it from its start to its end against
a store, with nobody else in between, and `Pool` runs many of them interleaved.
-/

namespace BookHub

/-- The operations a handler can issue, each with the type of what it answers when it succeeds. -/
structure Signature where
  Op : Type
  Answer : Op → Type

/-- A handler, cut at the operations it waits for. -/
inductive Coroutine (sig : Signature) (ε α : Type) where
  | done (result : Except ε α)
  | await (op : sig.Op) (resume : Except ε (sig.Answer op) → Coroutine sig ε α)

/-- An operation that was issued, with its answer. -/
abbrev Signature.Event (sig : Signature) (ε : Type) : Type :=
  (op : sig.Op) × Except ε (sig.Answer op)

namespace Coroutine

variable {sig : Signature} {ε α β Store Env : Type}

/-- Sequencing; an error skips the rest. -/
def bind : Coroutine sig ε α → (α → Coroutine sig ε β) → Coroutine sig ε β
  | done (.ok value), next => next value
  | done (.error err), _ => done (.error err)
  | await op resume, next => await op fun answer => (resume answer).bind next

/-- `try .. catch`. -/
def catchWith : Coroutine sig ε α → (ε → Coroutine sig ε α) → Coroutine sig ε α
  | done (.ok value), _ => done (.ok value)
  | done (.error err), handle => handle err
  | await op resume, handle => await op fun answer => (resume answer).catchWith handle

instance : Monad (Coroutine sig ε) where
  pure value := done (.ok value)
  bind := bind

instance : MonadExcept ε (Coroutine sig ε) where
  throw err := done (.error err)
  tryCatch := catchWith

/-- Issue one operation; its error is raised. -/
def perform (op : sig.Op) : Coroutine sig ε (sig.Answer op) := await op done

/-- Issue one operation and return its outcome, an error included. -/
def attempt (op : sig.Op) : Coroutine sig ε (Except ε (sig.Answer op)) :=
  await op fun answer => done (.ok answer)

section Unfolding

variable (next : α → Coroutine sig ε β)

@[simp] theorem pure_eq (value : α) : (pure value : Coroutine sig ε α) = done (.ok value) := rfl

@[simp] theorem throw_eq (err : ε) : (throw err : Coroutine sig ε α) = done (.error err) := rfl

@[simp] theorem ok_bind (value : α) : (done (.ok value) : Coroutine sig ε α) >>= next = next value :=
  rfl

@[simp] theorem error_bind (err : ε) :
    (done (.error err) : Coroutine sig ε α) >>= next = done (.error err) := rfl

@[simp] theorem await_bind (op : sig.Op) (resume : Except ε (sig.Answer op) → Coroutine sig ε α) :
    await op resume >>= next = await op fun answer => resume answer >>= next := rfl

theorem bind_assoc {γ : Type} (c : Coroutine sig ε α) (last : β → Coroutine sig ε γ) :
    (c >>= next) >>= last = c >>= fun value => next value >>= last := by
  induction c with
  | done result => cases result <;> rfl
  | await op resume ih => exact congrArg (await op) (funext ih)

end Unfolding

/-! ### Running to the end -/

/-- Run a handler alone against a store. The environment of the `n`th operation is `env n`. -/
def eval (exec : Store → (op : sig.Op) → Env → Except ε (sig.Answer op) × Store) :
    Coroutine sig ε α → (Nat → Env) → Store → Except ε α × Store
  | done result, _, s => (result, s)
  | await op resume, env, s =>
      eval exec (resume (exec s op (env 0)).1) (fun n => env (n + 1)) (exec s op (env 0)).2

section Eval

variable (exec : Store → (op : sig.Op) → Env → Except ε (sig.Answer op) × Store)

@[simp] theorem eval_done (result : Except ε α) (env : Nat → Env) (s : Store) :
    (done result).eval exec env s = (result, s) := rfl

@[simp] theorem eval_await (op : sig.Op) (resume : Except ε (sig.Answer op) → Coroutine sig ε α)
    (env : Nat → Env) (s : Store) :
    (await op resume).eval exec env s =
      (resume (exec s op (env 0)).1).eval exec (fun n => env (n + 1)) (exec s op (env 0)).2 := rfl

/-- Where the environment is the same for every operation, a sequence is run one after the other. -/
theorem eval_bind_const (c : Coroutine sig ε α) (next : α → Coroutine sig ε β) (env : Env)
    (s : Store) :
    (c >>= next).eval exec (fun _ => env) s =
      match c.eval exec (fun _ => env) s with
      | (.ok value, s') => (next value).eval exec (fun _ => env) s'
      | (.error err, s') => (.error err, s') := by
  induction c generalizing s with
  | done result => cases result <;> rfl
  | await op resume ih => exact ih (exec s op env).1 (exec s op env).2

theorem eval_tryCatch_const (c : Coroutine sig ε α) (handle : ε → Coroutine sig ε α) (env : Env)
    (s : Store) :
    (tryCatch c handle).eval exec (fun _ => env) s =
      match c.eval exec (fun _ => env) s with
      | (.ok value, s') => (.ok value, s')
      | (.error err, s') => (handle err).eval exec (fun _ => env) s' := by
  induction c generalizing s with
  | done result => cases result <;> rfl
  | await op resume ih => exact ih (exec s op env).1 (exec s op env).2

end Eval

/-! ### What a handler issues

`Issues` follows a handler along every sequence of answers the store can give and states what holds
of each operation when it is issued, as a predicate on the answers received before it. It is a
statement about one handler, proved by running it symbolically; the store it runs against and the
requests it is interleaved with come in later, through `eval_frame` and through the pool. -/

/-- Whatever answers come back (among those `honest` allows), every operation the handler issues
satisfies `spec`, a predicate on the trace so far and the operation. -/
def Issues (honest : (op : sig.Op) → Except ε (sig.Answer op) → Prop)
    (spec : List (sig.Event ε) → sig.Op → Prop) :
    List (sig.Event ε) → Coroutine sig ε α → Prop
  | _, done _ => True
  | trace, await op resume =>
      spec trace op ∧ ∀ answer, honest op answer →
        Issues honest spec (trace ++ [⟨op, answer⟩]) (resume answer)

section Issues

variable {honest : (op : sig.Op) → Except ε (sig.Answer op) → Prop}
  {spec : List (sig.Event ε) → sig.Op → Prop}

theorem issues_done {trace : List (sig.Event ε)} (result : Except ε α) :
    Issues honest spec trace (done result) := trivial

theorem issues_of_forall (h : ∀ trace op, spec trace op) (trace : List (sig.Event ε))
    (c : Coroutine sig ε α) : Issues honest spec trace c := by
  induction c generalizing trace with
  | done result => trivial
  | await op resume ih => exact ⟨h trace op, fun answer _ => ih answer _⟩

/-- What follows is issued on whatever trace there is by then. -/
theorem issues_bind {trace : List (sig.Event ε)} {c : Coroutine sig ε α}
    {next : α → Coroutine sig ε β} (hc : Issues honest spec trace c)
    (hnext : ∀ value trace', Issues honest spec trace' (next value)) :
    Issues honest spec trace (c >>= next) := by
  induction c generalizing trace with
  | done result =>
      cases result with
      | ok value => exact hnext value trace
      | error err => trivial
  | await op resume ih =>
      obtain ⟨hspec, hrest⟩ := hc
      exact ⟨hspec, fun answer hanswer => ih answer (hrest answer hanswer)⟩

theorem issues_tryCatch {trace : List (sig.Event ε)} {c : Coroutine sig ε α}
    {handle : ε → Coroutine sig ε α} (hc : Issues honest spec trace c)
    (hhandle : ∀ err trace', Issues honest spec trace' (handle err)) :
    Issues honest spec trace (tryCatch c handle) := by
  induction c generalizing trace with
  | done result =>
      cases result with
      | ok value => trivial
      | error err => exact hhandle err trace
  | await op resume ih =>
      obtain ⟨hspec, hrest⟩ := hc
      exact ⟨hspec, fun answer hanswer => ih answer (hrest answer hanswer)⟩

/-- A relation between stores that every operation allowed by `spec` establishes, and that composes,
holds between the store before a handler and the store after it. -/
theorem eval_frame {exec : Store → (op : sig.Op) → Env → Except ε (sig.Answer op) × Store}
    {frame : Store → Store → Prop} (hrefl : ∀ s, frame s s)
    (htrans : ∀ s mid s', frame s mid → frame mid s' → frame s s')
    (hhonest : ∀ s op env, honest op (exec s op env).1)
    (hop : ∀ trace s op env, spec trace op → frame s (exec s op env).2)
    {trace : List (sig.Event ε)} {c : Coroutine sig ε α} (hc : Issues honest spec trace c)
    (env : Nat → Env) (s : Store) : frame s (c.eval exec env s).2 := by
  induction c generalizing trace env s with
  | done result => exact hrefl s
  | await op resume ih =>
      obtain ⟨hspec, hrest⟩ := hc
      apply htrans s (exec s op (env 0)).2 _ (hop trace s op (env 0) hspec)
      exact ih _ (hrest _ (hhonest s op (env 0))) _ _

end Issues

/-! ### What a handler returns -/

/-- Whatever comes back, a value that the handler returns satisfies `post`. -/
def Returns (post : α → Prop) : Coroutine sig ε α → Prop
  | done result => ∀ value, result = .ok value → post value
  | await _ resume => ∀ answer, Returns post (resume answer)

section Returns

variable {post : α → Prop}

theorem returns_trivial (c : Coroutine sig ε α) : Returns (fun _ => True) c := by
  induction c with
  | done result => exact fun _ _ => trivial
  | await op resume ih => exact ih

theorem returns_mono {strong weak : α → Prop} {c : Coroutine sig ε α} (h : Returns strong c)
    (himp : ∀ value, strong value → weak value) : Returns weak c := by
  induction c with
  | done result => exact fun value hvalue => himp value (h value hvalue)
  | await op resume ih => exact fun answer => ih answer (h answer)

theorem returns_throw (err : ε) : Returns post (throw err : Coroutine sig ε α) := by
  intro value hvalue
  cases hvalue

theorem returns_bind {mid : α → Prop} {post : β → Prop} {c : Coroutine sig ε α}
    {next : α → Coroutine sig ε β} (hc : Returns mid c)
    (hnext : ∀ value, mid value → Returns post (next value)) : Returns post (c >>= next) := by
  induction c with
  | done result =>
      cases result with
      | ok value => exact hnext value (hc value rfl)
      | error err =>
          intro value hvalue
          cases hvalue
  | await op resume ih => exact fun answer => ih answer (hc answer)

theorem returns_tryCatch {c : Coroutine sig ε α} {handle : ε → Coroutine sig ε α}
    (hc : Returns post c) (hhandle : ∀ err, Returns post (handle err)) :
    Returns post (tryCatch c handle) := by
  induction c with
  | done result =>
      cases result with
      | ok value => exact hc
      | error err => exact hhandle err
  | await op resume ih => exact fun answer => ih answer (hc answer)

end Returns

/-! ### What a handler has at its end -/

/-- Whatever comes back (among what `honest` allows), the whole trace and the result are as `post`
says. -/
def Ends (honest : (op : sig.Op) → Except ε (sig.Answer op) → Prop)
    (post : List (sig.Event ε) → Except ε α → Prop) : List (sig.Event ε) → Coroutine sig ε α → Prop
  | trace, done result => post trace result
  | trace, await op resume => ∀ answer, honest op answer →
      Ends honest post (trace ++ [⟨op, answer⟩]) (resume answer)

/-- Whatever comes back, a value that the handler returns goes with its trace as `post` says. -/
abbrev Concludes (post : List (sig.Event ε) → α → Prop) (trace : List (sig.Event ε))
    (c : Coroutine sig ε α) : Prop :=
  Ends (fun _ _ => True) (fun trace result => ∀ value, result = .ok value → post trace value) trace c

section Concludes

variable {post : List (sig.Event ε) → α → Prop} {trace : List (sig.Event ε)}

theorem concludes_trivial (c : Coroutine sig ε α) : Concludes (fun _ _ => True) trace c := by
  induction c generalizing trace with
  | done result => exact fun _ _ => trivial
  | await op resume ih => exact fun answer _ => ih answer

theorem concludes_throw (err : ε) : Concludes post trace (throw err : Coroutine sig ε α) := by
  intro value hvalue
  cases hvalue

theorem concludes_perform {op : sig.Op} {post : List (sig.Event ε) → sig.Answer op → Prop}
    (h : ∀ value, post (trace ++ [⟨op, .ok value⟩]) value) :
    Concludes post trace (perform op : Coroutine sig ε (sig.Answer op)) := by
  rintro answer - value rfl
  exact h value

theorem concludes_bind {mid : List (sig.Event ε) → α → Prop} {post : List (sig.Event ε) → β → Prop}
    {c : Coroutine sig ε α} {next : α → Coroutine sig ε β} (hc : Concludes mid trace c)
    (hnext : ∀ value trace', mid trace' value → Concludes post trace' (next value)) :
    Concludes post trace (c >>= next) := by
  induction c generalizing trace with
  | done result =>
      cases result with
      | ok value => exact hnext value trace (hc value rfl)
      | error err =>
          intro value hvalue
          cases hvalue
  | await op resume ih => exact fun answer hanswer => ih answer (hc answer hanswer)

/-- What has returned adds nothing to the trace. -/
theorem concludes_done_bind {post : List (sig.Event ε) → β → Prop} {result : Except ε α}
    {next : α → Coroutine sig ε β}
    (hnext : ∀ value, result = .ok value → Concludes post trace (next value)) :
    Concludes post trace (done result >>= next) := by
  cases result with
  | ok value => exact hnext value rfl
  | error err =>
      intro value hvalue
      cases hvalue

theorem concludes_tryCatch {c : Coroutine sig ε α} {handle : ε → Coroutine sig ε α}
    (hc : Concludes post trace c) (hhandle : ∀ err trace', Concludes post trace' (handle err)) :
    Concludes post trace (tryCatch c handle) := by
  induction c generalizing trace with
  | done result =>
      cases result with
      | ok value => exact hc
      | error err => exact hhandle err trace
  | await op resume ih => exact fun answer hanswer => ih answer (hc answer hanswer)

end Concludes

/-! ### Where answers lead

`Reaches` is about the answers that a handler hopes for, `Fails` about those that end it. Both judge an
answer by the operation and by the trace before it. -/

/-- While the answers are good, the handler goes on to return a value as `post` says. -/
def Reaches (good : List (sig.Event ε) → (op : sig.Op) → Except ε (sig.Answer op) → Prop)
    (post : α → Prop) : List (sig.Event ε) → Coroutine sig ε α → Prop
  | _, done result => ∃ value, result = .ok value ∧ post value
  | trace, await op resume =>
      ∀ answer, good trace op answer → Reaches good post (trace ++ [⟨op, answer⟩]) (resume answer)

/-- A bad answer ends the handler with an error at once. -/
def Fails (bad : List (sig.Event ε) → (op : sig.Op) → Except ε (sig.Answer op) → Prop) :
    List (sig.Event ε) → Coroutine sig ε α → Prop
  | _, done _ => True
  | trace, await op resume => ∀ answer,
      (bad trace op answer → ∃ err, resume answer = done (.error err)) ∧
        Fails bad (trace ++ [⟨op, answer⟩]) (resume answer)

section Answers

variable {good bad : List (sig.Event ε) → (op : sig.Op) → Except ε (sig.Answer op) → Prop}
  {trace : List (sig.Event ε)}

theorem reaches_bind {mid : α → Prop} {post : β → Prop} {c : Coroutine sig ε α}
    {next : α → Coroutine sig ε β} (hc : Reaches good mid trace c)
    (hnext : ∀ value trace', mid value → Reaches good post trace' (next value)) :
    Reaches good post trace (c >>= next) := by
  induction c generalizing trace with
  | done result =>
      obtain ⟨value, rfl, hvalue⟩ := hc
      exact hnext value trace hvalue
  | await op resume ih => exact fun answer hanswer => ih answer (hc answer hanswer)

theorem reaches_tryCatch {post : α → Prop} {c : Coroutine sig ε α} {handle : ε → Coroutine sig ε α}
    (hc : Reaches good post trace c) : Reaches good post trace (tryCatch c handle) := by
  induction c generalizing trace with
  | done result =>
      obtain ⟨value, rfl, hvalue⟩ := hc
      exact ⟨value, rfl, hvalue⟩
  | await op resume ih => exact fun answer hanswer => ih answer (hc answer hanswer)

theorem fails_done (result : Except ε α) : Fails bad trace (done result) := trivial

theorem fails_bind {c : Coroutine sig ε α} {next : α → Coroutine sig ε β} (hc : Fails bad trace c)
    (hnext : ∀ value trace', Fails bad trace' (next value)) : Fails bad trace (c >>= next) := by
  induction c generalizing trace with
  | done result =>
      cases result with
      | ok value => exact hnext value trace
      | error err => trivial
  | await op resume ih =>
      intro answer
      obtain ⟨hbad, hrest⟩ := hc answer
      refine ⟨fun hanswer => ?_, ih answer hrest⟩
      obtain ⟨err, herr⟩ := hbad hanswer
      exact ⟨err, congrArg (· >>= next) herr⟩

/-- An error may be exchanged for another one. -/
theorem fails_tryCatch {c : Coroutine sig ε α} {handle : ε → Coroutine sig ε α}
    (hc : Fails bad trace c) (hhandle : ∀ err, ∃ err', handle err = done (.error err')) :
    Fails bad trace (tryCatch c handle) := by
  induction c generalizing trace with
  | done result =>
      cases result with
      | ok value => trivial
      | error err =>
          obtain ⟨err', herr⟩ := hhandle err
          show Fails bad trace (handle err)
          rw [herr]
          trivial
  | await op resume ih =>
      intro answer
      obtain ⟨hbad, hrest⟩ := hc answer
      refine ⟨fun hanswer => ?_, ih answer hrest⟩
      obtain ⟨err, herr⟩ := hbad hanswer
      obtain ⟨err', herr'⟩ := hhandle err
      exact ⟨err', (congrArg (tryCatch · handle) herr).trans herr'⟩

end Answers

end Coroutine

end BookHub
