import BookHub.ReviewService.Consumer

/-!
# The connections of the health publisher

`StartHealthPublisher` call by call, with `Connect` and `RunPublishLoop` in their places. An iteration
of its loop dials a connection, opens a channel and declares the exchange, and then it publishes until
it is told to stop: by the context, by a notification that the connection has closed, or by a publish
that fails. Only the first of the three closes the connection, and a `Connect` that fails closes
nothing of what it has opened.

An error closes the channel it comes on and not the connection, unless the connection is lost.
-/

namespace BookHub.ReviewService

/-- What the publisher does next, with the connection of the iteration; `waiting` is the `select` after
a `Connect` that has failed. -/
inductive HealthPoint where
  | dial
  | channel (connection : Nat)
  | exchangeDeclare (connection : Nat)
  | waiting (connection : Option Nat)
  | publishing (connection : Nat)
  | returned
  deriving DecidableEq, Repr

/-- The publisher, its context, the connections it has opened that are still open, and those of them
whose channel is open. -/
structure HealthPublisher where
  phase : HealthPoint
  cancelled : Bool
  dialed : Nat
  connections : List Nat
  channels : List Nat
  deriving DecidableEq, Repr

namespace HealthPublisher

def start : HealthPublisher := ⟨.dial, false, 0, [], []⟩

def closeChannel (s : HealthPublisher) (connection : Nat) : HealthPublisher :=
  { s with channels := s.channels.filter (· ≠ connection) }

def closeConnection (s : HealthPublisher) (connection : Nat) : HealthPublisher :=
  { s with
    connections := s.connections.filter (· ≠ connection)
    channels := s.channels.filter (· ≠ connection) }

/-- What an error leaves of the connection it came on. -/
def fail (s : HealthPublisher) (connection : Nat) : Outcome → HealthPublisher
  | .granted => s.closeChannel connection
  | .channelError => s.closeChannel connection
  | .connectionLost => s.closeConnection connection

/-- The `select` at the end of an iteration. -/
def next (s : HealthPublisher) : HealthPublisher :=
  { s with phase := if s.cancelled then .returned else .dial }

/-- The next call: one of the three of `Connect`, or a publish at a tick. -/
def call (s : HealthPublisher) (outcome : Outcome) : Option HealthPublisher :=
  match s.phase with
  | .dial =>
      if outcome = .granted then
        some { s with
          phase := .channel s.dialed
          dialed := s.dialed + 1
          connections := s.dialed :: s.connections }
      else some { s with phase := .waiting none }
  | .channel connection =>
      if outcome = .granted ∧ connection ∈ s.connections then
        some { s with phase := .exchangeDeclare connection, channels := connection :: s.channels }
      else some { s.fail connection outcome with phase := .waiting connection }
  | .exchangeDeclare connection =>
      if outcome = .granted ∧ connection ∈ s.channels then
        some { s with phase := .publishing connection }
      else some { s.fail connection outcome with phase := .waiting connection }
  | .publishing connection =>
      if outcome = .granted ∧ connection ∈ s.channels then some s
      else some (s.fail connection outcome).next
  | .waiting _ => none
  | .returned => none

/-- `<-ctx.Done()`. -/
def done (s : HealthPublisher) : Option HealthPublisher :=
  if s.cancelled then
    match s.phase with
    | .waiting _ => some { s with phase := .returned }
    | .publishing connection => some (s.closeConnection connection).next
    | _ => none
  else none

/-- `<-time.After(5 * time.Second)`. -/
def elapsed (s : HealthPublisher) : Option HealthPublisher :=
  match s.phase with
  | .waiting _ => some { s with phase := .dial }
  | _ => none

/-- `<-notifyClose`: the connection has closed. -/
def notified (s : HealthPublisher) : Option HealthPublisher :=
  match s.phase with
  | .publishing connection => if connection ∈ s.connections then none else some s.next
  | _ => none

end HealthPublisher

inductive HealthMove where
  | call (outcome : Outcome)
  | done
  | elapsed
  | notified
  | cancel
  | closeChannel (connection : Nat)
  | lose (connection : Nat)
  deriving DecidableEq, Repr

/-- The publisher under any answers of the broker, any loss of channels and connections, and a context
that is cancelled at any time. -/
def healthPublisher : Machine HealthPublisher HealthMove where
  step
    | s, .call outcome => s.call outcome
    | s, .done => s.done
    | s, .elapsed => s.elapsed
    | s, .notified => s.notified
    | s, .cancel => some { s with cancelled := true }
    | s, .closeChannel connection => some (s.closeChannel connection)
    | s, .lose connection => some (s.closeConnection connection)

namespace HealthPublisher

/-- An iteration begins, or the publisher has returned. -/
def Between (s : HealthPublisher) : Prop := s.phase = .dial ∨ s.phase = .returned

/-- Between two iterations no connection is open. -/
def Clean (s : HealthPublisher) : Prop := s.Between → s.connections = []

/-- The connection of the iteration. -/
def current? (s : HealthPublisher) : Option Nat :=
  match s.phase with
  | .dial => none
  | .channel connection => some connection
  | .exchangeDeclare connection => some connection
  | .waiting connection => connection
  | .publishing connection => some connection
  | .returned => none

/-- The broker or the network has closed the connection of the iteration. -/
def Gone (s : HealthPublisher) : Prop := ∀ connection ∈ s.current?, connection ∉ s.connections

/-- The move ends the iteration, and neither does the publisher close anything with it nor is it the
loss of the connection: the wait after a failed `Connect`, and a publish that fails. -/
def Abandons (s : HealthPublisher) : HealthMove → Bool
  | .call outcome =>
      match s.phase with
      | .publishing connection =>
          outcome ≠ .connectionLost ∧ ¬(outcome = .granted ∧ connection ∈ s.channels)
      | _ => false
  | .done =>
      match s.phase with
      | .waiting _ => s.cancelled
      | _ => false
  | .elapsed =>
      match s.phase with
      | .waiting _ => true
      | _ => false
  | _ => false

/-- An iteration is abandoned only after its connection has gone. -/
def Released (s : HealthPublisher) (move : HealthMove) : Prop := s.Abandons move = true → s.Gone

/-! ### During an iteration -/

/-- During an iteration no connection is open but its own. -/
def Own (s : HealthPublisher) : Prop :=
  ¬s.Between → ∀ connection ∈ s.connections, s.current? = some connection

theorem Own.nil_iff_gone {s : HealthPublisher} (h : s.Own) (hphase : ¬s.Between) :
    s.connections = [] ↔ s.Gone := by
  constructor
  · intro hnil connection _ hmem
    rw [hnil] at hmem
    exact absurd hmem List.not_mem_nil
  · intro hgone
    rw [List.eq_nil_iff_forall_not_mem]
    intro connection hmem
    exact hgone connection (h hphase connection hmem) hmem

theorem Own.closeConnection {s : HealthPublisher} (h : s.Own) (hphase : ¬s.Between)
    {connection : Nat} (hcurrent : s.current? = some connection) :
    (s.closeConnection connection).connections = [] := by
  rw [List.eq_nil_iff_forall_not_mem]
  intro other hmem
  obtain ⟨hopen, hne⟩ := List.mem_filter.mp hmem
  have hsame := (h hphase other hopen).symm.trans hcurrent
  simp [Option.some.inj hsame] at hne

theorem mem_of_mem_fail {s : HealthPublisher} {connection other : Nat} {outcome : Outcome}
    (h : other ∈ (s.fail connection outcome).connections) : other ∈ s.connections := by
  cases outcome with
  | granted => exact h
  | channelError => exact h
  | connectionLost => exact (List.mem_filter.mp h).1

/-- What a step keeps, and what it must not do. -/
def StepSpec (s : HealthPublisher) (move : HealthMove) (s' : HealthPublisher) : Prop :=
  s'.Own ∧ (s'.Clean ↔ s.Released move)

theorem stepSpec_of_during {s s' : HealthPublisher} {move : HealthMove} (hphase : ¬s'.Between)
    (hown : ∀ connection ∈ s'.connections, s'.current? = some connection)
    (habandons : s.Abandons move = false) : s.StepSpec move s' := by
  refine ⟨fun _ => hown, iff_of_true (fun h => absurd h hphase) fun h => ?_⟩
  rw [habandons] at h
  cases h

theorem stepSpec_of_ends {s s' : HealthPublisher} {move : HealthMove} (hphase : s'.Between)
    (hnil : s'.connections = [] ↔ s.Released move) : s.StepSpec move s' :=
  ⟨fun h => absurd hphase h, Iff.trans ⟨fun h => h hphase, fun h _ => h⟩ hnil⟩

/-- The phase is as it was, and no connection has come. -/
theorem stepSpec_of_shrinks {s s' : HealthPublisher} {move : HealthMove} (h : s.Own)
    (hclean : s.Clean) (hphase : s'.phase = s.phase)
    (hconnections : ∀ connection ∈ s'.connections, connection ∈ s.connections)
    (habandons : s.Abandons move = false) : s.StepSpec move s' := by
  have hbetween : s'.Between ↔ s.Between := by rw [Between, Between, hphase]
  have hcurrent : s'.current? = s.current? := by rw [current?, current?, hphase]
  refine ⟨fun hduring connection hmem => ?_, iff_of_true (fun hends => ?_) fun hmove => ?_⟩
  · rw [hcurrent]
    exact h (fun hends => hduring (hbetween.mpr hends)) connection (hconnections connection hmem)
  · rw [List.eq_nil_iff_forall_not_mem]
    intro connection hmem
    have hold := hconnections connection hmem
    rw [hclean (hbetween.mp hends)] at hold
    exact absurd hold List.not_mem_nil
  · rw [habandons] at hmove
    cases hmove

theorem between_next (s : HealthPublisher) : s.next.Between := by
  unfold Between next
  cases s.cancelled with
  | true => exact .inr rfl
  | false => exact .inl rfl

/-- An iteration that is abandoned. -/
theorem stepSpec_of_abandons {s s' : HealthPublisher} {move : HealthMove} (h : s.Own)
    (hphase : ¬s.Between) (hends : s'.Between) (hconnections : s'.connections = s.connections)
    (habandons : s.Abandons move = true) : s.StepSpec move s' := by
  apply stepSpec_of_ends hends
  rw [hconnections, h.nil_iff_gone hphase, Released, habandons]
  exact ⟨fun hgone _ => hgone, fun hgone => hgone rfl⟩

/-- An iteration whose connection goes with it, or has gone. -/
theorem stepSpec_of_nil {s s' : HealthPublisher} {move : HealthMove} (hends : s'.Between)
    (hnil : s'.connections = []) (habandons : s.Abandons move = false) : s.StepSpec move s' := by
  refine stepSpec_of_ends hends (iff_of_true hnil fun hmove => ?_)
  rw [habandons] at hmove
  cases hmove

/-- `Dial`, granted or not. -/
theorem stepSpec_of_dial {s s' : HealthPublisher} {outcome : Outcome} (hclean : s.Clean)
    (hphase : s.phase = .dial) (hmove : s.call outcome = some s') : s.StepSpec (.call outcome) s' := by
  have hnil := hclean (.inl hphase)
  have habandons : s.Abandons (.call outcome) = false := by simp [Abandons, hphase]
  simp only [call, hphase] at hmove
  split at hmove
  · obtain rfl := Option.some.inj hmove
    refine stepSpec_of_during (by simp [Between]) (fun connection hmem => ?_) habandons
    rw [hnil] at hmem
    rw [List.mem_singleton.mp hmem]
    rfl
  · obtain rfl := Option.some.inj hmove
    refine stepSpec_of_during (by simp [Between]) (fun connection hmem => ?_) habandons
    rw [hnil] at hmem
    exact absurd hmem List.not_mem_nil

/-- A publish that fails ends the iteration. -/
theorem stepSpec_of_publish {s : HealthPublisher} {connection : Nat} {outcome : Outcome} (h : s.Own)
    (hphase : s.phase = .publishing connection)
    (hfails : ¬(outcome = .granted ∧ connection ∈ s.channels)) :
    s.StepSpec (.call outcome) (s.fail connection outcome).next := by
  have hduring : ¬s.Between := by simp [Between, hphase]
  have hcurrent : s.current? = some connection := by rw [current?, hphase]
  have hends := between_next (s.fail connection outcome)
  cases outcome with
  | granted =>
      apply stepSpec_of_abandons h hduring hends rfl
      simpa [Abandons, hphase] using hfails
  | channelError =>
      apply stepSpec_of_abandons h hduring hends rfl
      simp [Abandons, hphase]
  | connectionLost =>
      apply stepSpec_of_nil hends (h.closeConnection hduring hcurrent)
      simp [Abandons, hphase]

/-- The two further calls of `Connect` are about the connection that it has dialled. -/
theorem call_connecting {s s' : HealthPublisher} {connection : Nat} {outcome : Outcome}
    (hphase : s.phase = .channel connection ∨ s.phase = .exchangeDeclare connection)
    (hmove : s.call outcome = some s') :
    ¬s'.Between ∧ s'.current? = some connection ∧ ∀ other ∈ s'.connections, other ∈ s.connections := by
  obtain hphase | hphase := hphase
  · simp only [call, hphase] at hmove
    split at hmove
    · obtain rfl := Option.some.inj hmove
      exact ⟨by simp [Between], rfl, fun _ hmem => hmem⟩
    · obtain rfl := Option.some.inj hmove
      exact ⟨by simp [Between], rfl, fun _ hmem => mem_of_mem_fail hmem⟩
  · simp only [call, hphase] at hmove
    split at hmove
    · obtain rfl := Option.some.inj hmove
      exact ⟨by simp [Between], rfl, fun _ hmem => hmem⟩
    · obtain rfl := Option.some.inj hmove
      exact ⟨by simp [Between], rfl, fun _ hmem => mem_of_mem_fail hmem⟩

theorem stepSpec_of_connecting {s s' : HealthPublisher} {connection : Nat} {outcome : Outcome}
    (h : s.Own) (hphase : s.phase = .channel connection ∨ s.phase = .exchangeDeclare connection)
    (hmove : s.call outcome = some s') : s.StepSpec (.call outcome) s' := by
  obtain ⟨hduring', hcurrent', hconnections⟩ := call_connecting hphase hmove
  have hduring : ¬s.Between := by
    obtain hphase | hphase := hphase <;> simp [Between, hphase]
  have hcurrent : s.current? = some connection := by
    obtain hphase | hphase := hphase <;> rw [current?, hphase]
  apply stepSpec_of_during hduring'
  · intro other hmem
    rw [hcurrent', ← hcurrent]
    exact h hduring other (hconnections other hmem)
  · obtain hphase | hphase := hphase <;> simp [Abandons, hphase]

theorem stepSpec_of_call {s s' : HealthPublisher} {outcome : Outcome} (h : s.Own) (hclean : s.Clean)
    (hmove : s.call outcome = some s') : s.StepSpec (.call outcome) s' := by
  cases hphase : s.phase with
  | dial => exact stepSpec_of_dial hclean hphase hmove
  | channel connection => exact stepSpec_of_connecting h (.inl hphase) hmove
  | exchangeDeclare connection => exact stepSpec_of_connecting h (.inr hphase) hmove
  | waiting connection =>
      simp only [call, hphase] at hmove
      cases hmove
  | publishing connection =>
      simp only [call, hphase] at hmove
      split at hmove
      · rename_i hpublished
        obtain rfl := Option.some.inj hmove
        apply stepSpec_of_shrinks h hclean rfl fun _ hmem => hmem
        simp [Abandons, hphase, hpublished]
      · rename_i hfails
        obtain rfl := Option.some.inj hmove
        exact stepSpec_of_publish h hphase hfails
  | returned =>
      simp only [call, hphase] at hmove
      cases hmove

theorem stepSpec_of_done {s s' : HealthPublisher} (h : s.Own) (hmove : s.done = some s') :
    s.StepSpec .done s' := by
  obtain ⟨hcancelled, hmove⟩ := Option.ite_none_right_eq_some.mp hmove
  split at hmove
  · rename_i connection hphase
    obtain rfl := Option.some.inj hmove
    have hduring : ¬s.Between := by simp [Between, hphase]
    refine stepSpec_of_abandons h hduring (.inr rfl) rfl ?_
    simpa [Abandons, hphase] using hcancelled
  · rename_i connection hphase
    obtain rfl := Option.some.inj hmove
    have hduring : ¬s.Between := by simp [Between, hphase]
    have hcurrent : s.current? = some connection := by rw [current?, hphase]
    have hends := between_next (s.closeConnection connection)
    refine stepSpec_of_nil hends (h.closeConnection hduring hcurrent) ?_
    simp [Abandons, hphase]
  · cases hmove

theorem stepSpec_of_elapsed {s s' : HealthPublisher} (h : s.Own) (hmove : s.elapsed = some s') :
    s.StepSpec .elapsed s' := by
  unfold elapsed at hmove
  split at hmove
  · rename_i connection hphase
    obtain rfl := Option.some.inj hmove
    have hduring : ¬s.Between := by simp [Between, hphase]
    refine stepSpec_of_abandons h hduring (.inl rfl) rfl ?_
    simp [Abandons, hphase]
  · cases hmove

theorem stepSpec_of_notified {s s' : HealthPublisher} (h : s.Own) (hmove : s.notified = some s') :
    s.StepSpec .notified s' := by
  unfold notified at hmove
  split at hmove
  · rename_i connection hphase
    obtain ⟨hclosed, hmove⟩ := Option.ite_none_left_eq_some.mp hmove
    obtain rfl := Option.some.inj hmove
    have hduring : ¬s.Between := by simp [Between, hphase]
    have hgone : s.Gone := by
      intro other hcurrent
      simp only [current?, hphase, Option.mem_some_iff] at hcurrent
      rwa [← hcurrent]
    exact stepSpec_of_nil (between_next s) ((h.nil_iff_gone hduring).mpr hgone) rfl
  · cases hmove

theorem stepSpec_of_step {s s' : HealthPublisher} {move : HealthMove} (h : s.Own) (hclean : s.Clean)
    (hmove : healthPublisher.step s move = some s') : s.StepSpec move s' := by
  cases move with
  | call outcome => exact stepSpec_of_call h hclean hmove
  | done => exact stepSpec_of_done h hmove
  | elapsed => exact stepSpec_of_elapsed h hmove
  | notified => exact stepSpec_of_notified h hmove
  | cancel =>
      obtain rfl := Option.some.inj hmove
      exact stepSpec_of_shrinks h hclean rfl (fun _ hmem => hmem) rfl
  | closeChannel connection =>
      obtain rfl := Option.some.inj hmove
      exact stepSpec_of_shrinks h hclean rfl (fun _ hmem => hmem) rfl
  | lose connection =>
      obtain rfl := Option.some.inj hmove
      exact stepSpec_of_shrinks h hclean rfl (fun _ hmem => (List.mem_filter.mp hmem).1) rfl

/-! ### Runs -/

/-- A move that ends an iteration is one that can be made. -/
theorem not_abandons_of_stuck {s : HealthPublisher} {move : HealthMove}
    (h : healthPublisher.step s move = none) : s.Abandons move = false := by
  cases move with
  | call outcome =>
      change s.call outcome = none at h
      cases hphase : s.phase with
      | publishing connection =>
          simp only [call, hphase] at h
          split at h <;> cases h
      | _ => simp [Abandons, hphase]
  | done =>
      change s.done = none at h
      cases hphase : s.phase with
      | waiting connection => simpa [done, Abandons, hphase] using h
      | _ => simp [Abandons, hphase]
  | elapsed =>
      change s.elapsed = none at h
      cases hphase : s.phase with
      | waiting connection =>
          simp only [elapsed, hphase] at h
          cases h
      | _ => simp [Abandons, hphase]
  | _ => rfl

/-- Between the iterations of a run no connection is open, exactly if every iteration of the run that
is abandoned has lost its connection by then. -/
theorem always_clean_iff (moves : List HealthMove) :
    healthPublisher.Always Clean start moves ↔ healthPublisher.Meets Released start moves := by
  apply @Machine.always_iff_meets_of_base _ _ _ _ Own
  · intro s move s' h hclean hmove
    exact (stepSpec_of_step h hclean hmove).1
  · intro s move s' h hclean hmove
    exact (stepSpec_of_step h hclean hmove).2
  · intro s move hstuck hmove
    rw [not_abandons_of_stuck hstuck] at hmove
    cases hmove
  · exact fun _ _ hmem => absurd hmem List.not_mem_nil
  · exact fun _ => rfl

/-- The broker refuses to declare the exchange. -/
def declareRefused : List HealthMove := [.call .granted, .call .granted, .call .channelError]

/-- After the refusal the connection is left open, by the next iteration and by the return; so it is
by a publish on a channel that the broker has closed. -/
theorem not_always_clean :
    (∃ s, healthPublisher.run start (declareRefused ++ [.elapsed]) = some s ∧
      s.phase = .dial ∧ s.connections = [0]) ∧
    (∃ s, healthPublisher.run start (declareRefused ++ [.cancel, .done]) = some s ∧
      s.phase = .returned ∧ s.connections = [0]) ∧
    ∃ s, healthPublisher.run start [.call .granted, .call .granted, .call .granted, .closeChannel 0,
      .call .granted] = some s ∧ s.phase = .dial ∧ s.connections = [0] :=
  ⟨⟨_, rfl, rfl, rfl⟩, ⟨_, rfl, rfl, rfl⟩, _, rfl, rfl, rfl⟩

end HealthPublisher

end BookHub.ReviewService
