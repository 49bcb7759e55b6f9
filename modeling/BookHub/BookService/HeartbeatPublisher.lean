import BookHub.Base.Json
import BookHub.Base.Machine

/-!
# The heartbeat publisher of the book service and the media service

A thread keeps a connection and a channel and publishes on the channel every ten seconds. Before it
publishes it connects anew if the connection is closed, and that is all it asks: a channel that is
closed, or was never opened, on a connection that is up, is left as it is, and publishing on it raises
before anything is sent. `stuck_step` says that nothing leads out of this.
-/

namespace BookHub.BookService

/-- What an operation of the client library raises: an `AMQPConnectionError`, an `AMQPChannelError`,
or something else. -/
inductive PikaError where
  | connection
  | channel
  | other
  deriving DecidableEq, Repr

/-- A connection, as the library and the network see it; a lost one is noticed at its next use. -/
inductive Connection where
  | up
  | lost
  | closed
  deriving DecidableEq, Repr

inductive Channel where
  | opened
  | closed
  deriving DecidableEq, Repr

/-- What differs between the two services. -/
structure HeartbeatConfig where
  serviceId : String
  cpu : Int
  data : String × Int

def bookServiceHeartbeat : HeartbeatConfig := ⟨"bookhub.book-service", 88, ("books", 101)⟩

def mediaServiceHeartbeat : HeartbeatConfig := ⟨"bookhub.media-service", 42, ("mediaFiles", 23)⟩

def HeartbeatConfig.payload (config : HeartbeatConfig) (timestamp : String) : Json :=
  .obj [("serviceId", .str config.serviceId), ("status", .str "alive"),
    ("timestamp", .str timestamp), ("stats", .obj [("cpu", .int config.cpu)]),
    ("data", .obj [(config.data.1, .int config.data.2)])]

/-- The two attributes of the thread. -/
structure HeartbeatPublisher where
  connection : Option Connection
  channel : Option Channel
  deriving DecidableEq, Repr

/-- What the operations of one iteration raise, should it come to them, and what the clock says. -/
structure HeartbeatEnv where
  connect : Option PikaError
  channel : Option PikaError
  declare : Option PikaError
  publish : Option PikaError
  timestamp : String
  deriving DecidableEq, Repr

/-- One iteration: what it published, if anything, the seconds it slept, and what it left. -/
structure Iteration where
  published : Option Json
  slept : Nat
  after : HeartbeatPublisher

namespace HeartbeatPublisher

def init : HeartbeatPublisher := ⟨none, none⟩

/-- A closed connection closes its channel. -/
def closeConnection (s : HeartbeatPublisher) : HeartbeatPublisher :=
  ⟨some .closed, s.channel.map fun _ => .closed⟩

/-- What an operation on the channel of the thread leaves when it raises. -/
def failed (s : HeartbeatPublisher) : PikaError → HeartbeatPublisher
  | .connection => s.closeConnection
  | .channel => { s with channel := some .closed }
  | .other => s

/-- The guard of `run`: `not self.connection or self.connection.is_closed`. -/
def reconnects (s : HeartbeatPublisher) : Bool :=
  s.connection = none ∨ s.connection = some .closed

/-- What `connect` raises, and what it leaves; the channel attribute is assigned when the channel
is there. -/
def connect (env : HeartbeatEnv) (s : HeartbeatPublisher) : Option PikaError × HeartbeatPublisher :=
  match env.connect with
  | some err => (some err, s)
  | none =>
      let s := { s with connection := some .up }
      match env.channel with
      | some .connection => (some .connection, s.closeConnection)
      | some err => (some err, s)
      | none =>
          let s := { s with channel := some .opened }
          match env.declare with
          | some err => (some err, s.failed err)
          | none => (none, s)

/-- `self.channel.basic_publish`; without a channel it is an `AttributeError`. -/
def basicPublish (env : HeartbeatEnv) (s : HeartbeatPublisher) :
    Option PikaError × HeartbeatPublisher :=
  match s.channel with
  | none => (some .other, s)
  | some .closed => (some .channel, s)
  | some .opened =>
      if s.connection = some .up then
        match env.publish with
        | some err => (some err, s.failed err)
        | none => (none, s)
      else (some .connection, s.closeConnection)

/-- The body of the `try`, up to the sleep. -/
def attempt (env : HeartbeatEnv) (s : HeartbeatPublisher) : Option PikaError × HeartbeatPublisher :=
  match if s.reconnects then s.connect env else (none, s) with
  | (some err, s) => (some err, s)
  | (none, s) => s.basicPublish env

/-- The body of the loop: the `try`, and its `except` clauses. -/
def iterate (config : HeartbeatConfig) (env : HeartbeatEnv) (s : HeartbeatPublisher) : Iteration :=
  match s.attempt env with
  | (none, s) => ⟨some (config.payload env.timestamp), 10, s⟩
  | (some .connection, s) => ⟨none, 5, s⟩
  | (some .channel, s) => ⟨none, 5, s⟩
  | (some .other, s) => ⟨none, 10, s⟩

end HeartbeatPublisher

/-- An iteration, or what the broker and the network do between two of them: the connection goes
away unnoticed, or the broker closes the channel. -/
inductive HeartbeatLabel where
  | iterate (env : HeartbeatEnv)
  | lose
  | closeChannel
  deriving DecidableEq, Repr

def loop (config : HeartbeatConfig) : Machine HeartbeatPublisher HeartbeatLabel where
  step s label :=
    match label with
    | .iterate env => some (s.iterate config env).after
    | .lose => some { s with connection := s.connection.map fun c => if c = .up then .lost else c }
    | .closeChannel =>
        some (if s.connection = some .up then { s with channel := some .closed } else s)

/-- Every operation on an open connection and channel is accepted. -/
def accepting (timestamp : String) : HeartbeatEnv := ⟨none, none, none, none, timestamp⟩

/-- With a broker that accepts everything, one of the next two iterations publishes. -/
def Recovers (config : HeartbeatConfig) (s : HeartbeatPublisher) : Prop :=
  ∀ first second, (s.iterate config (accepting first)).published.isSome = true ∨
    ((s.iterate config (accepting first)).after.iterate config
      (accepting second)).published.isSome = true

/-- A connection that is not known to be closed, without an open channel. -/
def Stuck (s : HeartbeatPublisher) : Prop := s.reconnects = false ∧ s.channel ≠ some .opened

/-- What must not fail while the connection stays: opening the channel, declaring and publishing, and
the channel between two iterations. -/
def KeepsChannel (s : HeartbeatPublisher) : HeartbeatLabel → Prop
  | .iterate env =>
      if s.reconnects then
        env.connect = none →
          env.channel ≠ some .channel ∧ env.channel ≠ some .other ∧
            (env.channel = none → env.declare ≠ some .channel ∧
              (env.declare = none → env.publish ≠ some .channel))
      else s.connection = some .up → env.publish ≠ some .channel
  | .lose => True
  | .closeChannel => s.connection ≠ some .up

/-! ### One iteration -/

theorem after_iterate (config : HeartbeatConfig) (env : HeartbeatEnv) (s : HeartbeatPublisher) :
    (s.iterate config env).after = (s.attempt env).2 := by
  unfold HeartbeatPublisher.iterate
  split <;> (rename_i hattempt; rw [hattempt])

theorem published_iterate (config : HeartbeatConfig) (env : HeartbeatEnv) (s : HeartbeatPublisher) :
    (s.iterate config env).published.isSome = true ↔ (s.attempt env).1 = none := by
  unfold HeartbeatPublisher.iterate
  split <;> (rename_i hattempt; simp [hattempt])

theorem attempt_of_connected {s : HeartbeatPublisher} (h : s.reconnects = false)
    (env : HeartbeatEnv) : s.attempt env = s.basicPublish env := by
  rw [HeartbeatPublisher.attempt, h]
  rfl

theorem attempt_of_reconnects {s : HeartbeatPublisher} (h : s.reconnects = true)
    (env : HeartbeatEnv) :
    s.attempt env =
      match s.connect env with
      | (some err, s) => (some err, s)
      | (none, s) => s.basicPublish env := by
  rw [HeartbeatPublisher.attempt, h]
  rfl

/-- Without an open channel nothing is sent, and nothing changes. -/
theorem basicPublish_of_not_opened {s : HeartbeatPublisher} (h : s.channel ≠ some .opened)
    (env : HeartbeatEnv) : (s.basicPublish env).1 ≠ none ∧ (s.basicPublish env).2 = s := by
  unfold HeartbeatPublisher.basicPublish
  split
  · simp
  · simp
  · rename_i hopened
    exact absurd hopened h

theorem attempt_of_stuck {s : HeartbeatPublisher} (h : Stuck s) (env : HeartbeatEnv) :
    (s.attempt env).1 ≠ none ∧ (s.attempt env).2 = s := by
  rw [attempt_of_connected h.1]
  exact basicPublish_of_not_opened h.2 env

theorem attempt_accepting_of_reconnects {s : HeartbeatPublisher} (h : s.reconnects = true)
    (timestamp : String) : (s.attempt (accepting timestamp)).1 = none := by
  rw [attempt_of_reconnects h]
  rfl

/-- The states from which the loop recovers: no connection to speak of, or an open channel. -/
theorem recovers_iff_not_stuck (config : HeartbeatConfig) (s : HeartbeatPublisher) :
    Recovers config s ↔ ¬Stuck s := by
  simp only [Recovers, published_iterate, after_iterate]
  constructor
  · intro h hstuck
    obtain ⟨hfirst, hsame⟩ := attempt_of_stuck hstuck (accepting "")
    have hnext := h "" ""
    rw [hsame] at hnext
    exact hnext.elim hfirst hfirst
  · intro h first second
    cases hguard : s.reconnects with
    | true => exact Or.inl (attempt_accepting_of_reconnects hguard first)
    | false =>
        have hchannel : s.channel = some .opened := by
          by_contra hne
          exact h ⟨hguard, hne⟩
        rw [attempt_of_connected hguard]
        by_cases hup : s.connection = some .up
        · left
          simp [HeartbeatPublisher.basicPublish, hchannel, hup, accepting]
        · -- the lost connection is noticed, and the next iteration connects
          right
          apply attempt_accepting_of_reconnects
          simp [HeartbeatPublisher.basicPublish, hchannel, hup, HeartbeatPublisher.closeConnection,
            HeartbeatPublisher.reconnects]

/-! ### Runs -/

/-- The channel of a connection that is closed, or not there, is not open. -/
def Coherent (s : HeartbeatPublisher) : Prop := s.reconnects = true → s.channel ≠ some .opened

theorem coherent_closeConnection (s : HeartbeatPublisher) : Coherent s.closeConnection := by
  intro _
  cases hchannel : s.channel <;> simp [HeartbeatPublisher.closeConnection, hchannel]

theorem not_stuck_closeConnection (s : HeartbeatPublisher) : ¬Stuck s.closeConnection := by
  intro h
  exact Bool.noConfusion h.1

/-- Publishing on the open channel of a connection that is up or lost. -/
theorem basicPublish_spec {s : HeartbeatPublisher} (hguard : s.reconnects = false)
    (hchannel : s.channel = some .opened) (env : HeartbeatEnv) :
    Coherent (s.basicPublish env).2 ∧
      (¬Stuck (s.basicPublish env).2 ↔ (s.connection = some .up → env.publish ≠ some .channel)) := by
  simp only [HeartbeatPublisher.basicPublish, hchannel]
  by_cases hup : s.connection = some .up
  · rw [if_pos hup]
    cases hpublish : env.publish with
    | none => simp [Coherent, Stuck, hguard, hchannel]
    | some err =>
        cases err with
        | connection =>
            refine ⟨coherent_closeConnection s, ?_⟩
            exact iff_of_true (not_stuck_closeConnection s) (by simp)
        | channel => simp [Coherent, Stuck, HeartbeatPublisher.failed, HeartbeatPublisher.reconnects, hup]
        | other => simp [Coherent, Stuck, HeartbeatPublisher.failed, hguard, hchannel]
  · rw [if_neg hup]
    refine ⟨coherent_closeConnection s, ?_⟩
    exact iff_of_true (not_stuck_closeConnection s) (fun hup' => absurd hup' hup)

/-- Connecting anew, and publishing if that went well. -/
theorem attempt_reconnecting {s : HeartbeatPublisher} (hguard : s.reconnects = true)
    (hcoherent : Coherent s) (env : HeartbeatEnv) :
    Coherent (s.attempt env).2 ∧ (¬Stuck (s.attempt env).2 ↔ KeepsChannel s (.iterate env)) := by
  have hold := hcoherent hguard
  rw [attempt_of_reconnects hguard]
  simp only [KeepsChannel, hguard, if_true, HeartbeatPublisher.connect]
  cases hconnect : env.connect with
  | some err => simp [Coherent, Stuck, hguard, hold]
  | none =>
      cases hopen : env.channel with
      | some err =>
          cases err with
          | connection =>
              refine ⟨coherent_closeConnection _, ?_⟩
              exact iff_of_true (not_stuck_closeConnection _) (by simp)
          | channel => simp [Coherent, Stuck, HeartbeatPublisher.reconnects, hold]
          | other => simp [Coherent, Stuck, HeartbeatPublisher.reconnects, hold]
      | none =>
          cases hdeclare : env.declare with
          | some err =>
              cases err with
              | connection =>
                  refine ⟨coherent_closeConnection _, ?_⟩
                  exact iff_of_true (not_stuck_closeConnection _) (by simp)
              | channel =>
                  simp [Coherent, Stuck, HeartbeatPublisher.failed, HeartbeatPublisher.reconnects]
              | other =>
                  simp [Coherent, Stuck, HeartbeatPublisher.failed, HeartbeatPublisher.reconnects]
          | none =>
              obtain ⟨hafter, hstuck⟩ :=
                @basicPublish_spec ⟨some .up, some .opened⟩ rfl rfl env
              refine ⟨hafter, hstuck.trans ?_⟩
              simp

/-- From a state that is not stuck, a step leads to one exactly if a channel operation of it fails
while the connection stays. -/
theorem not_stuck_step (config : HeartbeatConfig) {s s' : HeartbeatPublisher}
    {label : HeartbeatLabel} (hcoherent : Coherent s) (h : ¬Stuck s)
    (hmove : (loop config).step s label = some s') :
    Coherent s' ∧ (¬Stuck s' ↔ KeepsChannel s label) := by
  have hopened : s.reconnects = false → s.channel = some .opened := by
    intro hguard
    by_contra hne
    exact h ⟨hguard, hne⟩
  cases label with
  | iterate env =>
      obtain rfl := Option.some.inj hmove
      rw [after_iterate]
      cases hguard : s.reconnects with
      | true => exact attempt_reconnecting hguard hcoherent env
      | false =>
          rw [attempt_of_connected hguard]
          simp only [KeepsChannel, hguard, Bool.false_eq_true, if_false]
          exact basicPublish_spec hguard (hopened hguard) env
  | lose =>
      obtain rfl := Option.some.inj hmove
      have hguard : ∀ c channel, (⟨Option.map (fun c => if c = .up then .lost else c) c, channel⟩ :
          HeartbeatPublisher).reconnects = (⟨c, channel⟩ : HeartbeatPublisher).reconnects := by
        intro c channel
        cases c with
        | none => rfl
        | some c => cases c <;> rfl
      refine ⟨fun h' => hcoherent ((hguard _ _).symm.trans h'), iff_of_true ?_ trivial⟩
      intro hstuck
      exact h ⟨(hguard _ _).symm.trans hstuck.1, hstuck.2⟩
  | closeChannel =>
      obtain rfl := Option.some.inj hmove
      by_cases hup : s.connection = some .up
      · rw [if_pos hup]
        simp [Coherent, Stuck, KeepsChannel, HeartbeatPublisher.reconnects, hup]
      · rw [if_neg hup]
        exact ⟨hcoherent, iff_of_true h hup⟩

/-- There is no way out: whatever happens afterwards, nothing is published. -/
theorem stuck_step (config : HeartbeatConfig) {s s' : HeartbeatPublisher} {label : HeartbeatLabel}
    (h : Stuck s) (hmove : (loop config).step s label = some s') :
    Stuck s' ∧ ∀ env, (s'.iterate config env).published = none := by
  have hstuck : Stuck s' := by
    obtain ⟨hguard, hchannel⟩ := h
    cases label with
    | iterate env =>
        obtain rfl := Option.some.inj hmove
        rw [after_iterate, (attempt_of_stuck ⟨hguard, hchannel⟩ env).2]
        exact ⟨hguard, hchannel⟩
    | lose =>
        obtain rfl := Option.some.inj hmove
        refine ⟨?_, hchannel⟩
        obtain ⟨connection, channel⟩ := s
        cases connection with
        | none => exact hguard
        | some c => cases c <;> first | rfl | exact hguard
    | closeChannel =>
        obtain rfl := Option.some.inj hmove
        split
        · exact ⟨hguard, by simp⟩
        · exact ⟨hguard, hchannel⟩
  refine ⟨hstuck, fun env => ?_⟩
  have hraised := (attempt_of_stuck hstuck env).1
  rwa [Ne, ← published_iterate config env s', Bool.not_eq_true, Option.isSome_eq_false_iff,
    Option.isNone_iff_eq_none] at hraised

/-- The loop recovers from every state of a run exactly if no channel operation of the run fails while
the connection stays. -/
theorem always_recovers_iff (config : HeartbeatConfig) (labels : List HeartbeatLabel) :
    (loop config).Always (Recovers config) .init labels ↔
      (loop config).Meets KeepsChannel .init labels := by
  apply Machine.always_iff_meets_of_base
  · intro s label s' hcoherent hrecovers hmove
    exact (not_stuck_step config hcoherent ((recovers_iff_not_stuck config s).mp hrecovers) hmove).1
  · intro s label s' hcoherent hrecovers hmove
    rw [recovers_iff_not_stuck]
    exact (not_stuck_step config hcoherent ((recovers_iff_not_stuck config s).mp hrecovers) hmove).2
  · intro s label hnone
    cases label <;> cases hnone
  · intro _
    exact Option.some_ne_none _ ∘ Eq.symm
  · rw [recovers_iff_not_stuck]
    exact fun h => Bool.noConfusion h.1

/-- The broker refuses to declare the exchange once, and accepts everything afterwards. -/
def refusedOnce : HeartbeatEnv := ⟨none, none, some .channel, none, "2025-01-01T00:00:00Z"⟩

theorem not_recovers_refusedOnce :
    ∃ s, (loop bookServiceHeartbeat).run .init [.iterate refusedOnce] = some s ∧
      ¬Recovers bookServiceHeartbeat s := by
  refine ⟨⟨some .up, some .closed⟩, by decide, ?_⟩
  intro h
  have hnone := h "" ""
  revert hnone
  decide

end BookHub.BookService
