import BookHub.Base.Machine

/-!
# The broker connection of the user service

`connectBroker` between its awaits. An invocation loops until a connection, a channel on it and the
heartbeat exchange are there; a failure after any of the three awaits is caught, slept over and tried
again from the top. What an attempt has opened by then is left as it is: nothing is closed in the
`catch`. The handlers are registered by the attempt that succeeds, the one of `close` on its
connection, the one of `SIGINT` on the process.

The broker and the network settle what an invocation waits for, in any order and with any outcome, and
close connections whenever they like. A promise may have been resolved before the connection closed
and be taken up only afterwards.
-/

namespace BookHub.UserService

/-- What an invocation of `connectBroker` waits for. -/
inductive Invocation where
  | connect
  | createChannel (connection : Nat)
  | assertExchange (connection channel : Nat)
  | delay (ms : Nat)
  deriving DecidableEq, Repr

inductive Settled where
  | resolved
  | rejected
  deriving DecidableEq, Repr

/-- The two variables of the module, the invocations that are running and the number of those that a
timeout will start; of the connections it has opened, those that are open, those that have its handler
for each of the two events, and the channels that the exchange has been asserted on. -/
structure BrokerConnection where
  channel : Option Nat
  expBackoff : Nat
  running : List Invocation
  scheduled : Nat
  connections : List Nat
  closeHandlers : List Nat
  sigintHandlers : List Nat
  asserted : List Nat
  opened : Nat
  created : Nat
  deriving DecidableEq, Repr

namespace BrokerConnection

/-- The server has called `connectBroker`. -/
def start : BrokerConnection := ⟨none, 1000, [.connect], 0, [], [], [], [], 0, 0⟩

/-- The `catch`: the invocation waits before it tries again. -/
def caught (s : BrokerConnection) (index : Nat) : BrokerConnection :=
  { s with running := s.running.set index (.delay s.expBackoff) }

/-- What an invocation waits for has come, and it goes on to its next `await`, or to its end. -/
def resume (s : BrokerConnection) (index : Nat) : Invocation → BrokerConnection
  | .connect =>
      { s with
        running := s.running.set index (.createChannel s.opened)
        connections := s.opened :: s.connections
        opened := s.opened + 1 }
  | .createChannel connection =>
      { s with
        channel := some s.created
        created := s.created + 1
        -- on the channel of a closed connection `assertExchange` throws
        running := s.running.set index
          (if connection ∈ s.connections then .assertExchange connection s.created
            else .delay s.expBackoff) }
  | .assertExchange connection channel =>
      { s with
        running := s.running.eraseIdx index
        asserted := channel :: s.asserted
        closeHandlers := connection :: s.closeHandlers
        sigintHandlers := connection :: s.sigintHandlers
        expBackoff := 1000 }
  | .delay _ =>
      { s with running := s.running.set index .connect, expBackoff := s.expBackoff * 2 }

/-- The end of what an invocation waits for; a delay does not fail. -/
def settle (s : BrokerConnection) (index : Nat) (invocation : Invocation) :
    Settled → Option BrokerConnection
  | .resolved => some (s.resume index invocation)
  | .rejected =>
      match invocation with
      | .delay _ => none
      | _ => some (s.caught index)

/-- A connection closes, and its handlers run: each forgets the channel and sets a timeout. -/
def close (s : BrokerConnection) (connection : Nat) : BrokerConnection :=
  let handlers := s.closeHandlers.count connection
  { s with
    connections := s.connections.filter (· ≠ connection)
    channel := if handlers = 0 then s.channel else none
    scheduled := s.scheduled + handlers }

/-- A timeout of a `close` handler is over. -/
def timeout (s : BrokerConnection) : Option BrokerConnection :=
  if s.scheduled = 0 then none
  else some { s with scheduled := s.scheduled - 1, running := s.running ++ [.connect] }

def getBrokerChannel (s : BrokerConnection) : Except String Nat :=
  match s.channel with
  | none => .error "RabbitMQ not connected"
  | some channel => .ok channel

end BrokerConnection

inductive BrokerEvent where
  | settle (index : Nat) (settled : Settled)
  | close (connection : Nat)
  | timeout
  deriving DecidableEq, Repr

/-- `connectBroker` under any outcomes of what it waits for, and any loss of connections. -/
def broker : Machine BrokerConnection BrokerEvent where
  step
    | s, .settle index settled => s.running[index]?.bind fun invocation =>
        s.settle index invocation settled
    | s, .close connection => if connection ∈ s.connections then some (s.close connection) else none
    | s, .timeout => s.timeout

namespace BrokerConnection

/-! ### What the manager is for -/

def OneConnection (s : BrokerConnection) : Prop := s.connections.length ≤ 1

def OneInvocation (s : BrokerConnection) : Prop := s.running.length + s.scheduled ≤ 1

def OneHandler (s : BrokerConnection) : Prop := s.sigintHandlers.length ≤ 1

instance (s : BrokerConnection) : Decidable s.OneConnection := Nat.decLe _ 1

instance (s : BrokerConnection) : Decidable s.OneHandler := Nat.decLe _ 1

def AssertedChannel (s : BrokerConnection) : Prop :=
  ∀ channel, s.getBrokerChannel = .ok channel → channel ∈ s.asserted

def WellManaged (s : BrokerConnection) : Prop :=
  s.OneConnection ∧ s.OneInvocation ∧ s.OneHandler ∧ s.AssertedChannel

/-- A condition on what is resumed. -/
def Resumes (cond : BrokerConnection → Invocation → Prop) (s : BrokerConnection) :
    BrokerEvent → Prop
  | .settle index .resolved => ∀ invocation ∈ s.running[index]?, cond s invocation
  | _ => True

/-- No connection is open when another one opens. -/
def Alone (s : BrokerConnection) : Invocation → Prop
  | .connect => s.connections = []
  | _ => True

/-- No attempt has succeeded when another one does. -/
def FirstSuccess (s : BrokerConnection) : Invocation → Prop
  | .assertExchange _ _ => s.sigintHandlers = []
  | _ => True

/-- No channel is created. -/
def Uncreated (_ : BrokerConnection) : Invocation → Prop
  | .createChannel _ => False
  | _ => True

/-! ### The steps -/

theorem settle_cases {s s' : BrokerConnection} {index : Nat} {settled : Settled}
    (h : broker.step s (.settle index settled) = some s') :
    ∃ invocation, s.running[index]? = some invocation ∧
      (settled = .resolved ∧ s' = s.resume index invocation ∨
        settled = .rejected ∧ s' = s.caught index) := by
  obtain ⟨invocation, hrunning, hsettle⟩ := Option.bind_eq_some_iff.mp h
  refine ⟨invocation, hrunning, ?_⟩
  cases settled with
  | resolved => exact .inl ⟨rfl, (Option.some.inj hsettle).symm⟩
  | rejected =>
      cases invocation with
      | delay ms => cases hsettle
      | _ => exact .inr ⟨rfl, (Option.some.inj hsettle).symm⟩

theorem close_cases {s s' : BrokerConnection} {connection : Nat}
    (h : broker.step s (.close connection) = some s') :
    connection ∈ s.connections ∧ s' = s.close connection := by
  obtain ⟨hopen, hclose⟩ := Option.ite_none_right_eq_some.mp h
  exact ⟨hopen, (Option.some.inj hclose).symm⟩

theorem timeout_cases {s s' : BrokerConnection} (h : broker.step s .timeout = some s') :
    s.scheduled ≠ 0 ∧
      s' = { s with scheduled := s.scheduled - 1, running := s.running ++ [.connect] } := by
  obtain ⟨hscheduled, hmove⟩ := Option.ite_none_left_eq_some.mp h
  exact ⟨hscheduled, (Option.some.inj hmove).symm⟩

theorem not_running_of_stuck {s : BrokerConnection} {index : Nat}
    (h : broker.step s (.settle index .resolved) = none) : s.running[index]? = none := by
  cases hrunning : s.running[index]? with
  | none => rfl
  | some invocation =>
      have hmove : broker.step s (.settle index .resolved) = some (s.resume index invocation) := by
        show s.running[index]?.bind _ = _
        rw [hrunning]
        rfl
      rw [h] at hmove
      cases hmove

/-- A property that only a resumed invocation can lose. -/
theorem always_iff_resumes {base prop : BrokerConnection → Prop}
    {cond : BrokerConnection → Invocation → Prop}
    (hbase : ∀ s event s', base s → broker.step s event = some s' → base s')
    (hresume : ∀ s index invocation, base s → prop s →
      (prop (s.resume index invocation) ↔ cond s invocation))
    (hcaught : ∀ s index, prop s → prop (s.caught index))
    (hclose : ∀ s connection, prop s → prop (s.close connection))
    (htimeout : ∀ s : BrokerConnection, prop s →
      prop { s with scheduled := s.scheduled - 1, running := s.running ++ [.connect] })
    (hs : base .start) (hinit : prop .start) (events : List BrokerEvent) :
    broker.Always prop .start events ↔ broker.Meets (Resumes cond) .start events := by
  apply Machine.always_iff_meets_of_base _ _ _ hs hinit
  · exact fun s event s' hs _ hmove => hbase s event s' hs hmove
  · intro s event s' hs h hmove
    cases event with
    | settle index settled =>
        obtain ⟨invocation, hrunning, ⟨rfl, rfl⟩ | ⟨rfl, rfl⟩⟩ := settle_cases hmove
        · rw [hresume s index invocation hs h]
          simp [Resumes, hrunning]
        · exact iff_of_true (hcaught s index h) trivial
    | close connection =>
        obtain ⟨-, rfl⟩ := close_cases hmove
        exact iff_of_true (hclose s connection h) trivial
    | timeout =>
        obtain ⟨-, rfl⟩ := timeout_cases hmove
        exact iff_of_true (htimeout s h) trivial
  · intro s event hstuck
    cases event with
    | settle index settled =>
        cases settled with
        | resolved => simp [Resumes, not_running_of_stuck hstuck]
        | rejected => trivial
    | _ => trivial

theorem length_cons_le_one_iff {α : Type} (x : α) (xs : List α) :
    (x :: xs).length ≤ 1 ↔ xs = [] := by
  rw [List.length_cons, ← List.length_eq_zero_iff]
  omega

/-- What an attempt leaves open stays open: a connection is the only one exactly if those before it
have gone. -/
theorem oneConnection_iff (events : List BrokerEvent) :
    broker.Always OneConnection .start events ↔ broker.Meets (Resumes Alone) .start events := by
  apply @always_iff_resumes fun _ => True
  · exact fun _ _ _ _ _ => trivial
  · intro s index invocation _ h
    cases invocation with
    | connect => exact length_cons_le_one_iff s.opened s.connections
    | _ => exact iff_of_true h trivial
  · exact fun s index h => h
  · exact fun s connection h => Nat.le_trans (List.length_filter_le _ s.connections) h
  · exact fun s h => h
  · trivial
  · exact Nat.zero_le 1

/-- The handlers of earlier successes are never removed. -/
theorem oneHandler_iff (events : List BrokerEvent) :
    broker.Always OneHandler .start events ↔ broker.Meets (Resumes FirstSuccess) .start events := by
  apply @always_iff_resumes fun _ => True
  · exact fun _ _ _ _ _ => trivial
  · intro s index invocation _ h
    cases invocation with
    | assertExchange connection channel =>
        exact length_cons_le_one_iff connection s.sigintHandlers
    | _ => exact iff_of_true h trivial
  · exact fun s index h => h
  · exact fun s connection h => h
  · exact fun s h => h
  · trivial
  · exact Nat.zero_le 1

/-! ### Numbers -/

/-- The numbers of the invocation have been given out. -/
def Known (s : BrokerConnection) : Invocation → Prop
  | .createChannel connection => connection < s.opened
  | .assertExchange connection channel => connection < s.opened ∧ channel < s.created
  | _ => True

structure Sound (s : BrokerConnection) : Prop where
  running : ∀ invocation ∈ s.running, s.Known invocation
  handlers : ∀ connection ∈ s.closeHandlers, connection < s.opened
  asserted : ∀ channel ∈ s.asserted, channel < s.created

theorem Known.mono {s s' : BrokerConnection} {invocation : Invocation} (h : s.Known invocation)
    (hopened : s.opened ≤ s'.opened) (hcreated : s.created ≤ s'.created) : s'.Known invocation := by
  cases invocation with
  | createChannel connection => exact Nat.lt_of_lt_of_le h hopened
  | assertExchange connection channel =>
      exact ⟨Nat.lt_of_lt_of_le h.1 hopened, Nat.lt_of_lt_of_le h.2 hcreated⟩
  | _ => trivial

/-- An invocation goes on to wait for something else. -/
theorem Sound.set {s s' : BrokerConnection} (h : s.Sound) {index : Nat} {next : Invocation}
    (hrunning : s'.running = s.running.set index next) (hnext : s'.Known next)
    (hhandlers : s'.closeHandlers = s.closeHandlers) (hasserted : s'.asserted = s.asserted)
    (hopened : s.opened ≤ s'.opened) (hcreated : s.created ≤ s'.created) : s'.Sound where
  running invocation hmem := by
    rw [hrunning] at hmem
    obtain hold | rfl := List.mem_or_eq_of_mem_set hmem
    · exact (h.running invocation hold).mono hopened hcreated
    · exact hnext
  handlers connection hmem := by
    rw [hhandlers] at hmem
    exact Nat.lt_of_lt_of_le (h.handlers connection hmem) hopened
  asserted channel hmem := by
    rw [hasserted] at hmem
    exact Nat.lt_of_lt_of_le (h.asserted channel hmem) hcreated

theorem Sound.caught {s : BrokerConnection} (h : s.Sound) (index : Nat) : (s.caught index).Sound :=
  h.set rfl trivial rfl rfl (Nat.le_refl _) (Nat.le_refl _)

theorem Sound.resume {s : BrokerConnection} (h : s.Sound) {index : Nat} {invocation : Invocation}
    (hknown : s.Known invocation) : (s.resume index invocation).Sound := by
  cases invocation with
  | connect => exact h.set rfl (Nat.lt_succ_self s.opened) rfl rfl (Nat.le_succ _) (Nat.le_refl _)
  | createChannel connection =>
      have hnext : (s.resume index (.createChannel connection)).Known
          (if connection ∈ s.connections then .assertExchange connection s.created
            else .delay s.expBackoff) := by
        split
        · exact ⟨hknown, Nat.lt_succ_self s.created⟩
        · trivial
      exact h.set rfl hnext rfl rfl (Nat.le_refl _) (Nat.le_succ _)
  | assertExchange connection channel =>
      refine ⟨fun other hmem => ?_, fun other hmem => ?_, fun other hmem => ?_⟩
      · exact h.running other (List.mem_of_mem_eraseIdx hmem)
      · obtain rfl | hold := List.mem_cons.mp hmem
        · exact hknown.1
        · exact h.handlers other hold
      · obtain rfl | hold := List.mem_cons.mp hmem
        · exact hknown.2
        · exact h.asserted other hold
  | delay ms => exact h.set rfl trivial rfl rfl (Nat.le_refl _) (Nat.le_refl _)

theorem sound_step (s : BrokerConnection) (event : BrokerEvent) (s' : BrokerConnection) (h : s.Sound)
    (hmove : broker.step s event = some s') : s'.Sound := by
  cases event with
  | settle index settled =>
      obtain ⟨invocation, hrunning, ⟨-, rfl⟩ | ⟨-, rfl⟩⟩ := settle_cases hmove
      · exact h.resume (h.running invocation (List.mem_of_getElem? hrunning))
      · exact h.caught index
  | close connection =>
      obtain ⟨-, rfl⟩ := close_cases hmove
      exact ⟨h.running, h.handlers, h.asserted⟩
  | timeout =>
      obtain ⟨-, rfl⟩ := timeout_cases hmove
      refine ⟨fun invocation hmem => ?_, h.handlers, h.asserted⟩
      obtain hold | hnew := List.mem_append.mp hmem
      · exact h.running invocation hold
      · rw [List.mem_singleton.mp hnew]
        trivial

theorem sound_start : start.Sound where
  running invocation hmem := by
    rw [List.mem_singleton.mp hmem]
    trivial
  handlers _ hmem := absurd hmem List.not_mem_nil
  asserted _ hmem := absurd hmem List.not_mem_nil

/-! ### The channel -/

theorem assertedChannel_iff (s : BrokerConnection) :
    s.AssertedChannel ↔ ∀ channel, s.channel = some channel → channel ∈ s.asserted := by
  unfold AssertedChannel getBrokerChannel
  cases s.channel with
  | none => simp
  | some channel => simp

/-- The channel is handed out from its creation on, and what is asserted is a later matter. -/
theorem assertedChannel_always_iff (events : List BrokerEvent) :
    broker.Always AssertedChannel .start events ↔ broker.Meets (Resumes Uncreated) .start events := by
  apply always_iff_resumes sound_step
  · intro s index invocation hs h
    rw [assertedChannel_iff] at h ⊢
    cases invocation with
    | createChannel connection =>
        refine iff_of_false (fun hasserted => ?_) id
        have hlt := hs.asserted s.created (hasserted s.created rfl)
        exact absurd hlt (Nat.lt_irrefl _)
    | assertExchange connection channel =>
        exact iff_of_true (fun other hother => List.mem_cons_of_mem _ (h other hother)) trivial
    | _ => exact iff_of_true h trivial
  · exact fun s index h => h
  · intro s connection h
    rw [assertedChannel_iff] at h ⊢
    intro channel hchannel
    obtain ⟨-, hsame⟩ := Option.ite_none_right_eq_some.mp hchannel
    exact h channel hsame
  · exact fun s h => h
  · exact sound_start
  · intro channel hchannel
    cases hchannel

/-! ### Invocations -/

/-- The invocations there are, and those that the open connections will cause. -/
def load (s : BrokerConnection) : Nat :=
  s.running.length + s.scheduled + s.closeHandlers.countP (· ∈ s.connections)

theorem countP_open_cons {handlers connections : List Nat} {opened : Nat}
    (h : ∀ connection ∈ handlers, connection < opened) :
    handlers.countP (· ∈ opened :: connections) = handlers.countP (· ∈ connections) := by
  apply List.countP_congr
  intro connection hmem
  have hne : connection ≠ opened := Nat.ne_of_lt (h connection hmem)
  simp [hne]

theorem countP_open_filter {handlers connections : List Nat} {connection : Nat}
    (h : connection ∈ connections) :
    handlers.countP (· ∈ connections.filter (· ≠ connection)) + handlers.count connection =
      handlers.countP (· ∈ connections) := by
  induction handlers with
  | nil => rfl
  | cons other rest ih =>
      rw [List.countP_cons, List.countP_cons, List.count_cons, ← ih]
      by_cases heq : other = connection
      · subst heq
        simp [h]
        omega
      · simp [heq]
        omega

/-- Where an invocation ends, it leaves at most the handler of an open connection. -/
theorem load_resume {s : BrokerConnection} (h : s.Sound) {index : Nat} {invocation : Invocation}
    (hrunning : s.running[index]? = some invocation) :
    (s.resume index invocation).load ≤ s.load := by
  cases invocation with
  | connect =>
      show (s.running.set index _).length + s.scheduled +
        s.closeHandlers.countP (· ∈ s.opened :: s.connections) ≤ _
      rw [List.length_set, countP_open_cons h.handlers]
      exact Nat.le_refl _
  | createChannel connection =>
      show (s.running.set index _).length + _ + _ ≤ _
      rw [List.length_set]
      exact Nat.le_refl _
  | assertExchange connection channel =>
      obtain ⟨hindex, -⟩ := List.getElem?_eq_some_iff.mp hrunning
      have hlength := List.length_eraseIdx_of_lt hindex
      show (s.running.eraseIdx index).length + s.scheduled +
        (connection :: s.closeHandlers).countP (· ∈ s.connections) ≤ _
      rw [List.countP_cons, load]
      split <;> omega
  | delay ms =>
      show (s.running.set index _).length + _ + _ ≤ _
      rw [List.length_set]
      exact Nat.le_refl _

theorem load_caught (s : BrokerConnection) (index : Nat) : (s.caught index).load = s.load := by
  show (s.running.set index _).length + _ + _ = _
  rw [List.length_set]
  rfl

/-- A connection that closes hands over what its handlers counted for. -/
theorem load_close {s : BrokerConnection} {connection : Nat} (hopen : connection ∈ s.connections) :
    (s.close connection).load = s.load := by
  have hcount := @countP_open_filter s.closeHandlers s.connections connection hopen
  show s.running.length + (s.scheduled + s.closeHandlers.count connection) +
    s.closeHandlers.countP (· ∈ s.connections.filter (· ≠ connection)) = _
  rw [load]
  omega

theorem load_step {s s' : BrokerConnection} {event : BrokerEvent} (h : s.Sound)
    (hmove : broker.step s event = some s') : s'.load ≤ s.load := by
  cases event with
  | settle index settled =>
      obtain ⟨invocation, hrunning, ⟨-, rfl⟩ | ⟨-, rfl⟩⟩ := settle_cases hmove
      · exact load_resume h hrunning
      · exact Nat.le_of_eq (load_caught s index)
  | close connection =>
      obtain ⟨hopen, rfl⟩ := close_cases hmove
      exact Nat.le_of_eq (load_close hopen)
  | timeout =>
      obtain ⟨hscheduled, rfl⟩ := timeout_cases hmove
      show (s.running ++ [Invocation.connect]).length + (s.scheduled - 1) +
        s.closeHandlers.countP (· ∈ s.connections) ≤ _
      rw [List.length_append, List.length_singleton, load]
      omega

theorem oneInvocation_of_load {s : BrokerConnection} (h : s.load ≤ 1) : s.OneInvocation :=
  Nat.le_trans (Nat.le_add_right _ _) h

/-- Invocations follow one another, however they end. -/
theorem oneInvocation_always (events : List BrokerEvent) :
    broker.Always OneInvocation .start events := by
  apply @Machine.always_of_meets _ _ _ (fun _ _ => True) fun s => s.Sound ∧ s.load ≤ 1
  · intro s event s' ⟨hs, hload⟩ _ hmove
    exact ⟨sound_step s event s' hs hmove, Nat.le_trans (load_step hs hmove) hload⟩
  · exact fun s h => oneInvocation_of_load h.2
  · exact ⟨sound_start, Nat.le_refl 1⟩
  · exact Machine.meets_of_forall (fun _ _ => trivial) _ events

/-! ### The four together -/

/-- In every state of the run the manager is as it should be, exactly if no connection opens when
another one is open, no attempt succeeds after another one, and no channel is created; and each of the
four properties has a condition of its own. -/
theorem wellManaged_iff (events : List BrokerEvent) :
    (broker.Always WellManaged .start events ↔
      broker.Meets (fun s event => Resumes Alone s event ∧ Resumes FirstSuccess s event ∧
        Resumes Uncreated s event) .start events) ∧
    (broker.Always OneConnection .start events ↔ broker.Meets (Resumes Alone) .start events) ∧
    broker.Always OneInvocation .start events ∧
    (broker.Always OneHandler .start events ↔ broker.Meets (Resumes FirstSuccess) .start events) ∧
    (broker.Always AssertedChannel .start events ↔
      broker.Meets (Resumes Uncreated) .start events) := by
  refine ⟨?_, oneConnection_iff events, oneInvocation_always events, oneHandler_iff events,
    assertedChannel_always_iff events⟩
  unfold WellManaged
  rw [Machine.always_and_iff, Machine.always_and_iff, Machine.always_and_iff, Machine.meets_and_iff,
    Machine.meets_and_iff, oneConnection_iff, oneHandler_iff, assertedChannel_always_iff]
  constructor
  · intro ⟨hconnection, _, hhandler, hchannel⟩
    exact ⟨hconnection, hhandler, hchannel⟩
  · intro ⟨hconnection, hhandler, hchannel⟩
    exact ⟨hconnection, oneInvocation_always events, hhandler, hchannel⟩

/-- The events of an attempt that succeeds. -/
def succeeds : List BrokerEvent :=
  [.settle 0 .resolved, .settle 0 .resolved, .settle 0 .resolved]

/-- A channel waits for its exchange; a declaration fails, and the next attempt opens a second
connection; a connection closes, and the next one brings a second handler. -/
theorem not_wellManaged :
    (∃ s, broker.run .start [.settle 0 .resolved, .settle 0 .resolved] = some s ∧
      ¬s.AssertedChannel) ∧
    (∃ s, broker.run .start [.settle 0 .resolved, .settle 0 .resolved, .settle 0 .rejected,
      .settle 0 .resolved, .settle 0 .resolved] = some s ∧ ¬s.OneConnection) ∧
    ∃ s, broker.run .start (succeeds ++ [.close 0, .timeout] ++ succeeds) = some s ∧
      ¬s.OneHandler := by
  refine ⟨⟨_, rfl, ?_⟩, ⟨_, rfl, by decide⟩, ⟨_, rfl, by decide⟩⟩
  rw [assertedChannel_iff]
  intro h
  exact absurd (h 0 rfl) List.not_mem_nil

end BrokerConnection

end BookHub.UserService
