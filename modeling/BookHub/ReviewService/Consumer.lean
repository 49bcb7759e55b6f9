import BookHub.Base.Machine

/-!
# The connections of the book consumer

`StartBookConsumer` call by call, against what AMQP keeps for it. Each round of its loop dials a new
connection, and no connection is closed before the function returns: the closes are deferred. The
queue is exclusive, so it belongs to the connection that declared it for as long as that is open, and
a declaration on another connection is refused.

A call is granted, or it fails with an error that closes the channel, or with the loss of the
connection. A request that AMQP does not permit fails also when the broker would grant it.
-/

namespace BookHub.ReviewService

/-- How the broker answers a call. -/
inductive Outcome where
  | granted
  | channelError
  | connectionLost
  deriving DecidableEq, Repr

/-- The call that the consumer makes next, with the connection of the attempt it belongs to. -/
inductive ConsumerPoint where
  | dial
  | channel (connection : Nat)
  | exchangeDeclare (connection : Nat)
  | queueDeclare (connection : Nat)
  | queueBind (connection : Nat) (key : String) (rest : List String)
  | consume (connection : Nat)
  | consuming (connection : Nat)
  | returned
  deriving DecidableEq, Repr

/-- The exclusive queue, with the connection it belongs to and the keys it is bound to. -/
structure ExclusiveQueue where
  owner : Nat
  bindings : List String
  deriving DecidableEq, Repr

def routingKeys : List String := ["book.created", "book.deleted"]

/-- The consumer, the connections it has opened that are still open, those of them whose channel is
open, and the queue. -/
structure Consumer where
  phase : ConsumerPoint
  attempt : Nat
  dialed : Nat
  connections : List Nat
  channels : List Nat
  queue : Option ExclusiveQueue
  deriving DecidableEq, Repr

namespace Consumer

def start : Consumer := ⟨.dial, 0, 0, [], [], none⟩

def closeChannel (s : Consumer) (connection : Nat) : Consumer :=
  { s with channels := s.channels.filter (· ≠ connection) }

/-- A connection goes, with its channel and the queue that belongs to it. -/
def closeConnection (s : Consumer) (connection : Nat) : Consumer :=
  { s with
    connections := s.connections.filter (· ≠ connection)
    channels := s.channels.filter (· ≠ connection)
    queue := s.queue.filter fun queue => queue.owner ≠ connection }

/-- What an error leaves of the connection it came on. A request that was not permitted closes the
channel. -/
def fail (s : Consumer) (connection : Nat) : Outcome → Consumer
  | .granted => s.closeChannel connection
  | .channelError => s.closeChannel connection
  | .connectionLost => s.closeConnection connection

/-- The next bind, or `Consume` after the last. -/
def bindNext (connection : Nat) : List String → ConsumerPoint
  | [] => .consume connection
  | key :: rest => .queueBind connection key rest

/-- Another connection has the queue. -/
def locked (s : Consumer) (connection : Nat) : Bool :=
  s.queue.any fun queue => queue.owner ≠ connection

/-- The next call. -/
def call (s : Consumer) (outcome : Outcome) : Consumer :=
  match s.phase with
  | .dial =>
      let s := { s with attempt := s.attempt + 1 }
      if outcome = .granted then
        { s with
          phase := .channel s.dialed
          dialed := s.dialed + 1
          connections := s.dialed :: s.connections }
      else s
  | .channel connection =>
      if outcome = .granted ∧ connection ∈ s.connections then
        { s with phase := .exchangeDeclare connection, channels := connection :: s.channels }
      else { s.fail connection outcome with phase := .dial }
  | .exchangeDeclare connection =>
      if outcome = .granted ∧ connection ∈ s.channels then
        { s with phase := .queueDeclare connection }
      else { s.fail connection outcome with phase := .dial }
  | .queueDeclare connection =>
      if outcome = .granted ∧ connection ∈ s.channels ∧ s.locked connection = false then
        { s with
          phase := bindNext connection routingKeys
          queue := some (s.queue.getD ⟨connection, []⟩) }
      else { s.fail connection outcome with phase := .dial }
  | .queueBind connection key rest =>
      -- the `continue` of a failed bind is that of the loop over the keys
      if outcome = .granted ∧ connection ∈ s.channels then
        { s with
          phase := bindNext connection rest
          queue := s.queue.map fun queue => { queue with bindings := key :: queue.bindings } }
      else { s.fail connection outcome with phase := bindNext connection rest }
  | .consume connection =>
      if outcome = .granted ∧ connection ∈ s.channels then
        { s with phase := .consuming connection }
      else { s.fail connection outcome with phase := .dial }
  | .consuming _ => s
  | .returned => s

/-- A connection is lost. If it is the one of the deliveries, their stream closes, the function
returns, and its deferred calls close what is left. -/
def lose (s : Consumer) (connection : Nat) : Consumer :=
  if s.phase = .consuming connection then
    { s with phase := .returned, connections := [], channels := [], queue := none }
  else s.closeConnection connection

end Consumer

inductive ConsumerMove where
  | call (outcome : Outcome)
  | lose (connection : Nat)
  deriving DecidableEq, Repr

/-- The consumer under any answers of the broker, and any loss of connections. -/
def consumer : Machine Consumer ConsumerMove where
  step
    | s, .call outcome => some (s.call outcome)
    | s, .lose connection => some (s.lose connection)

namespace Consumer

/-! ### What holds in every reachable state -/

/-- The keys that are still to be bound, once the queue is declared. -/
def keysLeft? : ConsumerPoint → Option (Nat × List String)
  | .queueBind connection key rest => some (connection, key :: rest)
  | .consume connection => some (connection, [])
  | .consuming connection => some (connection, [])
  | _ => none

/-- The attempt has a connection and no queue yet. -/
def undeclared? : ConsumerPoint → Option Nat
  | .channel connection => some connection
  | .exchangeDeclare connection => some connection
  | .queueDeclare connection => some connection
  | _ => none

structure Sound (s : Consumer) : Prop where
  channels : ∀ connection ∈ s.channels, connection ∈ s.connections
  dialed : ∀ connection ∈ s.connections, connection < s.dialed
  owner : ∀ queue ∈ s.queue, queue.owner ∈ s.connections
  undeclared : ∀ connection, undeclared? s.phase = some connection →
    connection < s.dialed ∧ ∀ queue ∈ s.queue, queue.owner ≠ connection
  declared : ∀ connection keys, keysLeft? s.phase = some (connection, keys) →
    connection ∈ s.channels → ∃ queue, s.queue = some queue ∧ queue.owner = connection ∧
      ∀ key ∈ routingKeys, key ∈ queue.bindings ∨ key ∈ keys
  consuming : ∀ connection, s.phase = .consuming connection → connection ∈ s.channels

theorem keysLeft?_bindNext (connection : Nat) (keys : List String) :
    keysLeft? (bindNext connection keys) = some (connection, keys) := by
  cases keys <;> rfl

theorem undeclared?_bindNext (connection : Nat) (keys : List String) :
    undeclared? (bindNext connection keys) = none := by
  cases keys <;> rfl

theorem bindNext_ne_consuming (connection other : Nat) (keys : List String) :
    bindNext connection keys ≠ .consuming other := by
  cases keys <;> exact ConsumerPoint.noConfusion

theorem sound_start : start.Sound where
  channels _ h := absurd h List.not_mem_nil
  dialed _ h := absurd h List.not_mem_nil
  owner _ h := by cases h
  undeclared _ h := by cases h
  declared _ _ h := by cases h
  consuming _ h := by cases h

/-- What a failed call does to the rest of the state. -/
structure Reduced (s s' : Consumer) (connection : Nat) : Prop where
  connections : ∀ c ∈ s'.connections, c ∈ s.connections
  channels : ∀ c ∈ s'.channels, c ∈ s.channels ∧ c ∈ s'.connections
  closed : connection ∉ s'.channels
  dialed : s'.dialed = s.dialed
  attempt : s'.attempt = s.attempt
  queue : ∀ q ∈ s'.queue, q ∈ s.queue ∧ q.owner ∈ s'.connections

theorem Sound.closeChannel {s : Consumer} (h : s.Sound) (connection : Nat) :
    Reduced s (s.closeChannel connection) connection where
  connections _ hc := hc
  channels c hc := by
    have hold := (List.mem_filter.mp hc).1
    exact ⟨hold, h.channels c hold⟩
  closed hc := by simpa using (List.mem_filter.mp hc).2
  dialed := rfl
  attempt := rfl
  queue q hq := ⟨hq, h.owner q hq⟩

theorem Sound.closeConnection {s : Consumer} (h : s.Sound) (connection : Nat) :
    Reduced s (s.closeConnection connection) connection where
  connections c hc := (List.mem_filter.mp hc).1
  channels c hc := by
    obtain ⟨hold, hne⟩ := List.mem_filter.mp hc
    exact ⟨hold, List.mem_filter.mpr ⟨h.channels c hold, hne⟩⟩
  closed hc := by simpa using (List.mem_filter.mp hc).2
  dialed := rfl
  attempt := rfl
  queue q hq := by
    obtain ⟨hold, hne⟩ := Option.filter_eq_some_iff.mp hq
    exact ⟨hold, List.mem_filter.mpr ⟨h.owner q hold, hne⟩⟩

theorem Sound.fail {s : Consumer} (h : s.Sound) (connection : Nat) (outcome : Outcome) :
    Reduced s (s.fail connection outcome) connection := by
  cases outcome with
  | granted => exact h.closeChannel connection
  | channelError => exact h.closeChannel connection
  | connectionLost => exact h.closeConnection connection

/-- A failed call leads to a state in which nothing is claimed of the next point. -/
theorem Reduced.sound {s s' : Consumer} {connection : Nat} (h : s.Sound)
    (hs' : Reduced s s' connection) {phase : ConsumerPoint} (hundeclared : undeclared? phase = none)
    (hkeys : ∀ c keys, keysLeft? phase = some (c, keys) → c = connection)
    (hconsuming : ∀ c, phase ≠ .consuming c) : Sound { s' with phase } where
  channels c hc := (hs'.channels c hc).2
  dialed c hc := by
    show c < s'.dialed
    rw [hs'.dialed]
    exact h.dialed c (hs'.connections c hc)
  owner q hq := (hs'.queue q hq).2
  undeclared c hc := by
    rw [hundeclared] at hc
    cases hc
  declared c keys hc hopen := by
    rw [hkeys c keys hc] at hopen
    exact absurd hopen hs'.closed
  consuming c hc := absurd hc (hconsuming c)

theorem Sound.fail_dial {s : Consumer} (h : s.Sound) (connection : Nat) (outcome : Outcome) :
    Sound { s.fail connection outcome with phase := .dial } :=
  (h.fail connection outcome).sound h rfl (fun _ _ hkeys => by cases hkeys)
    fun _ => ConsumerPoint.noConfusion

theorem Sound.fail_bind {s : Consumer} (h : s.Sound) (connection : Nat) (outcome : Outcome)
    (keys : List String) : Sound { s.fail connection outcome with phase := bindNext connection keys } := by
  apply (h.fail connection outcome).sound h (undeclared?_bindNext connection keys)
  · intro c keys' hkeys
    rw [keysLeft?_bindNext] at hkeys
    cases hkeys
    rfl
  · exact fun c => bindNext_ne_consuming connection c keys

/-- A call that is granted on the channel of the attempt. -/
theorem Sound.advance {s : Consumer} (h : s.Sound) {phase : ConsumerPoint}
    (hundeclared : undeclared? phase = none ∨ undeclared? phase = undeclared? s.phase)
    (hkeys : ∀ c keys, keysLeft? phase = some (c, keys) → keysLeft? s.phase = some (c, keys))
    (hconsuming : ∀ c, phase = .consuming c → c ∈ s.channels) : Sound { s with phase } where
  channels := h.channels
  dialed := h.dialed
  owner := h.owner
  undeclared c hc := by
    obtain hnone | hsame := hundeclared
    · rw [hnone] at hc
      cases hc
    · rw [hsame] at hc
      exact h.undeclared c hc
  declared c keys hc := h.declared c keys (hkeys c keys hc)
  consuming := hconsuming

theorem Sound.dial {s : Consumer} (h : s.Sound) (attempt : Nat) :
    Sound { s with
      attempt
      phase := .channel s.dialed
      dialed := s.dialed + 1
      connections := s.dialed :: s.connections } where
  channels c hc := List.mem_cons_of_mem _ (h.channels c hc)
  dialed c hc := by
    obtain rfl | hold := List.mem_cons.mp hc
    · exact Nat.lt_succ_self _
    · exact Nat.lt_succ_of_lt (h.dialed c hold)
  owner q hq := List.mem_cons_of_mem _ (h.owner q hq)
  undeclared c hc := by
    cases hc
    refine ⟨Nat.lt_succ_self _, fun q hq heq => ?_⟩
    have hlt := h.dialed q.owner (h.owner q hq)
    omega
  declared _ _ hc := by cases hc
  consuming _ hc := by cases hc

theorem Sound.openChannel {s : Consumer} (h : s.Sound) {connection : Nat}
    (hphase : s.phase = .channel connection) (hopen : connection ∈ s.connections) :
    Sound { s with phase := .exchangeDeclare connection, channels := connection :: s.channels } where
  channels c hc := by
    obtain rfl | hold := List.mem_cons.mp hc
    · exact hopen
    · exact h.channels c hold
  dialed := h.dialed
  owner := h.owner
  undeclared c hc := by
    cases hc
    exact h.undeclared connection (by rw [hphase]; rfl)
  declared _ _ hc := by cases hc
  consuming _ hc := by cases hc

theorem Sound.declareQueue {s : Consumer} (h : s.Sound) {connection : Nat}
    (hopen : connection ∈ s.channels) :
    Sound { s with phase := bindNext connection routingKeys, queue := some ⟨connection, []⟩ } where
  channels := h.channels
  dialed := h.dialed
  owner q hq := by
    cases hq
    exact h.channels connection hopen
  undeclared c hc := by
    rw [undeclared?_bindNext] at hc
    cases hc
  declared c keys hc _ := by
    rw [keysLeft?_bindNext] at hc
    cases hc
    exact ⟨_, rfl, rfl, fun key hkey => .inr hkey⟩
  consuming c hc := absurd hc (bindNext_ne_consuming connection c routingKeys)

theorem Sound.bindKey {s : Consumer} (h : s.Sound) {connection : Nat} {key : String}
    {rest : List String} (hphase : s.phase = .queueBind connection key rest) :
    Sound { s with
      phase := bindNext connection rest
      queue := s.queue.map fun queue => { queue with bindings := key :: queue.bindings } } where
  channels := h.channels
  dialed := h.dialed
  owner q hq := by
    obtain ⟨old, hold, rfl⟩ := Option.map_eq_some_iff.mp hq
    exact h.owner old hold
  undeclared c hc := by
    rw [undeclared?_bindNext] at hc
    cases hc
  declared c keys hc hopen := by
    rw [keysLeft?_bindNext] at hc
    cases hc
    obtain ⟨queue, hqueue, howner, hkeys⟩ :=
      h.declared connection (key :: rest) (by rw [hphase]; rfl) hopen
    refine ⟨{ queue with bindings := key :: queue.bindings }, ?_, howner, fun k hk => ?_⟩
    · show s.queue.map _ = _
      rw [hqueue]
      rfl
    · obtain hbound | hleft := hkeys k hk
      · exact .inl (List.mem_cons_of_mem _ hbound)
      · obtain rfl | hleft := List.mem_cons.mp hleft
        · exact .inl List.mem_cons_self
        · exact .inr hleft
  consuming c hc := absurd hc (bindNext_ne_consuming connection c _)

theorem Sound.unlocked {s : Consumer} (h : s.Sound) {connection : Nat}
    (hphase : s.phase = .queueDeclare connection) (hunlocked : s.locked connection = false) :
    s.queue = none := by
  cases hqueue : s.queue with
  | none => rfl
  | some queue =>
      have hne := (h.undeclared connection (by rw [hphase]; rfl)).2 queue hqueue
      rw [locked, hqueue] at hunlocked
      simp [hne] at hunlocked

theorem Sound.call {s : Consumer} (h : s.Sound) (outcome : Outcome) : (s.call outcome).Sound := by
  cases hphase : s.phase with
  | dial =>
      simp only [Consumer.call, hphase]
      split
      · exact h.dial (s.attempt + 1)
      · refine ⟨h.channels, h.dialed, h.owner, ?_, ?_, ?_⟩
        · exact fun _ hc => by cases hc
        · exact fun _ _ hc => by cases hc
        · exact fun _ hc => by cases hc
  | channel connection =>
      simp only [Consumer.call, hphase]
      split
      · rename_i hgranted
        exact h.openChannel hphase hgranted.2
      · exact h.fail_dial connection outcome
  | exchangeDeclare connection =>
      simp only [Consumer.call, hphase]
      split
      · apply h.advance
        · right
          rw [hphase]
          rfl
        · intro c keys hkeys
          cases hkeys
        · intro c hc
          cases hc
      · exact h.fail_dial connection outcome
  | queueDeclare connection =>
      simp only [Consumer.call, hphase]
      split
      · rename_i hgranted
        have hfree := h.unlocked hphase hgranted.2.2
        rw [hfree]
        exact h.declareQueue hgranted.2.1
      · exact h.fail_dial connection outcome
  | queueBind connection key rest =>
      simp only [Consumer.call, hphase]
      split
      · exact h.bindKey hphase
      · exact h.fail_bind connection outcome rest
  | consume connection =>
      simp only [Consumer.call, hphase]
      split
      · rename_i hgranted
        apply h.advance
        · exact .inl rfl
        · intro c keys hkeys
          rw [hphase]
          exact hkeys
        · intro c hc
          cases hc
          exact hgranted.2
      · exact h.fail_dial connection outcome
  | consuming connection =>
      simp only [Consumer.call, hphase]
      exact h
  | returned =>
      simp only [Consumer.call, hphase]
      exact h

theorem Sound.lose {s : Consumer} (h : s.Sound) (connection : Nat) : (s.lose connection).Sound := by
  unfold Consumer.lose
  split
  · refine ⟨?_, ?_, ?_, ?_, ?_, ?_⟩
    · exact fun _ hc => absurd hc List.not_mem_nil
    · exact fun _ hc => absurd hc List.not_mem_nil
    · exact fun _ hq => by cases hq
    · exact fun _ hc => by cases hc
    · exact fun _ _ hc => by cases hc
    · exact fun _ hc => by cases hc
  · rename_i hother
    have hreduced := h.closeConnection connection
    refine ⟨?_, ?_, ?_, ?_, ?_, ?_⟩
    · exact fun c hc => (hreduced.channels c hc).2
    · exact fun c hc => h.dialed c (hreduced.connections c hc)
    · exact fun q hq => (hreduced.queue q hq).2
    · intro c hc
      obtain ⟨hlt, hne⟩ := h.undeclared c hc
      exact ⟨hlt, fun q hq => hne q (hreduced.queue q hq).1⟩
    · intro c keys hc hopen
      have hopen' := (hreduced.channels c hopen).1
      obtain ⟨queue, hqueue, howner, hkeys⟩ := h.declared c keys hc hopen'
      refine ⟨queue, ?_, howner, hkeys⟩
      have hne : c ≠ connection := by
        rintro rfl
        exact hreduced.closed hopen
      show s.queue.filter _ = _
      rw [hqueue, Option.filter_some, if_pos (by simpa [howner] using hne)]
    · intro c hc
      have hne : c ≠ connection := by
        rintro rfl
        exact hother hc
      exact List.mem_filter.mpr ⟨h.consuming c hc, by simpa using hne⟩

theorem sound_reachable {moves : List ConsumerMove} {s : Consumer}
    (hrun : consumer.run start moves = some s) : s.Sound := by
  apply Machine.invariant _ sound_start hrun
  intro s move s' h hstep
  cases move with
  | call outcome =>
      cases hstep
      exact h.call outcome
  | lose connection =>
      cases hstep
      exact h.lose connection

end Consumer

end BookHub.ReviewService
