import BookHub.ReviewService.Consumer

/-!
# When the book consumer recovers

A consumer that is not blocked binds its queue within one further attempt, call by call. One that is
blocked stays so: every new attempt comes on another connection than the one that has the queue.
-/

namespace BookHub.ReviewService.Consumer

/-- The consumer takes deliveries, and the queue is bound to both keys. -/
def Consumes (s : Consumer) : Prop :=
  ∃ connection queue, s.phase = .consuming connection ∧ s.queue = some queue ∧
    queue.owner = connection ∧ ∀ key ∈ routingKeys, key ∈ queue.bindings

/-- If every call is granted from now on, the consumer takes deliveries after at most one further
attempt. -/
def Recovers (s : Consumer) : Prop :=
  ∃ calls s', consumer.run s (List.replicate calls (.call .granted)) = some s' ∧
    s'.Consumes ∧ s'.attempt ≤ s.attempt + 1

/-- The connection of the attempt in progress. -/
def current? (s : Consumer) : Option Nat :=
  match s.phase with
  | .dial => none
  | .channel connection => some connection
  | .exchangeDeclare connection => some connection
  | .queueDeclare connection => some connection
  | .queueBind connection _ _ => some connection
  | .consume connection => some connection
  | .consuming connection => some connection
  | .returned => none

/-- The function has not returned, and the queue is free, or it belongs to the attempt in progress and
the channel of that is open. -/
def Unblocked (s : Consumer) : Prop :=
  s.phase ≠ .returned ∧
    ∀ queue ∈ s.queue, s.current? = some queue.owner ∧ queue.owner ∈ s.channels

instance (s : Consumer) : Decidable s.Unblocked := inferInstanceAs (Decidable (_ ∧ _))

/-! ### Recovering -/

/-- The consumer takes deliveries after some granted calls, in an attempt no later than this one. -/
def RecoversBy (attempt : Nat) (s : Consumer) : Prop :=
  ∃ calls s', consumer.run s (List.replicate calls (.call .granted)) = some s' ∧
    s'.Consumes ∧ s'.attempt ≤ attempt

theorem RecoversBy.of_call {attempt : Nat} {s s' : Consumer} (hcall : s.call .granted = s')
    (h : RecoversBy attempt s') : RecoversBy attempt s := by
  obtain ⟨calls, s'', hrun, hconsumes⟩ := h
  refine ⟨calls + 1, s'', ?_, hconsumes⟩
  show consumer.run (s.call .granted) (List.replicate calls (.call .granted)) = some s''
  rw [hcall]
  exact hrun

theorem RecoversBy.mono {attempt attempt' : Nat} {s : Consumer} (h : RecoversBy attempt s)
    (hle : attempt ≤ attempt') : RecoversBy attempt' s := by
  obtain ⟨calls, s', hrun, hconsumes, hattempt⟩ := h
  exact ⟨calls, s', hrun, hconsumes, Nat.le_trans hattempt hle⟩

theorem Sound.of_call {s s' : Consumer} (h : s.Sound) (hcall : s.call .granted = s') : s'.Sound :=
  hcall ▸ h.call .granted

theorem recoversBy_consuming {s : Consumer} (h : s.Sound) {connection : Nat}
    (hphase : s.phase = .consuming connection) : RecoversBy s.attempt s := by
  obtain ⟨queue, hqueue, howner, hkeys⟩ :=
    h.declared connection [] (by rw [hphase]; rfl) (h.consuming connection hphase)
  refine ⟨0, s, rfl, ⟨connection, queue, hphase, hqueue, howner, fun key hkey => ?_⟩, Nat.le_refl _⟩
  obtain hbound | hleft := hkeys key hkey
  · exact hbound
  · exact absurd hleft List.not_mem_nil

/-- From the declared queue on, an attempt whose channel is open goes through. -/
theorem recoversBy_bindNext (keys : List String) {s : Consumer} (h : s.Sound) {connection : Nat}
    (hphase : s.phase = bindNext connection keys) (hopen : connection ∈ s.channels) :
    RecoversBy s.attempt s := by
  induction keys generalizing s with
  | nil =>
      have hcall : s.call .granted = { s with phase := .consuming connection } := by
        rw [bindNext] at hphase
        simp [call, hphase, hopen]
      exact .of_call hcall (recoversBy_consuming (h.of_call hcall) rfl)
  | cons key rest ih =>
      have hcall : s.call .granted = { s with
          phase := bindNext connection rest
          queue := s.queue.map fun queue => { queue with bindings := key :: queue.bindings } } := by
        rw [bindNext] at hphase
        simp [call, hphase, hopen]
      exact .of_call hcall (ih (h.of_call hcall) rfl hopen)

theorem recoversBy_queueDeclare {s : Consumer} (h : s.Sound) {connection : Nat}
    (hphase : s.phase = .queueDeclare connection) (hopen : connection ∈ s.channels)
    (hfree : s.queue = none) : RecoversBy s.attempt s := by
  have hcall : s.call .granted = { s with
      phase := bindNext connection routingKeys, queue := some ⟨connection, []⟩ } := by
    simp [call, hphase, hopen, hfree, locked]
  exact .of_call hcall (recoversBy_bindNext routingKeys (h.of_call hcall) rfl hopen)

theorem recoversBy_exchangeDeclare {s : Consumer} (h : s.Sound) {connection : Nat}
    (hphase : s.phase = .exchangeDeclare connection) (hopen : connection ∈ s.channels)
    (hfree : s.queue = none) : RecoversBy s.attempt s := by
  have hcall : s.call .granted = { s with phase := .queueDeclare connection } := by
    simp [call, hphase, hopen]
  exact .of_call hcall (recoversBy_queueDeclare (h.of_call hcall) rfl hopen hfree)

theorem recoversBy_channel {s : Consumer} (h : s.Sound) {connection : Nat}
    (hphase : s.phase = .channel connection) (hopen : connection ∈ s.connections)
    (hfree : s.queue = none) : RecoversBy s.attempt s := by
  have hcall : s.call .granted = { s with
      phase := .exchangeDeclare connection, channels := connection :: s.channels } := by
    simp [call, hphase, hopen]
  exact .of_call hcall (recoversBy_exchangeDeclare (h.of_call hcall) rfl List.mem_cons_self hfree)

/-- A new attempt goes through when the queue is free. -/
theorem recoversBy_dial {s : Consumer} (h : s.Sound) (hphase : s.phase = .dial)
    (hfree : s.queue = none) : RecoversBy (s.attempt + 1) s := by
  have hcall : s.call .granted = { s with
      attempt := s.attempt + 1
      phase := .channel s.dialed
      dialed := s.dialed + 1
      connections := s.dialed :: s.connections } := by
    simp [call, hphase]
  exact .of_call hcall (recoversBy_channel (h.of_call hcall) rfl List.mem_cons_self hfree)

/-- An attempt that has lost its channel, or its connection, leads to a new one. -/
theorem recoversBy_failed {s : Consumer} (h : s.Sound) (connection : Nat)
    (hcall : s.call .granted = { s.closeChannel connection with phase := .dial })
    (hfree : s.queue = none) : RecoversBy (s.attempt + 1) s :=
  .of_call hcall (recoversBy_dial (h.of_call hcall) rfl hfree)

theorem recoversBy_failed_bindNext (keys : List String) {s : Consumer} (h : s.Sound)
    {connection : Nat} (hphase : s.phase = bindNext connection keys)
    (hclosed : connection ∉ s.channels) (hfree : s.queue = none) : RecoversBy (s.attempt + 1) s := by
  induction keys generalizing s with
  | nil =>
      apply recoversBy_failed h connection _ hfree
      rw [bindNext] at hphase
      simp [call, hphase, hclosed, fail]
  | cons key rest ih =>
      have hcall : s.call .granted =
          { s.closeChannel connection with phase := bindNext connection rest } := by
        rw [bindNext] at hphase
        simp [call, hphase, hclosed, fail]
      have hstill : connection ∉ (s.closeChannel connection).channels := by simp [closeChannel]
      exact .of_call hcall (ih (h.of_call hcall) rfl hstill hfree)

theorem queue_eq_none {s : Consumer} (h : ∀ queue, s.queue ≠ some queue) : s.queue = none := by
  cases hqueue : s.queue with
  | none => rfl
  | some queue => exact absurd hqueue (h queue)

/-- Before the queue is declared, an unblocked attempt finds it free. -/
theorem Unblocked.free {s : Consumer} (hs : s.Unblocked) (h : s.Sound)
    (hphase : s.current? = undeclared? s.phase) : s.queue = none := by
  apply queue_eq_none
  intro queue hqueue
  obtain ⟨hcurrent, -⟩ := hs.2 queue hqueue
  rw [hphase] at hcurrent
  exact (h.undeclared queue.owner hcurrent).2 queue hqueue rfl

theorem Unblocked.recoversBy_bindNext {s : Consumer} (hs : s.Unblocked) (h : s.Sound)
    {connection : Nat} {keys : List String} (hphase : s.phase = bindNext connection keys)
    (hcurrent : s.current? = some connection) : RecoversBy (s.attempt + 1) s := by
  by_cases hopen : connection ∈ s.channels
  · exact (Consumer.recoversBy_bindNext keys h hphase hopen).mono (Nat.le_succ _)
  · apply recoversBy_failed_bindNext keys h hphase hopen
    apply queue_eq_none
    intro queue hqueue
    obtain ⟨howner, hchannel⟩ := hs.2 queue hqueue
    rw [hcurrent] at howner
    cases howner
    exact hopen hchannel

theorem recovers_of_unblocked {s : Consumer} (h : s.Sound) (hs : s.Unblocked) :
    RecoversBy (s.attempt + 1) s := by
  cases hphase : s.phase with
  | dial =>
      have hfree := hs.free h (by rw [current?, hphase]; rfl)
      exact recoversBy_dial h hphase hfree
  | channel connection =>
      have hfree := hs.free h (by rw [current?, hphase]; rfl)
      by_cases hopen : connection ∈ s.connections
      · exact (recoversBy_channel h hphase hopen hfree).mono (Nat.le_succ _)
      · apply recoversBy_failed h connection _ hfree
        simp [call, hphase, hopen, fail]
  | exchangeDeclare connection =>
      have hfree := hs.free h (by rw [current?, hphase]; rfl)
      by_cases hopen : connection ∈ s.channels
      · exact (recoversBy_exchangeDeclare h hphase hopen hfree).mono (Nat.le_succ _)
      · apply recoversBy_failed h connection _ hfree
        simp [call, hphase, hopen, fail]
  | queueDeclare connection =>
      have hfree := hs.free h (by rw [current?, hphase]; rfl)
      by_cases hopen : connection ∈ s.channels
      · exact (recoversBy_queueDeclare h hphase hopen hfree).mono (Nat.le_succ _)
      · apply recoversBy_failed h connection _ hfree
        simp [call, hphase, hopen, fail]
  | queueBind connection key rest =>
      have hbind : s.phase = bindNext connection (key :: rest) := hphase
      exact hs.recoversBy_bindNext h hbind (by rw [current?, hphase])
  | consume connection =>
      have hbind : s.phase = bindNext connection [] := hphase
      exact hs.recoversBy_bindNext h hbind (by rw [current?, hphase])
  | consuming connection =>
      exact (recoversBy_consuming h hphase).mono (Nat.le_succ _)
  | returned => exact absurd hphase hs.1

/-! ### Staying blocked -/

/-- The consumer is not consuming, and it has returned, or the queue is not that of an open channel of
the attempt in progress. -/
structure Blocked (s : Consumer) : Prop where
  sound : s.Sound
  phase : ∀ connection, s.phase ≠ .consuming connection
  queue : s.phase = .returned ∨
    ∃ queue, s.queue = some queue ∧ ¬ (s.current? = some queue.owner ∧ queue.owner ∈ s.channels)

theorem blocked_of_not_unblocked {s : Consumer} (h : s.Sound) (hs : ¬ s.Unblocked) : s.Blocked where
  sound := h
  phase connection hphase := by
    obtain ⟨queue, hqueue, howner, -⟩ :=
      h.declared connection [] (by rw [hphase]; rfl) (h.consuming connection hphase)
    apply hs
    refine ⟨by rw [hphase]; exact ConsumerPoint.noConfusion, fun queue' hqueue' => ?_⟩
    cases hqueue.symm.trans hqueue'
    rw [current?, hphase, howner]
    exact ⟨rfl, h.consuming connection hphase⟩
  queue := by
    by_contra hfree
    rw [not_or] at hfree
    refine hs ⟨hfree.1, fun queue hqueue => ?_⟩
    by_contra hother
    exact hfree.2 ⟨queue, hqueue, hother⟩

/-- The attempt in progress has no open channel, or another connection has the queue. -/
theorem Sound.blocked {s : Consumer} (h : s.Sound) {queue : ExclusiveQueue}
    (hqueue : s.queue = some queue) (hphase : ∀ connection, s.phase ≠ .consuming connection)
    (hcurrent : ∀ connection, s.current? = some connection →
      connection ∉ s.channels ∨ queue.owner ≠ connection) : s.Blocked where
  sound := h
  phase := hphase
  queue := by
    refine .inr ⟨queue, hqueue, ?_⟩
    intro hcurrent'
    obtain ⟨howner, hopen⟩ := hcurrent'
    obtain hclosed | hne := hcurrent queue.owner howner
    · exact hclosed hopen
    · exact hne rfl

/-- The attempt in progress came too late for the queue. -/
theorem Sound.blocked_elsewhere {s : Consumer} (h : s.Sound) {queue : ExclusiveQueue}
    (hqueue : s.queue = some queue) {connection : Nat} (hother : queue.owner ≠ connection)
    (hcurrent : s.current? = some connection) (hphase : ∀ c, s.phase ≠ .consuming c) :
    s.Blocked := by
  apply h.blocked hqueue hphase
  intro connection' hcurrent'
  cases hcurrent.symm.trans hcurrent'
  exact .inr hother

theorem current?_bindNext {s : Consumer} {connection : Nat} {keys : List String}
    (hphase : s.phase = bindNext connection keys) : s.current? = some connection := by
  cases keys <;> rw [current?, hphase] <;> rfl

/-- A channel on which the queue was declared and that is still open belongs to an unblocked attempt. -/
theorem Blocked.closed {s : Consumer} (h : s.Blocked) {connection : Nat} {keys : List String}
    (hphase : s.phase = bindNext connection keys) : connection ∉ s.channels := by
  intro hopen
  obtain ⟨queue, hqueue, howner, -⟩ :=
    h.sound.declared connection keys (by rw [hphase, keysLeft?_bindNext]) hopen
  obtain hreturned | ⟨queue', hqueue', hother⟩ := h.queue
  · rw [hphase] at hreturned
    cases keys <;> cases hreturned
  · cases hqueue.symm.trans hqueue'
    exact hother ⟨howner ▸ current?_bindNext hphase, howner ▸ hopen⟩

/-- A granted call leaves a blocked consumer blocked. -/
theorem Blocked.call {s : Consumer} (h : s.Blocked) : (s.call .granted).Blocked := by
  obtain hreturned | ⟨queue, hqueue, -⟩ := h.queue
  · have hcall : s.call .granted = s := by simp [Consumer.call, hreturned]
    rw [hcall]
    exact h
  · have hdial : ∀ connection,
        s.call .granted = { s.closeChannel connection with phase := .dial } →
          (s.call .granted).Blocked := by
      intro connection hcall
      rw [hcall]
      refine (h.sound.of_call hcall).blocked hqueue ?_ ?_
      · exact fun _ => ConsumerPoint.noConfusion
      · exact fun _ hcurrent => by cases hcurrent
    cases hphase : s.phase with
    | dial =>
        have hcall : s.call .granted = { s with
            attempt := s.attempt + 1
            phase := .channel s.dialed
            dialed := s.dialed + 1
            connections := s.dialed :: s.connections } := by
          simp [Consumer.call, hphase]
        have hlt := h.sound.dialed queue.owner (h.sound.owner queue hqueue)
        rw [hcall]
        exact (h.sound.of_call hcall).blocked_elsewhere hqueue (Nat.ne_of_lt hlt) rfl
          fun _ => ConsumerPoint.noConfusion
    | channel connection =>
        have hother := (h.sound.undeclared connection (by rw [hphase]; rfl)).2 queue hqueue
        by_cases hopen : connection ∈ s.connections
        · have hcall : s.call .granted = { s with
              phase := .exchangeDeclare connection, channels := connection :: s.channels } := by
            simp [Consumer.call, hphase, hopen]
          rw [hcall]
          exact (h.sound.of_call hcall).blocked_elsewhere hqueue hother rfl
            fun _ => ConsumerPoint.noConfusion
        · apply hdial connection
          simp [Consumer.call, hphase, hopen, fail]
    | exchangeDeclare connection =>
        have hother := (h.sound.undeclared connection (by rw [hphase]; rfl)).2 queue hqueue
        by_cases hopen : connection ∈ s.channels
        · have hcall : s.call .granted = { s with phase := .queueDeclare connection } := by
            simp [Consumer.call, hphase, hopen]
          rw [hcall]
          exact (h.sound.of_call hcall).blocked_elsewhere hqueue hother rfl
            fun _ => ConsumerPoint.noConfusion
        · apply hdial connection
          simp [Consumer.call, hphase, hopen, fail]
    | queueDeclare connection =>
        have hother := (h.sound.undeclared connection (by rw [hphase]; rfl)).2 queue hqueue
        apply hdial connection
        simp [Consumer.call, hphase, locked, hqueue, hother, fail]
    | queueBind connection key rest =>
        have hbind : s.phase = bindNext connection (key :: rest) := hphase
        have hclosed := h.closed hbind
        have hcall : s.call .granted =
            { s.closeChannel connection with phase := bindNext connection rest } := by
          simp [Consumer.call, hphase, hclosed, fail]
        rw [hcall]
        refine (h.sound.of_call hcall).blocked hqueue ?_ ?_
        · exact fun other => bindNext_ne_consuming connection other rest
        · intro connection' hcurrent
          rw [current?_bindNext rfl] at hcurrent
          cases hcurrent
          left
          simp [closeChannel]
    | consume connection =>
        have hbind : s.phase = bindNext connection [] := hphase
        have hclosed := h.closed hbind
        apply hdial connection
        simp [Consumer.call, hphase, hclosed, fail]
    | consuming connection => exact absurd hphase (h.phase connection)
    | returned =>
        have hcall : s.call .granted = s := by simp [Consumer.call, hphase]
        rw [hcall]
        exact h

theorem Blocked.run {calls : Nat} {s s' : Consumer} (h : s.Blocked)
    (hrun : consumer.run s (List.replicate calls (.call .granted)) = some s') : s'.Blocked := by
  induction calls generalizing s with
  | zero =>
      cases hrun
      exact h
  | succ calls ih => exact ih h.call hrun

theorem unblocked_of_recovers {s : Consumer} (h : s.Sound) (hs : s.Recovers) : s.Unblocked := by
  by_contra hblocked
  obtain ⟨calls, s', hrun, ⟨connection, _, hphase, -⟩, -⟩ := hs
  exact ((blocked_of_not_unblocked h hblocked).run hrun).phase connection hphase

/-- In every reachable state, the consumer recovers within one further attempt exactly when it has not
returned and no connection but that of an attempt still in progress has the queue. -/
theorem recovers_iff_unblocked {moves : List ConsumerMove} {s : Consumer}
    (hrun : consumer.run start moves = some s) : s.Recovers ↔ s.Unblocked :=
  ⟨unblocked_of_recovers (sound_reachable hrun), recovers_of_unblocked (sound_reachable hrun)⟩

/-- A first attempt whose exchange is refused, on a connection that stays open. -/
def exchangeRefused : List ConsumerMove :=
  [.call .granted, .call .granted, .call .channelError]

theorem recovers_iff_unblocked_exchangeRefused :
    ∃ s, consumer.run start exchangeRefused = some s ∧ s.Recovers :=
  ⟨_, rfl, (@recovers_iff_unblocked exchangeRefused _ rfl).mpr (by decide)⟩

/-- A first attempt whose first bind is refused, on a connection that stays open and keeps the
queue. -/
def bindRefused : List ConsumerMove :=
  [.call .granted, .call .granted, .call .granted, .call .granted, .call .channelError]

theorem not_always_recovers : ¬ ∀ moves s, consumer.run start moves = some s → s.Recovers := by
  intro h
  have hrun : ∃ s, consumer.run start bindRefused = some s ∧ ¬ s.Unblocked := ⟨_, rfl, by decide⟩
  obtain ⟨s, hrun, hblocked⟩ := hrun
  exact hblocked (unblocked_of_recovers (sound_reachable hrun) (h bindRefused s hrun))

end BookHub.ReviewService.Consumer
