import BookHub.BookService.Issued

/-!
# The order of the events of one book

A book becomes visible to other requests when its row is committed, and its `book.created` event goes
out only after one more wait, the refresh. A `delete_book` that finds the row in between publishes
first. Apart from that window the order is right: in a run in which every `book.deleted` goes out
after the `create_book` of its book has got through, every `book.deleted` of a book comes after its
one `book.created`.
-/

namespace BookHub.BookService

/-- No `book.deleted` without a `book.created` of the same book, and none before it. -/
structure CreatedFirst (published : List Message) : Prop where
  present : ∀ msg ∈ published, ∀ id, msg.Announces "book.deleted" id →
    ∃ created ∈ published, created.Announces "book.created" id
  ordered : Message.InOrder published

/-- The book that a thread has committed, if it is a `create_book` past its commit. -/
def committed (t : BookThread) : Option Nat :=
  match t.trace with
  | ⟨.commitNew _ _, .ok id⟩ :: _ => some id
  | _ => none

/-- `publish_message` has published, also where it has raised in closing the connection. -/
def Sent (answer : Except Failure Unit) : Prop := answer = .ok () ∨ answer = .error (.broker .close)

instance (answer : Except Failure Unit) : Decidable (Sent answer) :=
  match answer with
  | .ok () => .isTrue (.inl rfl)
  | .error err => decidable_of_iff (err = .broker .close) (by simp [Sent])

/-- The book of a thread that is a `create_book` and has published its event. -/
def through (t : BookThread) : Option Nat :=
  match t.trace with
  | [⟨.commitNew _ _, .ok id⟩, ⟨.refresh _, .ok _⟩, ⟨.publishMessage _ _, answer⟩] =>
      if Sent answer then some id else none
  | _ => none

/-- The broker takes what is published in this step. -/
def Takes (env : BookEnv) : Prop :=
  ∀ call ∈ [BrokerCall.blockingConnection, .channel, .exchangeDeclare, .basicPublish],
    env.brokerRaises call = false

/-- The step does not publish the `book.deleted` event of a book whose `create_book` has committed
the row and is still on its way, or has failed on its way. -/
def NotOvertaking (p : BookPool) : BookMove → Prop
  | .arrive _ => True
  | .resume index env => Takes env → ∀ id ∈ p.threads[index]?.bind (publishing "book.deleted"),
      ∀ creator ∈ p.threads, committed creator = some id → through creator = some id

instance (env : BookEnv) : Decidable (Takes env) := inferInstanceAs (Decidable (∀ call ∈ _, _))

instance (p : BookPool) : (move : BookMove) → Decidable (NotOvertaking p move)
  | .arrive _ => .isTrue trivial
  | .resume index env => inferInstanceAs (Decidable
      (Takes env → ∀ id ∈ p.threads[index]?.bind (publishing "book.deleted"), _))

theorem through_eq_some {t : BookThread} {id : Nat} (h : through t = some id) :
    ∃ title author refreshed row routingKey message answer, Sent answer ∧ t.trace =
      [⟨.commitNew title author, .ok id⟩, ⟨.refresh refreshed, .ok row⟩,
        ⟨.publishMessage routingKey message, answer⟩] := by
  unfold through at h
  split at h
  · rename_i title author id' refreshed row routingKey message answer htrace
    obtain ⟨hsent, hid⟩ := Option.ite_none_right_eq_some.mp h
    cases hid
    exact ⟨title, author, refreshed, row, routingKey, message, answer, hsent, htrace⟩
  · cases h

theorem committed_of_through {t : BookThread} {id : Nat} (h : through t = some id) :
    committed t = some id := by
  obtain ⟨_, _, _, _, _, _, _, -, htrace⟩ := through_eq_some h
  simp only [committed, htrace]

/-- What was not there before was published by the operation, and taken. -/
theorem taken_of_mem {s : Store} {op : BookOp} {env : BookEnv} {msg : Message}
    (h : msg ∈ (exec s op env).2.published) :
    msg ∈ s.published ∨ msg ∈ op.messages ∧ Takes env := by
  by_cases htakes : Takes env
  · exact (mem_published_exec h).imp_right fun hnew => ⟨hnew, htakes⟩
  · left
    cases op with
    | publishMessage routingKey message =>
        have hraises : ∃ call, call ≠ .close ∧ env.brokerRaises call = true := by
          by_contra hnone
          apply htakes
          intro call hcall
          have hne : call ≠ .close := by
            rintro rfl
            exact absurd hcall (by decide)
          rw [← Bool.not_eq_true]
          exact fun hraises => hnone ⟨call, hne, hraises⟩
        obtain ⟨call, hne, hraises⟩ := hraises
        simp only [exec, publishMessage_refused hne hraises, List.append_nil] at h
        exact h
    | _ =>
        obtain hold | hnew := mem_published_exec h
        · exact hold
        · simp [BookOp.messages] at hnew

/-! ### Every committed book has one `create_book` -/

structure CommitInv (p : BookPool) : Prop where
  justified : Justified p
  fresh : ∀ t ∈ p.threads, ∀ id, committed t = some id → id < p.store.books.nextId
  exclusive : Exclusive committed p.threads
  rows_committed : ∀ book ∈ p.store.books.rows, ∃ t ∈ p.threads, committed t = some book.id
  read_committed : ∀ t ∈ p.threads, ∀ bookId item, ⟨.get bookId, .ok (some item)⟩ ∈ t.trace →
    ∃ creator ∈ p.threads, committed creator = some item.id

theorem committed_advance (s : Store) (env : BookEnv) {t : BookThread} {op : BookOp}
    (resume : Except Failure (bookSig.Answer op) → BookM BookResponse)
    (hissued : Issued t.trace op) :
    committed (Service.advance t op resume (exec s op env).1) = committed t ∨
      (committed (Service.advance t op resume (exec s op env).1) = some s.books.nextId ∧
        (exec s op env).2.books.nextId = s.books.nextId + 1) := by
  obtain ⟨request, trace, code⟩ := t
  cases hissued with
  | commitNew title author =>
      rcases exec_commitNew s title author env with h | ⟨hroom, h⟩
      · left
        simp only [Service.advance, h]
        rfl
      · right
        simp only [Service.advance, h]
        exact ⟨rfl, rfl⟩
  | _ => exact .inl rfl

/-- Once committed, a thread stays so. -/
theorem committed_advance_of_some {t : BookThread} {op : BookOp}
    {answer : Except Failure (bookSig.Answer op)}
    {resume : Except Failure (bookSig.Answer op) → BookM BookResponse} {id : Nat}
    (h : committed t = some id) : committed (Service.advance t op resume answer) = some id := by
  unfold committed at h
  split at h
  · rename_i htrace
    simp only [committed, Service.advance, htrace]
    exact h
  · cases h

/-- A row that is there after an operation was there before it, or is the one the thread commits. -/
theorem rows_exec {s : Store} {env : BookEnv} {t : BookThread} {op : BookOp}
    (resume : Except Failure (bookSig.Answer op) → BookM BookResponse)
    (hissued : Issued t.trace op) {book : Book} (hbook : book ∈ (exec s op env).2.books.rows) :
    (∃ old ∈ s.books.rows, old.id = book.id) ∨
      committed (Service.advance t op resume (exec s op env).1) = some book.id := by
  rcases exec_books s op env with h | ⟨title, author, hroom, rfl, h⟩ | ⟨id, -, h⟩
  · rw [h] at hbook
    exact .inl ⟨book, hbook, rfl⟩
  · rw [h] at hbook
    rcases Table.mem_insert.mp hbook with hold | rfl
    · exact .inl ⟨book, hold, rfl⟩
    · rcases exec_commitNew s title author env with herr | ⟨_, hok⟩
      · rw [herr] at h
        have hnext := congrArg Table.nextId h
        simp [Table.insert] at hnext
      · right
        obtain ⟨request, trace, code⟩ := t
        cases hissued
        simp only [Service.advance, hok]
        rfl
  · rw [h] at hbook
    rcases Table.mem_modify.mp hbook with ⟨hold, -⟩ | ⟨old, hold, -, rfl⟩
    · exact .inl ⟨book, hold, rfl⟩
    · exact .inl ⟨old, hold, rfl⟩

theorem nextId_exec (s : Store) (op : BookOp) (env : BookEnv) :
    s.books.nextId ≤ (exec s op env).2.books.nextId := by
  rcases exec_books s op env with h | ⟨title, author, hroom, -, h⟩ | ⟨id, -, h⟩
  · exact Nat.le_of_eq (by rw [h])
  · rw [h]
    exact Nat.le_succ _
  · exact Nat.le_of_eq (by rw [h]; rfl)

theorem commitInv_start : CommitInv (Service.start ⟨Table.empty, []⟩) where
  justified := Service.justified_start _
  fresh := by simp [Service.start]
  exclusive := exclusive_nil
  rows_committed := by simp [Service.start, Table.empty]
  read_committed := by simp [Service.start]

theorem commitInv_arrive {p : BookPool} (h : CommitInv p) (request : BookRequest)
    (hjust : Justified ⟨p.store, p.threads ++ [service.spawn request]⟩) :
    CommitInv ⟨p.store, p.threads ++ [service.spawn request]⟩ := by
  have hkeep : ∀ id, (∃ t ∈ p.threads, committed t = some id) →
      ∃ t ∈ p.threads ++ [service.spawn request], committed t = some id := by
    rintro id ⟨t, ht, hid⟩
    exact ⟨t, List.mem_append_left _ ht, hid⟩
  refine ⟨hjust, fun t ht id hid => ?_, exclusive_append h.exclusive rfl,
    fun book hbook => hkeep _ (h.rows_committed book hbook), fun t ht bookId item hread => ?_⟩
  · rcases List.mem_append.mp ht with ht | ht
    · exact h.fresh t ht id hid
    · rw [List.mem_singleton.mp ht] at hid
      cases hid
  · rcases List.mem_append.mp ht with ht | ht
    · exact hkeep _ (h.read_committed t ht bookId item hread)
    · rw [List.mem_singleton.mp ht] at hread
      cases hread

theorem commitInv_resume {p : BookPool} (h : CommitInv p) {index : Nat} {env : BookEnv}
    {t : BookThread} {op : BookOp} {resume : Except Failure (bookSig.Answer op) → BookM BookResponse}
    (ht : p.threads[index]? = some t) (hcode : t.code = .await op resume)
    {t' : BookThread} (ht' : t' = Service.advance t op resume (exec p.store op env).1)
    (hjust : Justified ⟨(exec p.store op env).2, p.threads.set index t'⟩) :
    CommitInv ⟨(exec p.store op env).2, p.threads.set index t'⟩ := by
  have hmem := List.mem_of_getElem? ht
  have hmem' : t' ∈ p.threads.set index t' :=
    List.mem_set (List.getElem?_eq_some_iff.mp ht).1 t'
  have hissued := h.justified.issued_of_await hmem hcode
  have hnext := nextId_exec p.store op env
  have hadvance := committed_advance p.store env resume hissued
  rw [← ht'] at hadvance
  have hkeep : ∀ id, (∃ u ∈ p.threads, committed u = some id) →
      ∃ u ∈ p.threads.set index t', committed u = some id := by
    rintro id ⟨u, hu, hid⟩
    by_cases heq : u = t
    · exact ⟨t', hmem', ht' ▸ committed_advance_of_some (heq ▸ hid)⟩
    · exact ⟨u, mem_set_of_ne ht hu heq, hid⟩
  refine ⟨hjust, fun u hu id hid => ?_, exclusive_set h.exclusive ht ?_, fun book hbook => ?_,
    fun u hu bookId item hread => ?_⟩
  · rcases List.mem_or_eq_of_mem_set hu with hold | rfl
    · exact Nat.lt_of_lt_of_le (h.fresh u hold id hid) hnext
    · rcases hadvance with hsame | ⟨hnew, hlt⟩
      · exact Nat.lt_of_lt_of_le (h.fresh t hmem id (hsame.symm.trans hid)) hnext
      · cases hnew.symm.trans hid
        show _ < (exec p.store op env).2.books.nextId
        omega
  · rcases hadvance with hsame | ⟨hnew, -⟩
    · exact .inl hsame
    · exact .inr ⟨_, hnew, fun u hu hid => Nat.lt_irrefl _ (h.fresh u hu _ hid)⟩
  · rcases rows_exec resume hissued hbook with ⟨old, hold, hid⟩ | hnew
    · exact hkeep _ (hid ▸ h.rows_committed old hold)
    · exact ⟨t', hmem', ht' ▸ hnew⟩
  · rcases List.mem_or_eq_of_mem_set hu with hold | rfl
    · exact hkeep _ (h.read_committed u hold bookId item hread)
    · rw [ht'] at hread
      rcases List.mem_append.mp hread with hold | hnew
      · exact hkeep _ (h.read_committed t hmem bookId item hold)
      · obtain ⟨rfl, hanswer⟩ := Sigma.mk.inj (List.mem_singleton.mp hnew)
        have hitem := (exec_get_some (eq_of_heq hanswer).symm).1
        exact hkeep _ (h.rows_committed item hitem)

theorem commitInv_step (p : BookPool) (move : BookMove) (p' : BookPool) (h : CommitInv p)
    (hstep : service.machine.step p move = some p') : CommitInv p' := by
  have hjust := justified_step p move p' h.justified hstep
  cases move with
  | arrive request =>
      obtain ⟨-, rfl⟩ := service.step_arrive hstep
      exact commitInv_arrive h request hjust
  | resume index env =>
      obtain ⟨t, op, resume, ht, hcode, rfl⟩ := service.step_resume hstep
      exact commitInv_resume h ht hcode rfl hjust

/-- The book whose `book.deleted` event is about to go out has a `create_book`. -/
theorem CommitInv.creator_of_publishing {p : BookPool} (h : CommitInv p) {t : BookThread}
    (ht : t ∈ p.threads) {id : Nat} (hid : publishing "book.deleted" t = some id) :
    ∃ creator ∈ p.threads, committed creator = some id := by
  obtain ⟨message, resume, hcode, hbookId⟩ := publishing_eq_some hid
  obtain ⟨bookId, item, htrace, rfl⟩ := (h.justified.issued_of_await ht hcode).deleted
  have hitem : (item.id : Int) = id :=
    Option.some.inj ((bookId?_announcement "book.deleted" item.delete).symm.trans hbookId)
  have hsame : item.id = id := by omega
  rw [← hsame]
  exact h.read_committed t ht bookId item (by simp [htrace])

/-! ### The events are accounted for by threads that are through -/

theorem through_of_issued {t : BookThread} {op : BookOp} (hissued : Issued t.trace op) :
    through t = none := by
  obtain ⟨request, trace, code⟩ := t
  cases hissued <;> rfl

/-- A thread gets through by publishing the `book.created` event of the row it has read back. -/
theorem through_advance {t : BookThread} {op : BookOp} {answer : Except Failure (bookSig.Answer op)}
    {resume : Except Failure (bookSig.Answer op) → BookM BookResponse} {id : Nat}
    (hissued : Issued t.trace op) (h : through (Service.advance t op resume answer) = some id) :
    ∃ row : Book, row.id = id ∧ (∃ sent : Except Failure Unit, Sent sent ∧ HEq answer sent) ∧
      op = .publishMessage "book.created" (BookDto.modelValidate row).modelDumpJson := by
  obtain ⟨_, _, _, _, _, _, sent, hsent, htrace⟩ := through_eq_some h
  obtain ⟨request, trace, code⟩ := t
  cases hissued with
  | announceCreated title author row =>
      simp only [Service.advance, List.cons_append, List.nil_append, List.cons.injEq,
        Sigma.mk.injEq, and_true] at htrace
      obtain ⟨⟨hop, hid⟩, -, -, hanswer⟩ := htrace
      cases hop
      cases hid
      exact ⟨row, rfl, ⟨sent, hsent, hanswer⟩, rfl⟩
  | _ => simp [Service.advance] at htrace

structure OrderInv (p : BookPool) : Prop where
  commits : CommitInv p
  created : ∀ t ∈ p.threads, ∀ id, through t = some id →
    ∃ msg ∈ p.store.published, msg.Announces "book.created" id
  deleted : ∀ msg ∈ p.store.published, ∀ id, msg.Announces "book.deleted" id →
    ∃ t ∈ p.threads, through t = some id
  ordered : Message.InOrder p.store.published

theorem OrderInv.createdFirst {p : BookPool} (h : OrderInv p) : CreatedFirst p.store.published where
  present msg hmsg id hdel := by
    obtain ⟨t, ht, hthrough⟩ := h.deleted msg hmsg id hdel
    exact h.created t ht id hthrough
  ordered := h.ordered

theorem orderInv_start : OrderInv (Service.start ⟨Table.empty, []⟩) where
  commits := commitInv_start
  created := by simp [Service.start]
  deleted := by simp [Service.start]
  ordered := .nil

/-- Who publishes a `book.created` event has committed that book. -/
theorem committed_of_created {t : BookThread} {op : BookOp} (hissued : Issued t.trace op)
    {msg : Message} (hmsg : msg ∈ op.messages) {id : Nat} (h : msg.Announces "book.created" id) :
    committed t = some id := by
  obtain ⟨request, trace, code⟩ := t
  cases hissued with
  | announceCreated title author row =>
      rw [List.mem_singleton.mp hmsg] at h
      exact congrArg some (announces_announcement.mp h).2
  | announceDeleted bookId item =>
      rw [List.mem_singleton.mp hmsg] at h
      exact absurd h.1 (by simp)
  | _ => simp [BookOp.messages] at hmsg

theorem published_subset_exec (s : Store) (op : BookOp) (env : BookEnv) :
    s.published ⊆ (exec s op env).2.published := by
  intro msg hmsg
  rcases exec_published s op env with hsame | happend
  · rwa [hsame]
  · rw [happend]
    exact List.mem_append_left _ hmsg

theorem orderInv_arrive {p : BookPool} (h : OrderInv p) (request : BookRequest)
    (hcommits : CommitInv ⟨p.store, p.threads ++ [service.spawn request]⟩) :
    OrderInv ⟨p.store, p.threads ++ [service.spawn request]⟩ := by
  refine ⟨hcommits, fun t ht id hthrough => ?_, fun msg hmsg id hdel => ?_, h.ordered⟩
  · rcases List.mem_append.mp ht with ht | ht
    · exact h.created t ht id hthrough
    · rw [List.mem_singleton.mp ht] at hthrough
      cases hthrough
  · obtain ⟨t, ht, hthrough⟩ := h.deleted msg hmsg id hdel
    exact ⟨t, List.mem_append_left _ ht, hthrough⟩

theorem orderInv_resume {p : BookPool} (h : OrderInv p) {index : Nat} {env : BookEnv}
    (hnot : NotOvertaking p (.resume index env)) {t : BookThread} {op : BookOp}
    {resume : Except Failure (bookSig.Answer op) → BookM BookResponse}
    (ht : p.threads[index]? = some t) (hcode : t.code = .await op resume)
    {t' : BookThread} (ht' : t' = Service.advance t op resume (exec p.store op env).1)
    (hcommits : CommitInv ⟨(exec p.store op env).2, p.threads.set index t'⟩) :
    OrderInv ⟨(exec p.store op env).2, p.threads.set index t'⟩ := by
  have hmem := List.mem_of_getElem? ht
  have hissued := h.commits.justified.issued_of_await hmem hcode
  -- a thread that is through is not the one that moves
  have hkeep : ∀ u ∈ p.threads, ∀ id, through u = some id → u ∈ p.threads.set index t' := by
    intro u hu id hthrough
    apply mem_set_of_ne ht hu
    intro heq
    rw [heq, through_of_issued hissued] at hthrough
    cases hthrough
  refine ⟨hcommits, fun u hu id hthrough => ?_, fun msg hmsg id hdel => ?_, ?_⟩
  · rcases List.mem_or_eq_of_mem_set hu with hold | rfl
    · obtain ⟨msg, hmsg, hcreated⟩ := h.created u hold id hthrough
      exact ⟨msg, published_subset_exec _ _ _ hmsg, hcreated⟩
    · rw [ht'] at hthrough
      obtain ⟨row, rfl, ⟨sent, hsent, hanswer⟩, rfl⟩ := through_advance hissued hthrough
      refine ⟨announcement "book.created" row, ?_, announces_announcement.mpr ⟨rfl, rfl⟩⟩
      show _ ∈ (exec p.store _ env).2.published
      obtain rfl := eq_of_heq hanswer
      rw [exec_publish_sent hsent]
      exact List.mem_append_right _ (List.mem_singleton_self _)
  · rcases taken_of_mem hmsg with hold | ⟨hnew, htakes⟩
    · obtain ⟨u, hu, hthrough⟩ := h.deleted msg hold id hdel
      exact ⟨u, hkeep u hu id hthrough, hthrough⟩
    · cases op with
      | publishMessage routingKey message =>
          rw [List.mem_singleton.mp hnew] at hdel
          obtain rfl : routingKey = "book.deleted" := hdel.1
          have hpublishing := publishing_of_code hcode hdel.2
          obtain ⟨u, hu, hcommitted⟩ := h.commits.creator_of_publishing hmem hpublishing
          have hthrough := hnot htakes id (by rw [ht]; exact hpublishing) u hu hcommitted
          exact ⟨u, hkeep u hu id hthrough, hthrough⟩
      | _ => simp [BookOp.messages] at hnew
  · rcases exec_published p.store op env with hsame | happend
    · show Message.InOrder (exec p.store op env).2.published
      rw [hsame]
      exact h.ordered
    · show Message.InOrder (exec p.store op env).2.published
      rw [happend, Message.InOrder, List.pairwise_append]
      refine ⟨h.ordered, ?_, fun earlier hearlier later hlater id hdel hcreated => ?_⟩
      · cases op <;> simp [BookOp.messages]
      · obtain ⟨u, hu, hthrough⟩ := h.deleted earlier hearlier id hdel
        obtain ⟨j, hj⟩ := List.getElem?_of_mem hu
        have hsame : index = j := h.commits.exclusive index j t u ht hj id
          (committed_of_created hissued hlater hcreated) (committed_of_through hthrough)
        subst hsame
        rw [ht] at hj
        cases hj
        rw [through_of_issued hissued] at hthrough
        cases hthrough

theorem orderInv_step (p : BookPool) (move : BookMove) (p' : BookPool) (h : OrderInv p)
    (hnot : NotOvertaking p move) (hstep : service.machine.step p move = some p') : OrderInv p' := by
  have hcommits := commitInv_step p move p' h.commits hstep
  cases move with
  | arrive request =>
      obtain ⟨-, rfl⟩ := service.step_arrive hstep
      exact orderInv_arrive h request hcommits
  | resume index env =>
      obtain ⟨t, op, resume, ht, hcode, rfl⟩ := service.step_resume hstep
      exact orderInv_resume h hnot ht hcode rfl hcommits

/-- A book service that has never had a book. -/
def newService : BookPool := Service.start ⟨Table.empty, []⟩

/-- In every run in which each `book.deleted` goes out after the `create_book` of its book is through,
every `book.deleted` comes after its book's `book.created`. -/
theorem created_before_deleted {moves : List BookMove} {p : BookPool}
    (hrun : service.machine.run newService moves = some p)
    (hnot : service.machine.Meets NotOvertaking newService moves) :
    CreatedFirst p.store.published :=
  (Machine.invariant_of_meets orderInv_step orderInv_start hnot hrun).createdFirst

/-- One book is created and deleted, one request after the other. -/
def createThenDelete : List BookMove :=
  [.arrive (.create emma admin), .resume 0 .calm, .resume 0 .calm, .resume 0 .calm,
    .arrive (.delete 1 admin), .resume 1 .calm, .resume 1 .calm, .resume 1 .calm]

theorem created_before_deleted_createThenDelete :
    ∃ p, service.machine.run newService createThenDelete = some p ∧
      p.store.published.map (·.routingKey) = ["book.created", "book.deleted"] ∧
      CreatedFirst p.store.published :=
  ⟨_, rfl, rfl, @created_before_deleted createThenDelete _ rfl (by decide)⟩

/-- The delete finds the committed row while the create still waits for its refresh. -/
def deleteOvertakes : List BookMove :=
  [.arrive (.create emma admin), .resume 0 .calm,
    .arrive (.delete 1 admin), .resume 1 .calm, .resume 1 .calm, .resume 1 .calm,
    .resume 0 .calm, .resume 0 .calm]

theorem not_created_before_deleted : ¬ ∀ (moves : List BookMove) (p : BookPool),
    service.machine.run newService moves = some p → CreatedFirst p.store.published := by
  intro h
  have hordered := (h deleteOvertakes _ rfl).ordered
  exact (List.pairwise_cons.mp hordered).1 _ (List.mem_singleton_self _) 1 ⟨rfl, rfl⟩ ⟨rfl, rfl⟩

end BookHub.BookService
