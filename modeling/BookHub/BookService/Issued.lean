import BookHub.BookService.Handlers

/-!
# What the book service does to its table and to the exchange

One lemma for each side of a step. `Issued` lists the operations a handler can issue together with the
answers it has received by then, so that an argument about a schedule starts from a case analysis on
six operations and never unfolds a handler. The `exec` lemmas say what an operation does to the store.
-/

namespace BookHub.BookService

abbrev BookEvent : Type := bookSig.Event Failure

abbrev BookPool : Type := Pool bookSig Failure Store BookRequest BookResponse

abbrev BookThread : Type := Thread bookSig Failure BookRequest BookResponse

abbrev BookMove : Type := Move BookEnv BookRequest

/-- The book whose event of this routing key a thread is about to publish. -/
def publishing (key : String) (t : BookThread) : Option Nat :=
  match t.code with
  | .await (.publishMessage routingKey message) _ =>
      if routingKey = key then (Message.bookId? ⟨routingKey, some message⟩).bind Int.toNat? else none
  | _ => none

theorem publishing_eq_some {key : String} {t : BookThread} {id : Nat}
    (h : publishing key t = some id) :
    ∃ message resume, t.code = .await (.publishMessage key message) resume ∧
      Message.bookId? ⟨key, some message⟩ = some (id : Int) := by
  unfold publishing at h
  split at h
  · rename_i routingKey message resume hcode
    rw [Option.ite_none_right_eq_some] at h
    obtain ⟨rfl, h⟩ := h
    obtain ⟨found, hfound, hid⟩ := Option.bind_eq_some_iff.mp h
    exact ⟨message, resume, hcode, by rw [hfound, ← Int.mem_toNat?.mp hid]⟩
  · cases h

theorem publishing_of_code {key : String} {t : BookThread} {message : Json}
    {resume : Except Failure Unit → BookM BookResponse} {id : Nat}
    (hcode : t.code = .await (.publishMessage key message) resume)
    (hid : Message.bookId? ⟨key, some message⟩ = some (id : Int)) : publishing key t = some id := by
  simp only [publishing, hcode, if_true, hid, Option.bind_some]
  rfl

/-! ### What the store answers -/

/-- A row that is read has the key it was asked for. -/
def Honest : (op : BookOp) → Except Failure (bookSig.Answer op) → Prop
  | .refresh id, .ok book => book.id = id
  | .get id, .ok (some book) => (book.id : Int) = id
  | _, _ => True

theorem exec_honest (s : Store) (op : BookOp) (env : BookEnv) : Honest op (exec s op env).1 := by
  cases op with
  | commitNew title author => trivial
  | refresh id =>
      simp only [exec]
      split
      · trivial
      · split
        · trivial
        · rename_i book hfind
          exact (Table.find?_eq_some.mp hfind).2
  | get id =>
      simp only [exec]
      split
      · trivial
      · cases hfind : s.books.rows.find? fun book => (book.id : Int) == id with
        | none => trivial
        | some book => simpa [Honest] using List.find?_some hfind
  | commitDeleted id => trivial
  | publishMessage routingKey message => trivial

theorem publishMessage_messages (raises : BrokerCall → Bool) (msg : Message) :
    (publishMessage raises msg).2 = [] ∨ (publishMessage raises msg).2 = [msg] := by
  unfold publishMessage
  repeat' split
  all_goals simp

/-- The message is out where only `close` may have raised. -/
theorem publishMessage_sent {raises : BrokerCall → Bool} {msg : Message}
    (h : (publishMessage raises msg).1 = .ok () ∨
      (publishMessage raises msg).1 = .error (.broker .close)) :
    (publishMessage raises msg).2 = [msg] := by
  unfold publishMessage at h ⊢
  repeat' split
  all_goals simp_all

/-- Nothing is out where another call has raised. -/
theorem publishMessage_refused {raises : BrokerCall → Bool} {call : BrokerCall} (hcall : call ≠ .close)
    (h : raises call = true) (msg : Message) : (publishMessage raises msg).2 = [] := by
  unfold publishMessage
  repeat' split
  all_goals first | rfl | (cases call <;> simp_all)

theorem publishMessage_calm {raises : BrokerCall → Bool} (h : ∀ call, raises call = false)
    (msg : Message) : publishMessage raises msg = (.ok (), [msg]) := by
  simp [publishMessage, h]

instance decidableCalm (raises : BrokerCall → Bool) : Decidable (∀ call, raises call = false) :=
  decidable_of_iff (∀ call ∈ [BrokerCall.blockingConnection, .channel, .exchangeDeclare,
    .basicPublish, .close], raises call = false)
    ⟨fun h call => h call (by cases call <;> decide), fun h call _ => h call⟩

theorem publishMessage_error {raises : BrokerCall → Bool} {call : BrokerCall}
    (h : raises call = true) (msg : Message) : ∃ err, (publishMessage raises msg).1 = .error err := by
  unfold publishMessage
  repeat' split
  all_goals first | exact ⟨_, rfl⟩ | (cases call <;> simp_all)

/-! ### What an operation does to the store -/

/-- The messages that an operation publishes, if the broker lets it. -/
def BookOp.messages : BookOp → List Message
  | .publishMessage routingKey message => [⟨routingKey, some message⟩]
  | _ => []

theorem exec_refresh_store (s : Store) (id : Nat) (env : BookEnv) :
    (exec s (.refresh id) env).2 = s := by
  simp only [exec]
  repeat' split
  all_goals rfl

theorem exec_get_store (s : Store) (id : Int) (env : BookEnv) : (exec s (.get id) env).2 = s := by
  simp only [exec]
  split <;> rfl

theorem exec_published (s : Store) (op : BookOp) (env : BookEnv) :
    (exec s op env).2.published = s.published ∨
      (exec s op env).2.published = s.published ++ op.messages := by
  cases op with
  | commitNew title author =>
      left
      simp only [exec, Store.commitNew]
      repeat' split
      all_goals rfl
  | refresh id => exact .inl (by rw [exec_refresh_store])
  | get id => exact .inl (by rw [exec_get_store])
  | commitDeleted id =>
      left
      simp only [exec]
      split <;> rfl
  | publishMessage routingKey message =>
      obtain h | h := publishMessage_messages env.brokerRaises ⟨routingKey, some message⟩
      · left
        simp only [exec, h, List.append_nil]
      · right
        simp only [exec, h, BookOp.messages]

theorem mem_published_exec {s : Store} {op : BookOp} {env : BookEnv} {msg : Message}
    (h : msg ∈ (exec s op env).2.published) : msg ∈ s.published ∨ msg ∈ op.messages := by
  obtain hsame | happend := exec_published s op env
  · exact .inl (hsame ▸ h)
  · exact List.mem_append.mp (happend ▸ h)

theorem exec_publish_sent {s : Store} {env : BookEnv} {routingKey : String} {message : Json}
    (h : (exec s (.publishMessage routingKey message) env).1 = .ok () ∨
      (exec s (.publishMessage routingKey message) env).1 = .error (.broker .close)) :
    (exec s (.publishMessage routingKey message) env).2.published =
      s.published ++ [⟨routingKey, some message⟩] := by
  simp only [exec] at h ⊢
  rw [publishMessage_sent h]

theorem exec_commitNew (s : Store) (title author : String) (env : BookEnv) :
    exec s (.commitNew title author) env = (.error .database, s) ∨
      ∃ hroom, exec s (.commitNew title author) env = (.ok s.books.nextId,
        { s with
          books := s.books.insert (fun id => ⟨id, title, author, false⟩) (fun _ => rfl) hroom }) := by
  simp only [exec, Store.commitNew]
  split
  · exact .inl rfl
  · split
    · rename_i hroom
      exact .inr ⟨hroom, rfl⟩
    · exact .inl rfl

/-- The rows after an operation: those before it, except that a commit adds a row that is not deleted
under a fresh key, or sets the flag of one row. -/
theorem exec_books (s : Store) (op : BookOp) (env : BookEnv) :
    (exec s op env).2.books = s.books ∨
      (∃ title author hroom, op = .commitNew title author ∧
        (exec s op env).2.books =
          s.books.insert (fun id => ⟨id, title, author, false⟩) (fun _ => rfl) hroom) ∨
      ∃ id, op = .commitDeleted id ∧
        (exec s op env).2.books = s.books.modify id Book.delete Book.id_delete := by
  cases op with
  | commitNew title author =>
      obtain h | ⟨hroom, h⟩ := exec_commitNew s title author env
      · exact .inl (by rw [h])
      · exact .inr (.inl ⟨title, author, hroom, rfl, by rw [h]⟩)
  | refresh id => exact .inl (by rw [exec_refresh_store])
  | get id => exact .inl (by rw [exec_get_store])
  | commitDeleted id =>
      simp only [exec]
      split
      · exact .inl rfl
      · exact .inr (.inr ⟨id, rfl, rfl⟩)
  | publishMessage routingKey message => exact .inl rfl

/-- A book that is read is in the table. -/
theorem exec_get_some {s : Store} {bookId : Int} {env : BookEnv} {item : Book}
    (h : (exec s (.get bookId) env).1 = .ok (some item)) :
    item ∈ s.books.rows ∧ (item.id : Int) = bookId ∧ env.databaseRaises = false := by
  simp only [exec] at h
  split at h
  · cases h
  · rename_i hin
    have hfind : s.books.rows.find? (fun book => (book.id : Int) == bookId) = some item :=
      Except.ok.inj h
    refine ⟨List.mem_of_find?_eq_some hfind, by simpa using List.find?_some hfind, ?_⟩
    simp only [Bool.or_eq_true, not_or, Bool.not_eq_true] at hin
    exact hin.1.1

/-! ### What a handler issues -/

/-- The operations a handler issues, each with the answers it has received before. -/
inductive Issued : List BookEvent → BookOp → Prop where
  | commitNew (title author : String) : Issued [] (.commitNew title author)
  | refresh (title author : String) (id : Nat) :
      Issued [⟨.commitNew title author, .ok id⟩] (.refresh id)
  | announceCreated (title author : String) (row : Book) :
      Issued [⟨.commitNew title author, .ok row.id⟩, ⟨.refresh row.id, .ok row⟩]
        (.publishMessage "book.created" (BookDto.modelValidate row).modelDumpJson)
  | get (id : Int) : Issued [] (.get id)
  | commitDeleted (id : Int) (item : Book) :
      Issued [⟨.get id, .ok (some item)⟩] (.commitDeleted item.id)
  | announceDeleted (id : Int) (item : Book) :
      Issued [⟨.get id, .ok (some item)⟩, ⟨.commitDeleted item.id, .ok ()⟩]
        (.publishMessage "book.deleted" (BookDto.modelValidate item.delete).modelDumpJson)

theorem Issued.deleted {trace : List BookEvent} {message : Json}
    (h : Issued trace (.publishMessage "book.deleted" message)) :
    ∃ id item, trace = [⟨.get id, .ok (some item)⟩, ⟨.commitDeleted item.id, .ok ()⟩] ∧
      message = (BookDto.modelValidate item.delete).modelDumpJson := by
  generalize hop : BookOp.publishMessage "book.deleted" message = op at h
  cases h with
  | announceCreated title author row => simp at hop
  | announceDeleted id item =>
      cases hop
      exact ⟨id, item, rfl, rfl⟩
  | _ => cases hop

theorem issues_createBook (book : BookRequestBody) (jwt : JwtUser) (next : Book → BookM BookResponse)
    (hnext : ∀ trace row, Coroutine.Issues Honest Issued trace (next row)) :
    Coroutine.Issues Honest Issued [] (createBook book jwt >>= next) := by
  simp only [createBook, call, Coroutine.perform]
  split
  · trivial
  · refine ⟨.commitNew _ _, fun answer _ => ?_⟩
    cases answer with
    | error err => trivial
    | ok id =>
        refine ⟨.refresh _ _ id, fun (answer : Except Failure Book) hrow => ?_⟩
        cases answer with
        | error err => trivial
        | ok row =>
            cases hrow
            refine ⟨.announceCreated _ _ row, fun answer _ => ?_⟩
            cases answer with
            | error err => trivial
            | ok _ => exact hnext _ row

theorem issues_deleteBook (bookId : Int) (jwt : JwtUser) (next : Unit → BookM BookResponse)
    (hnext : ∀ trace, Coroutine.Issues Honest Issued trace (next ())) :
    Coroutine.Issues Honest Issued [] (deleteBook bookId jwt >>= next) := by
  simp only [deleteBook, call, Coroutine.perform]
  split
  · trivial
  · refine ⟨.get _, fun answer _ => ?_⟩
    cases answer with
    | error err => trivial
    | ok found =>
        cases found with
        | none => trivial
        | some item =>
            refine ⟨.commitDeleted _ item, fun answer _ => ?_⟩
            cases answer with
            | error err => trivial
            | ok _ =>
                refine ⟨.announceDeleted _ item, fun answer _ => ?_⟩
                cases answer with
                | error err => trivial
                | ok _ => exact hnext _

theorem issues_handler (request : BookRequest) :
    Coroutine.Issues Honest Issued [] (service.handler request) := by
  cases request with
  | create book jwt => exact issues_createBook book jwt _ fun _ _ => trivial
  | delete bookId jwt => exact issues_deleteBook bookId jwt _ fun _ => trivial

/-- The handlers in progress are justified by their traces. -/
abbrev Justified (p : BookPool) : Prop := Service.Justified Honest (fun _ => Issued) p

theorem justified_step (p : BookPool) (move : BookMove) (p' : BookPool) (hp : Justified p)
    (hstep : service.machine.step p move = some p') : Justified p' :=
  service.justified_step exec_honest issues_handler p move p' hp hstep

end BookHub.BookService
