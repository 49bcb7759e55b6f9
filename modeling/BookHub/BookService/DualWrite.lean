import BookHub.BookService.Issued

/-!
# The table and the event stream

A request writes twice, to the table and then to the exchange, and nothing undoes the first write when
a later call raises. So the two stay in step exactly in the requests whose commit is not followed by a
failure: `inStep_iff` says so for one request in any state, and `replayed_of_meets` draws the consequence
for whole runs, that replaying the events gives the books that are not deleted.
-/

namespace BookHub.BookService

/-- One request handled from start to end, with the environment of each of its operations. -/
def process (s : Store) (request : BookRequest) (env : Nat → BookEnv) :
    Except Failure BookResponse × Store :=
  (handler request).eval exec env s

/-- Requests handled one after the other. -/
def sequential : Machine Store (BookRequest × (Nat → BookEnv)) where
  step s label := some (process s label.1 label.2).2

/-- The message is the one event of the change between two stores: it has the matching kind and
carries the row that was committed. -/
def Announced (s s' : Store) (msg : Message) : Prop :=
  (∃ book, s'.books.rows = s.books.rows ++ [book] ∧ msg = announcement "book.created" book) ∨
    ∃ book ∈ s.books.rows, book.isDeleted = false ∧
      s'.books.rows = (s.books.modify book.id Book.delete Book.id_delete).rows ∧
      msg = announcement "book.deleted" book.delete

/-- What keeps the table and the stream together, for one request. -/
structure InStep (s : Store) (outcome : Except Failure BookResponse × Store) : Prop where
  error_keeps : ∀ err, outcome.1 = .error err → outcome.2.books.rows = s.books.rows
  change_announced : outcome.2.books.rows ≠ s.books.rows →
    ∃ msg, outcome.2.published = s.published ++ [msg] ∧ Announced s outcome.2 msg

/-- The commit of the request goes through and changes the table. -/
def Commits (s : Store) (env : Nat → BookEnv) : BookRequest → Prop
  | .create _ jwt =>
      isAdmin jwt = true ∧ (env 0).databaseRaises = false ∧ s.books.nextId < 2 ^ 31
  | .delete bookId jwt =>
      isAdmin jwt = true ∧ (env 0).databaseRaises = false ∧ (env 1).databaseRaises = false ∧
        ∃ book ∈ s.books.rows, (book.id : Int) = bookId ∧ book.isDeleted = false

/-- No call after the commit raises: the refresh, and the five calls of `publish_message`. -/
def CalmAfterCommit (env : Nat → BookEnv) : BookRequest → Prop
  | .create _ _ => (env 1).databaseRaises = false ∧ ∀ call, (env 2).brokerRaises call = false
  | .delete _ _ => ∀ call, (env 2).brokerRaises call = false

/-! ### The outcome of a create -/

theorem process_create_unauthorized {s : Store} {book : BookRequestBody} {jwt : JwtUser}
    {env : Nat → BookEnv} (h : isAdmin jwt = false) :
    process s (.create book jwt) env = (.error (.http 403 "Insufficient permissions!"), s) := by
  simp [process, handler, createBook, h]

theorem process_create_uncommitted {s : Store} {book : BookRequestBody} {jwt : JwtUser}
    {env : Nat → BookEnv} (hadmin : isAdmin jwt = true)
    (h : (env 0).databaseRaises = true ∨ ¬ s.books.nextId < 2 ^ 31) :
    process s (.create book jwt) env = (.error .database, s) := by
  have hexec : exec s (.commitNew book.title book.author) (env 0) = (.error .database, s) := by
    simp only [exec, Store.commitNew]
    obtain h | h := h
    · rw [if_pos h]
    · rw [dif_neg h, ite_self]
  simp [process, handler, createBook, call, Coroutine.perform, hadmin, hexec]

/-- The row that a create commits, and the store right after its commit. -/
def newBook (s : Store) (book : BookRequestBody) : Book :=
  ⟨s.books.nextId, book.title, book.author, false⟩

def Store.withNew (s : Store) (book : BookRequestBody) (hroom : s.books.nextId < 2 ^ 31) : Store :=
  { s with books := s.books.insert (fun id => ⟨id, book.title, book.author, false⟩) (fun _ => rfl) hroom }

theorem process_create_committed {s : Store} {book : BookRequestBody} {jwt : JwtUser}
    {env : Nat → BookEnv} (hadmin : isAdmin jwt = true) (hcommit : (env 0).databaseRaises = false)
    (hroom : s.books.nextId < 2 ^ 31) :
    process s (.create book jwt) env =
      if (env 1).databaseRaises then (.error .database, s.withNew book hroom) else
        let publish := publishMessage (env 2).brokerRaises (announcement "book.created" (newBook s book))
        (publish.1.map fun _ => .created (newBook s book),
          { s.withNew book hroom with published := s.published ++ publish.2 }) := by
  have hcommitted : exec s (.commitNew book.title book.author) (env 0) =
      (.ok s.books.nextId, s.withNew book hroom) := by
    simp only [exec, Store.commitNew, hcommit, dif_pos hroom]
    rfl
  have hfind : (s.withNew book hroom).books.find? s.books.nextId = some (newBook s book) :=
    Table.find?_eq_some.mpr ⟨Table.mem_insert.mpr (.inr rfl), rfl⟩
  have hrefresh : exec (s.withNew book hroom) (.refresh s.books.nextId) (env 1) =
      if (env 1).databaseRaises then (.error .database, s.withNew book hroom)
      else (.ok (newBook s book), s.withNew book hroom) := by
    simp only [exec, hfind]
  simp only [process, handler, createBook, call, Coroutine.perform, hadmin, Bool.not_true,
    Bool.false_eq_true, if_false, Coroutine.pure_eq, Coroutine.ok_bind, Coroutine.await_bind,
    Coroutine.eval_await, hcommitted, hrefresh]
  cases hdb : (env 1).databaseRaises with
  | true => rfl
  | false =>
      simp only [Bool.false_eq_true, if_false, Coroutine.ok_bind, Coroutine.await_bind,
        Coroutine.eval_await, exec]
      cases hpublish : publishMessage (env 2).brokerRaises (announcement "book.created" (newBook s book)) with
      | mk answer messages =>
          simp only [announcement] at hpublish
          rw [hpublish]
          cases answer <;> rfl

/-! ### The outcome of a delete -/

theorem process_delete (s : Store) (bookId : Int) (jwt : JwtUser) (env : Nat → BookEnv) :
    process s (.delete bookId jwt) env =
      if isAdmin jwt = false then (.error (.http 403 "Insufficient permissions!"), s) else
        match (exec s (.get bookId) (env 0)).1 with
        | .error err => (.error err, s)
        | .ok none => (.error (.http 404 s!"Entity with id: {bookId} not found!"), s)
        | .ok (some item) =>
            if (env 1).databaseRaises then (.error .database, s) else
              let publish :=
                publishMessage (env 2).brokerRaises (announcement "book.deleted" item.delete)
              (publish.1.map fun _ => .noContent,
                ⟨s.books.modify item.id Book.delete Book.id_delete, s.published ++ publish.2⟩) := by
  have hget : (exec s (.get bookId) (env 0)).2 = s := by
    simp only [exec]
    split <;> rfl
  simp only [process, handler, deleteBook, call, Coroutine.perform]
  cases hadmin : isAdmin jwt with
  | false => rfl
  | true =>
      simp only [Bool.not_true, Bool.false_eq_true, Bool.true_eq_false, if_false, Coroutine.pure_eq,
        Coroutine.await_bind, Coroutine.eval_await, hget]
      cases hanswer : (exec s (.get bookId) (env 0)).1 with
      | error err => rfl
      | ok found =>
          cases found with
          | none => rfl
          | some item =>
              simp only [Coroutine.ok_bind, Coroutine.await_bind, Coroutine.eval_await]
              cases hdb : (env 1).databaseRaises with
              | true => simp [exec, hdb]
              | false =>
                  simp only [exec, hdb, Bool.false_eq_true, if_false, Coroutine.ok_bind,
                    Coroutine.await_bind, Coroutine.eval_await]
                  cases hpublish : publishMessage (env 2).brokerRaises
                      (announcement "book.deleted" item.delete) with
                  | mk answer messages =>
                      simp only [announcement] at hpublish
                      rw [hpublish]
                      cases answer <;> rfl

theorem exec_get_of_mem {s : Store} {book : Book} (hbook : book ∈ s.books.rows) {env : BookEnv}
    (h : env.databaseRaises = false) : (exec s (.get book.id) env).1 = .ok (some book) := by
  have hlt := s.books.fresh book hbook
  have hbound := s.books.bounded
  have hlow : ¬ (book.id : Int) < -2 ^ 31 := by omega
  have hhigh : ¬ (2 ^ 31 : Int) ≤ book.id := by omega
  have hfind : s.books.rows.find? (fun row => (row.id : Int) == book.id) = some book := by
    have hkeys : (fun row : Book => (row.id : Int) == book.id) = fun row => row.id == book.id := by
      funext row
      rw [Bool.eq_iff_iff, beq_iff_eq, beq_iff_eq, Int.ofNat_inj]
    rw [hkeys]
    exact Table.find?_eq_some.mpr ⟨hbook, rfl⟩
  simp only [exec, h, hlow, hhigh, decide_false, Bool.or_false, Bool.false_eq_true, if_false, hfind]

theorem delete_of_isDeleted {book : Book} (h : book.isDeleted = true) : book.delete = book := by
  cases book
  simp_all [Book.delete]

theorem modify_deleted_ne {t : BooksTable} {book : Book} (hbook : book ∈ t.rows)
    (h : book.isDeleted = false) : (t.modify book.id Book.delete Book.id_delete).rows ≠ t.rows := by
  intro heq
  have hmem : book.delete ∈ (t.modify book.id Book.delete Book.id_delete).rows :=
    Table.mem_modify.mpr (.inr ⟨book, hbook, rfl, rfl⟩)
  rw [heq] at hmem
  have hsame := Table.mem_rows_unique hmem hbook rfl
  rw [← hsame] at h
  cases h

theorem modify_deleted_eq {t : BooksTable} {book : Book} (hbook : book ∈ t.rows)
    (h : book.isDeleted = true) : (t.modify book.id Book.delete Book.id_delete).rows = t.rows := by
  refine (List.map_congr_left fun row hrow => ?_).trans (List.map_id t.rows)
  split
  · rename_i hid
    rw [Table.mem_rows_unique hrow hbook hid, delete_of_isDeleted h]
    rfl
  · rfl

/-! ### When a request keeps the two in step -/

theorem InStep.of_rows_eq {s : Store} {outcome : Except Failure BookResponse × Store}
    (h : outcome.2.books.rows = s.books.rows) : InStep s outcome :=
  ⟨fun _ _ => h, fun hne => absurd h hne⟩

/-- After a commit that changed the table, the request keeps in step exactly when no call of
`publish_message` raises. -/
theorem inStep_publish_iff {s s' : Store} {msg : Message} (raises : BrokerCall → Bool)
    (response : Unit → BookResponse) (hrows : s'.books.rows ≠ s.books.rows)
    (hmsg : Announced s s' msg) :
    InStep s ((publishMessage raises msg).1.map response,
      { s' with published := s.published ++ (publishMessage raises msg).2 }) ↔
      ∀ call, raises call = false := by
  constructor
  · intro h call
    by_contra hraises
    obtain ⟨err, herr⟩ := publishMessage_error (by simpa using hraises) msg
    exact hrows (h.error_keeps err (by rw [herr]; rfl))
  · intro hcalm
    rw [publishMessage_calm hcalm]
    exact ⟨fun err herr => (by cases herr), fun _ => ⟨msg, rfl, hmsg⟩⟩

theorem inStep_create_iff (s : Store) (book : BookRequestBody) (jwt : JwtUser) (env : Nat → BookEnv) :
    InStep s (process s (.create book jwt) env) ↔
      (Commits s env (.create book jwt) → CalmAfterCommit env (.create book jwt)) := by
  by_cases hcommits : Commits s env (.create book jwt)
  · obtain ⟨hadmin, hcommit, hroom⟩ := hcommits
    have hrows : (s.withNew book hroom).books.rows ≠ s.books.rows := by
      simp [Store.withNew, Table.insert]
    rw [process_create_committed hadmin hcommit hroom]
    cases hrefresh : (env 1).databaseRaises with
    | true =>
        refine ⟨fun h => absurd (h.error_keeps .database rfl) hrows, fun h => ?_⟩
        have hcalm := (h ⟨hadmin, hcommit, hroom⟩).1
        rw [hrefresh] at hcalm
        cases hcalm
    | false =>
        have hmsg : Announced s (s.withNew book hroom) (announcement "book.created" (newBook s book)) :=
          .inl ⟨newBook s book, rfl, rfl⟩
        simp only [Bool.false_eq_true, if_false]
        rw [inStep_publish_iff _ _ hrows hmsg]
        exact ⟨fun h _ => ⟨hrefresh, h⟩, fun h => (h ⟨hadmin, hcommit, hroom⟩).2⟩
  · have hkeeps : InStep s (process s (.create book jwt) env) := by
      cases hadmin : isAdmin jwt with
      | false =>
          rw [process_create_unauthorized hadmin]
          exact .of_rows_eq rfl
      | true =>
          have huncommitted : (env 0).databaseRaises = true ∨ ¬ s.books.nextId < 2 ^ 31 := by
            by_contra h
            simp only [not_or, Bool.not_eq_true, not_not] at h
            exact hcommits ⟨hadmin, h⟩
          rw [process_create_uncommitted hadmin huncommitted]
          exact .of_rows_eq rfl
    exact ⟨fun _ h => absurd h hcommits, fun _ => hkeeps⟩

theorem inStep_delete_iff (s : Store) (bookId : Int) (jwt : JwtUser) (env : Nat → BookEnv) :
    InStep s (process s (.delete bookId jwt) env) ↔
      (Commits s env (.delete bookId jwt) → CalmAfterCommit env (.delete bookId jwt)) := by
  rw [process_delete]
  by_cases hcommits : Commits s env (.delete bookId jwt)
  · obtain ⟨hadmin, hget, hcommit, book, hbook, rfl, hlive⟩ := hcommits
    have hmsg : Announced s ⟨s.books.modify book.id Book.delete Book.id_delete, s.published⟩
        (announcement "book.deleted" book.delete) := .inr ⟨book, hbook, hlive, rfl, rfl⟩
    simp only [hadmin, Bool.true_eq_false, if_false, exec_get_of_mem hbook hget, hcommit,
      Bool.false_eq_true]
    rw [inStep_publish_iff _ _ (modify_deleted_ne hbook hlive) hmsg]
    exact ⟨fun h _ => h, fun h => h ⟨hadmin, hget, hcommit, book, hbook, rfl, hlive⟩⟩
  · have hkeeps : InStep s (process s (.delete bookId jwt) env) := by
      rw [process_delete]
      split
      · exact .of_rows_eq rfl
      · rename_i hadmin
        split
        · exact .of_rows_eq rfl
        · exact .of_rows_eq rfl
        · rename_i item hanswer
          obtain ⟨hitem, hid, hget⟩ := exec_get_some hanswer
          split
          · exact .of_rows_eq rfl
          · rename_i hcommit
            -- what is deleted a second time is not committed again
            refine .of_rows_eq (modify_deleted_eq hitem ?_)
            by_contra hlive
            exact hcommits ⟨by simpa using hadmin, hget, by simpa using hcommit, item, hitem, hid,
              by simpa using hlive⟩
    rw [process_delete] at hkeeps
    exact ⟨fun _ h => absurd h hcommits, fun _ => hkeeps⟩

/-- **A request keeps the table and the event stream in step exactly when no call raises after its
commit.** -/
theorem inStep_iff (s : Store) (request : BookRequest) (env : Nat → BookEnv) :
    InStep s (process s request env) ↔ (Commits s env request → CalmAfterCommit env request) := by
  cases request with
  | create book jwt => exact inStep_create_iff s book jwt env
  | delete bookId jwt => exact inStep_delete_iff s bookId jwt env

/-! ### Whole runs -/

/-- What a consumer that starts from nothing makes of one event: the bodies of the live books. -/
def replayOne (live : List Json) (msg : Message) : List Json :=
  match msg.body with
  | none => live
  | some body =>
      if msg.routingKey = "book.created" then live ++ [body]
      else if msg.routingKey = "book.deleted" then
        live.filter fun dto => (dto.field? "id").bind Json.int? != (body.field? "id").bind Json.int?
      else live

def replay (published : List Message) : List Json := published.foldl replayOne []

/-- The bodies of the books that are not deleted. -/
def liveBooks (s : Store) : List Json := (getAllBooks s).map BookDto.modelDumpJson

@[simp] theorem field?_modelDumpJson_id (dto : BookDto) :
    (dto.modelDumpJson.field? "id").bind Json.int? = some (dto.id : Int) := by
  simp [BookDto.modelDumpJson, Json.field?, Json.int?]

theorem replay_created (published : List Message) (book : Book) :
    replay (published ++ [announcement "book.created" book]) =
      replay published ++ [(BookDto.modelValidate book).modelDumpJson] := by
  rw [replay, List.foldl_append]
  rfl

theorem replay_deleted (published : List Message) (book : Book) :
    replay (published ++ [announcement "book.deleted" book]) =
      (replay published).filter fun dto => (dto.field? "id").bind Json.int? != some (book.id : Int) := by
  have hid := field?_modelDumpJson_id (BookDto.modelValidate book)
  rw [replay, List.foldl_append]
  show List.filter _ _ = List.filter _ _
  rw [hid]
  rfl

theorem liveBooks_created {s s' : Store} {book : Book} (hlive : book.isDeleted = false)
    (h : s'.books.rows = s.books.rows ++ [book]) :
    liveBooks s' = liveBooks s ++ [(BookDto.modelValidate book).modelDumpJson] := by
  simp [liveBooks, getAllBooks, h, hlive]

theorem liveBooks_deleted {s s' : Store} {id : Nat}
    (h : s'.books = s.books.modify id Book.delete Book.id_delete) :
    liveBooks s' =
      (liveBooks s).filter fun dto => (dto.field? "id").bind Json.int? != some (id : Int) := by
  have hrows : ∀ rows : List Book,
      (rows.map fun row => if row.id = id then row.delete else row).filter
          (fun book => book.isDeleted == false) =
        (rows.filter fun book => book.isDeleted == false).filter fun book => book.id != id := by
    intro rows
    induction rows with
    | nil => rfl
    | cons row rest ih =>
        by_cases hid : row.id = id <;> cases hdeleted : row.isDeleted <;>
          simpa [hid, hdeleted, Book.delete] using ih
  simp only [liveBooks, getAllBooks, h, Table.modify, hrows, List.filter_map, List.map_map]
  congr 1
  apply List.filter_congr
  intro book _
  simp only [Function.comp_apply, field?_modelDumpJson_id, BookDto.modelValidate]
  rw [Bool.eq_iff_iff, bne_iff_ne, bne_iff_ne, ne_eq, ne_eq, Option.some_inj, Int.ofNat_inj]

/-- What a request does to the two when no call raises after its commit. -/
theorem process_cases {s : Store} {request : BookRequest} {env : Nat → BookEnv}
    (h : Commits s env request → CalmAfterCommit env request) :
    ((process s request env).2.books.rows = s.books.rows ∧
        (process s request env).2.published = s.published) ∨
      (∃ book, book.isDeleted = false ∧
        (process s request env).2.books.rows = s.books.rows ++ [book] ∧
        (process s request env).2.published = s.published ++ [announcement "book.created" book]) ∨
      ∃ book ∈ s.books.rows,
        (process s request env).2.books = s.books.modify book.id Book.delete Book.id_delete ∧
        (process s request env).2.published =
          s.published ++ [announcement "book.deleted" book.delete] := by
  cases request with
  | create book jwt =>
      cases hadmin : isAdmin jwt with
      | false => exact .inl (by rw [process_create_unauthorized hadmin]; exact ⟨rfl, rfl⟩)
      | true =>
          by_cases hcommit : (env 0).databaseRaises = false ∧ s.books.nextId < 2 ^ 31
          · obtain ⟨hrefresh, hcalm⟩ := h ⟨hadmin, hcommit⟩
            right
            left
            rw [process_create_committed hadmin hcommit.1 hcommit.2, hrefresh,
              publishMessage_calm hcalm]
            exact ⟨newBook s book, rfl, rfl, rfl⟩
          · left
            rw [process_create_uncommitted hadmin]
            · exact ⟨rfl, rfl⟩
            · rw [not_and_or, Bool.not_eq_false] at hcommit
              exact hcommit
  | delete bookId jwt =>
      rw [process_delete]
      split
      · exact .inl ⟨rfl, rfl⟩
      · rename_i hadmin
        split
        · exact .inl ⟨rfl, rfl⟩
        · exact .inl ⟨rfl, rfl⟩
        · rename_i item hanswer
          obtain ⟨hitem, hid, hget⟩ := exec_get_some hanswer
          split
          · exact .inl ⟨rfl, rfl⟩
          · rename_i hcommit
            cases hlive : item.isDeleted with
            | false =>
                have hcalm := h ⟨by simpa using hadmin, hget, by simpa using hcommit, item, hitem, hid,
                  hlive⟩
                rw [publishMessage_calm hcalm]
                exact .inr (.inr ⟨item, hitem, rfl, rfl⟩)
            | true =>
                rcases publishMessage_messages (env 2).brokerRaises
                  (announcement "book.deleted" item.delete) with hnone | hout
                · refine .inl ⟨modify_deleted_eq hitem hlive, ?_⟩
                  show s.published ++ _ = s.published
                  rw [hnone, List.append_nil]
                · refine .inr (.inr ⟨item, hitem, rfl, ?_⟩)
                  show s.published ++ _ = _
                  rw [hout]

/-- Replaying the events gives the live books. -/
def Replayed (s : Store) : Prop := replay s.published = liveBooks s

theorem replayed_process {s : Store} {request : BookRequest} {env : Nat → BookEnv}
    (hreplay : Replayed s) (h : Commits s env request → CalmAfterCommit env request) :
    Replayed (process s request env).2 := by
  unfold Replayed at hreplay ⊢
  rcases process_cases h with ⟨hrows, hpublished⟩ | ⟨book, hlive, hrows, hpublished⟩ |
    ⟨book, -, hbooks, hpublished⟩
  · rw [hpublished, hreplay]
    simp only [liveBooks, getAllBooks, hrows]
  · rw [hpublished, replay_created, hreplay, liveBooks_created hlive hrows]
  · rw [hpublished, replay_deleted, hreplay, liveBooks_deleted hbooks]
    rfl

/-- A book service that has never had a book. -/
def newStore : Store := ⟨Table.empty, []⟩

/-- If the request commits a change, no call of it raises afterwards. -/
def KeepsInStep (s : Store) (label : BookRequest × (Nat → BookEnv)) : Prop :=
  Commits s label.2 label.1 → CalmAfterCommit label.2 label.1

theorem replayed_of_meets {labels : List (BookRequest × (Nat → BookEnv))} {s : Store}
    (hrun : sequential.run newStore labels = some s)
    (hkeeps : sequential.Meets KeepsInStep newStore labels) : Replayed s := by
  refine Machine.invariant_of_meets (fun mid label s' hmid hlabel hstep => ?_)
    (rfl : Replayed newStore) hkeeps hrun
  cases hstep
  exact replayed_process hmid hlabel

/-- A request keeps the table and the stream in step exactly when nothing raises after its commit, and
after requests that all do, replaying the stream gives the live books. -/
theorem table_and_stream_in_step (s : Store) (label : BookRequest × (Nat → BookEnv)) :
    (InStep s (process s label.1 label.2) ↔ KeepsInStep s label) ∧
      ∀ labels, sequential.run newStore labels = some s →
        sequential.Meets KeepsInStep newStore labels → Replayed s := by
  refine ⟨inStep_iff s label.1 label.2, fun labels hrun hkeeps => ?_⟩
  exact replayed_of_meets hrun hkeeps

/-- A request in which nothing fails. -/
def createEmma : BookRequest × (Nat → BookEnv) := (.create emma admin, fun _ => .calm)

theorem table_and_stream_in_step_emma :
    ∃ s, sequential.run newStore [createEmma] = some s ∧
      InStep s (process s (.delete 1 admin) fun _ => .calm) ∧ Replayed s := by
  have hcreate : KeepsInStep newStore createEmma := fun _ => ⟨rfl, fun _ => rfl⟩
  obtain ⟨hstep, hruns⟩ := table_and_stream_in_step (process newStore createEmma.1 createEmma.2).2
    (.delete 1 admin, fun _ => .calm)
  refine ⟨_, rfl, hstep.mpr fun _ _ => rfl, ?_⟩
  exact hruns [createEmma] rfl ⟨hcreate, fun _ _ => trivial⟩

/-- The broker refuses the publish of a create, after the commit. -/
def publishRefused : BookRequest × (Nat → BookEnv) :=
  (.create emma admin, fun _ => ⟨false, fun call => call == .basicPublish⟩)

theorem not_always_in_step : ¬ ∀ labels s, sequential.run newStore labels = some s →
    (∀ request env, InStep s (process s request env)) ∧ Replayed s := by
  intro h
  have hreplay := (h [publishRefused] _ rfl).2
  exact absurd (congrArg List.length hreplay) (by decide)

end BookHub.BookService
