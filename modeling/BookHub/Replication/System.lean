import BookHub.BookService.Announced
import BookHub.ReviewService.Books

/-!
# The replication of books

The book service, the queue between the services, and the two goroutines of the review service that
write its `books` collection: the consumer of the book events and the sync. The four run interleaved:
the consumer's start-up is cut at its calls of the broker, its loop at the deliveries, and the sync
between the fetch of the snapshot and the bulk.

A message that is published in a step reaches the queue in that step, if the queue is bound to its key.
What is kept of the past is the list of the deliveries that were handled; no step reads it.
-/

namespace BookHub.Replication

open BookService (BookPool BookMove BooksTable announcement)
open ReviewService

/-- Where `StartBookConsumer` stands. -/
inductive ConsumerPhase where
  | connecting
  | bindingCreated
  | bindingDeleted
  | registering
  | consuming
  deriving DecidableEq, Repr

/-- Where `StartBookSync` stands. -/
inductive SyncPhase where
  | fetching
  | fetched (items : List BookIn)
  | done (result : BulkResult)
  deriving DecidableEq, Repr

structure System where
  books : BookPool
  queue : Option BookQueue
  consumer : ConsumerPhase
  replica : BooksCollection
  sync : SyncPhase
  handled : List Message

/-- A step of the book service, of the consumer, or of the sync. `fails` says that the call of the step
fails; of the consumer's loop, that the database does. -/
inductive SystemMove where
  | book (move : BookMove)
  | consumer (fails : Bool)
  | fetch (fails : Bool)
  | save (env : BulkEnv)

namespace System

/-- What the consumer's loop does with one delivery. -/
def deliver (replica : BooksCollection) (msg : Message) (raises : Bool) : BooksCollection :=
  if msg.routingKey = "book.created" then handleBookCreated replica msg raises
  else if msg.routingKey = "book.deleted" then handleBookDeleted replica msg raises
  else replica

def consumerStep (s : System) (fails : Bool) : Option System :=
  match s.consumer with
  | .connecting =>
      -- the queue is exclusive, so it cannot be declared again while an earlier connection is open
      if fails || s.queue.isSome then some s
      else some { s with queue := some .empty, consumer := .bindingCreated }
  | .bindingCreated =>
      -- a failed bind goes on to the next key, and then to `Consume`
      let queue := if fails then s.queue else s.queue.map (·.bind "book.created")
      some { s with queue, consumer := .bindingDeleted }
  | .bindingDeleted =>
      let queue := if fails then s.queue else s.queue.map (·.bind "book.deleted")
      some { s with queue, consumer := .registering }
  | .registering => some { s with consumer := if fails then .connecting else .consuming }
  | .consuming =>
      match s.queue with
      | some ⟨bindings, msg :: rest⟩ =>
          some { s with
            queue := some ⟨bindings, rest⟩
            replica := deliver s.replica msg fails
            handled := s.handled ++ [msg] }
      | _ => none

/-- The body of the snapshot response. -/
def snapshotBody (books : BooksTable) : Json :=
  .arr ((BookService.internalGetBooksSnapshot ⟨books, []⟩).map BookService.BookDto.modelDumpJson)

def fetchStep (s : System) (fails : Bool) : Option System :=
  match s.sync with
  | .fetching =>
      let response := if fails then none else getBooksSnapshot (some (snapshotBody s.books.store.books))
      match response with
      | none => some s
      | some items => some { s with sync := .fetched items }
  | _ => none

def saveStep (s : System) (env : BulkEnv) : Option System :=
  match s.sync with
  | .fetched items =>
      if env.Unordered items then
        match saveBooksSnapshot s.replica items env with
        | (none, replica) => some { s with replica, sync := .fetching }
        | (some result, replica) => some { s with replica, sync := .done result }
      else none
  | _ => none

/-- What was published in a step is delivered to the queue in that step. -/
def bookStep (s : System) (move : BookMove) : Option System :=
  (BookService.service.machine.step s.books move).map fun books =>
    let published := books.store.published.drop s.books.store.published.length
    { s with books, queue := s.queue.map (·.receive published) }

def machine : Machine System SystemMove where
  step
    | s, .book move => s.bookStep move
    | s, .consumer fails => s.consumerStep fails
    | s, .fetch fails => s.fetchStep fails
    | s, .save env => s.saveStep env

/-- The review service starts up next to a book service without a request in progress. -/
def start (books : BooksTable) (replica : BooksCollection) : System :=
  ⟨Service.start ⟨books, []⟩, none, .connecting, replica, .fetching, []⟩

def published (s : System) : List Message := s.books.store.published

def pending (s : System) : List Message := (s.queue.map (·.messages)).getD []

/-- The snapshot that the sync has fetched and not applied yet. -/
def held (s : System) : List BookIn :=
  match s.sync with
  | .fetched items => items
  | _ => []

end System

/-! ### What is sent is what is decoded -/

theorem decodeField_id (book : BookIn) {id : Nat} (h : id < 2 ^ 63) :
    book.decodeField ("id", .int id) = some { book with id } := by
  have hrange : -2 ^ 63 ≤ (id : Int) ∧ (id : Int) < 2 ^ 63 := by omega
  have hid : decodeInt (.int id) = some (id : Int) := by
    rw [decodeInt, if_pos hrange]
  simp only [BookIn.decodeField, if_true, hid, Option.map_some]

theorem decodeField_title (book : BookIn) (title : String) :
    book.decodeField ("title", .str title) = some { book with title } := by
  have hid : foldName "title" ≠ foldName "id" := by decide
  simp only [BookIn.decodeField, hid, if_true, if_false, decodeString, Option.map_some]

theorem decodeField_author (book : BookIn) (author : String) :
    book.decodeField ("author", .str author) = some { book with author } := by
  have hid : foldName "author" ≠ foldName "id" := by decide
  have htitle : foldName "author" ≠ foldName "title" := by decide
  simp only [BookIn.decodeField, hid, htitle, if_true, if_false, decodeString, Option.map_some]

theorem decodeField_isDeleted (book : BookIn) (isDeleted : Bool) :
    book.decodeField ("isDeleted", .bool isDeleted) = some { book with isDeleted } := by
  have hid : foldName "isDeleted" ≠ foldName "id" := by decide
  have htitle : foldName "isDeleted" ≠ foldName "title" := by decide
  have hauthor : foldName "isDeleted" ≠ foldName "author" := by decide
  simp only [BookIn.decodeField, hid, htitle, hauthor, if_true, if_false, decodeBool, Option.map_some]

theorem decode_modelDumpJson (dto : BookService.BookDto) (h : dto.id < 2 ^ 63) :
    BookIn.decode dto.modelDumpJson = some ⟨dto.id, dto.title, dto.author, dto.isDeleted⟩ := by
  simp only [BookIn.decode, BookService.BookDto.modelDumpJson, List.foldlM_cons, List.foldlM_nil,
    decodeField_id _ h, decodeField_title, decodeField_author, decodeField_isDeleted,
    Option.bind_eq_bind, Option.bind_some, Option.pure_def]

theorem unmarshal_announcement {row : BookService.Book} (h : row.id < 2 ^ 63) (key : String) :
    unmarshal (announcement key row) = some ⟨row.id, .str "43"⟩ := by
  have hdecode := decode_modelDumpJson (BookService.BookDto.modelValidate row) h
  rw [unmarshal, announcement, Option.bind_some, hdecode, Option.map_some]
  rfl

theorem row_lt {books : BooksTable} {row : BookService.Book} (h : row ∈ books.rows) :
    row.id < 2 ^ 63 := by
  have hfresh := books.fresh row h
  have hbound := books.bounded
  omega

def bookIn (row : BookService.Book) : BookIn := ⟨row.id, row.title, row.author, row.isDeleted⟩

theorem getBooksSnapshot_snapshotBody (books : BooksTable) :
    getBooksSnapshot (some (System.snapshotBody books)) = some (books.rows.map bookIn) := by
  have hrows : ∀ rows : List BookService.Book, (∀ row ∈ rows, row.id < 2 ^ 63) →
      (rows.map fun row => (BookService.BookDto.modelValidate row).modelDumpJson).mapM BookIn.decode =
        some (rows.map bookIn) := by
    intro rows hlt
    induction rows with
    | nil => rfl
    | cons row rest ih =>
        have hrow : BookIn.decode (BookService.BookDto.modelValidate row).modelDumpJson =
            some (bookIn row) := decode_modelDumpJson _ (hlt row List.mem_cons_self)
        rw [List.map_cons, List.mapM_cons, hrow, ih fun other h => hlt other (List.mem_cons_of_mem _ h)]
        rfl
  simp only [getBooksSnapshot, System.snapshotBody, BookService.internalGetBooksSnapshot, List.map_map]
  exact hrows books.rows fun row hrow => row_lt hrow

/-! ### One step, by the one who moves -/

namespace System

theorem bookStep_some {s s' : System} {move : BookMove} (h : s.bookStep move = some s') :
    ∃ books new, BookService.service.machine.step s.books move = some books ∧
      books.store.published = s.published ++ new ∧
      s' = { s with books, queue := s.queue.map (·.receive new) } := by
  obtain ⟨books, hstep, rfl⟩ := Option.map_eq_some_iff.mp h
  obtain ⟨new, hnew⟩ := BookService.published_step hstep
  refine ⟨books, new, hstep, hnew, ?_⟩
  simp only [hnew, List.drop_left]

/-- A step of the consumer delivers the first message of the queue, or leaves the replica and the
messages as they are. -/
theorem consumerStep_some {s s' : System} {fails : Bool} (h : s.consumerStep fails = some s') :
    (∃ msg, s.consumer = .consuming ∧ s.pending = msg :: s'.pending ∧
        s' = { s with
          queue := s'.queue, replica := deliver s.replica msg fails, handled := s.handled ++ [msg] }) ∨
      (s'.pending = s.pending ∧ s' = { s with queue := s'.queue, consumer := s'.consumer }) := by
  unfold consumerStep at h
  split at h
  · right
    split at h
    · cases h
      exact ⟨rfl, rfl⟩
    · rename_i hfree
      cases h
      have hnone : s.queue = none := by
        rw [Bool.or_eq_true, not_or, Option.not_isSome_iff_eq_none] at hfree
        exact hfree.2
      exact ⟨by simp [pending, hnone, BookQueue.empty], rfl⟩
  · right
    cases h
    refine ⟨?_, rfl⟩
    simp only [pending]
    cases s.queue <;> cases fails <;> rfl
  · right
    cases h
    refine ⟨?_, rfl⟩
    simp only [pending]
    cases s.queue <;> cases fails <;> rfl
  · right
    cases h
    exact ⟨rfl, rfl⟩
  · rename_i hconsuming
    split at h
    · rename_i bindings msg rest hqueue
      cases h
      left
      exact ⟨msg, hconsuming, by simp [pending, hqueue], rfl⟩
    · cases h

/-- A fetch reads the table as it is. -/
theorem fetchStep_some {s s' : System} {fails : Bool} (h : s.fetchStep fails = some s') :
    s.sync = .fetching ∧
      (s' = s ∨ s' = { s with sync := .fetched (s.books.store.books.rows.map bookIn) }) := by
  unfold fetchStep at h
  split at h
  · rename_i hsync
    refine ⟨hsync, ?_⟩
    rw [getBooksSnapshot_snapshotBody] at h
    cases fails with
    | true =>
        cases h
        exact .inl rfl
    | false =>
        cases h
        exact .inr rfl
  · cases h

theorem saveStep_some {s s' : System} {env : BulkEnv} (h : s.saveStep env = some s') :
    ∃ items sync, s.sync = .fetched items ∧ env.Unordered items ∧
      s' = { s with replica := env.executed.foldl WriteModel.execute s.replica, sync } ∧
      (sync = .fetching ∨ ∃ result, sync = .done result) := by
  unfold saveStep at h
  split at h
  · rename_i items hsync
    obtain ⟨henv, h⟩ := Option.ite_none_right_eq_some.mp h
    have hreplica := saveBooksSnapshot_snd henv s.replica
    cases hsave : saveBooksSnapshot s.replica items env with
    | mk outcome replica =>
        rw [hsave] at h hreplica
        cases hreplica
        cases outcome with
        | none =>
            cases h
            exact ⟨items, .fetching, hsync, henv, rfl, .inl rfl⟩
        | some result =>
            cases h
            exact ⟨items, .done result, hsync, henv, rfl, .inr ⟨result, rfl⟩⟩
  · cases h

/-! ### What the queue carries -/

/-- The events are those of the book service, and the consumer gets a part of them in their order. -/
structure DeliveryInv (s : System) : Prop where
  events : BookService.EventInv s.books
  delivered : (s.handled ++ s.pending).Sublist s.published

theorem deliveryInv_start (books : BooksTable) (replica : BooksCollection) :
    DeliveryInv (start books replica) where
  events := BookService.eventInv_start books
  delivered := List.nil_sublist _

theorem pending_receive (queue : Option BookQueue) (new : List Message) :
    ∃ received, received.Sublist new ∧ ((queue.map (·.receive new)).map (·.messages)).getD [] =
      (queue.map (·.messages)).getD [] ++ received := by
  cases queue with
  | none => exact ⟨[], List.nil_sublist _, rfl⟩
  | some queue => exact ⟨_, List.filter_sublist, rfl⟩

theorem deliveryInv_step (s : System) (move : SystemMove) (s' : System) (h : DeliveryInv s)
    (hstep : machine.step s move = some s') : DeliveryInv s' := by
  cases move with
  | book move =>
      obtain ⟨books, new, hbooks, hnew, rfl⟩ := bookStep_some hstep
      refine ⟨BookService.eventInv_step s.books move books h.events hbooks, ?_⟩
      obtain ⟨received, hreceived, hpending⟩ := pending_receive s.queue new
      simp only [pending, published, hpending, hnew]
      rw [← List.append_assoc]
      exact h.delivered.append hreceived
  | consumer fails =>
      obtain ⟨msg, -, hpending, hs'⟩ | ⟨hpending, hs'⟩ := consumerStep_some hstep
      · have hdelivered := h.delivered
        rw [hs']
        refine ⟨h.events, ?_⟩
        rw [hpending] at hdelivered
        have hhandled : s.handled ++ [msg] ++ s'.pending = s.handled ++ msg :: s'.pending := by simp
        show (s.handled ++ [msg] ++ s'.pending).Sublist s.published
        rw [hhandled]
        exact hdelivered
      · have hdelivered := h.delivered
        rw [← hpending] at hdelivered
        rw [hs']
        exact ⟨h.events, hdelivered⟩
  | fetch fails =>
      obtain ⟨-, rfl | rfl⟩ := fetchStep_some hstep
      · exact h
      · exact ⟨h.events, h.delivered⟩
  | save env =>
      obtain ⟨items, sync, -, -, rfl, -⟩ := saveStep_some hstep
      exact ⟨h.events, h.delivered⟩

/-- What the queue delivers announces a row of the table. -/
theorem DeliveryInv.announces {s : System} (h : DeliveryInv s) {msg : Message}
    (hmsg : msg ∈ s.handled ∨ msg ∈ s.pending) : ∃ key row, msg = announcement key row ∧
      row.id < 2 ^ 63 ∧ (key = "book.deleted" → BookService.HasDeletedRow s.books.store row.id) := by
  obtain ⟨key, row, hmsgEq, ⟨found, hfound, hid⟩, hdeleted⟩ :=
    h.events.announced msg (h.delivered.subset (List.mem_append.mpr hmsg))
  exact ⟨key, row, hmsgEq, hid ▸ row_lt hfound, hdeleted⟩

end System

end BookHub.Replication
