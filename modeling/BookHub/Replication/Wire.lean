import BookHub.Base.JsonText
import BookHub.Base.Utf8
import BookHub.Replication.System

/-!
# The replication in bytes

What the two services exchange is bytes: `model_dump_json` writes the body of an event, the response of
the snapshot is rendered in the same compact form, both in UTF-8, and the review service reads them with
`encoding/json`. The system is stated here once more with the queue and the snapshot in bytes. It runs
step for step like the system on values, whatever the titles and the authors hold.
-/

namespace BookHub.Replication

open BookService (BookPool BookMove BooksTable announcement)
open ReviewService

/-- A message in the queue. -/
structure Delivery where
  routingKey : String
  body : List UInt8
  deriving DecidableEq, Repr

/-- `json.Unmarshal`, up to the fields of a struct. -/
def parseBytes (bytes : List UInt8) : Option Json := Json.read (Utf8.decode bytes)

/-- `model_dump_json`, and the response that renders what it would write. -/
def renderBytes (value : Json) : List UInt8 := Utf8.encode (Json.stringify.write value)

namespace Delivery

/-- `publish_message` -/
def publish (msg : Message) : Delivery := ⟨msg.routingKey, (msg.body.map renderBytes).getD []⟩

def message (delivery : Delivery) : Message := ⟨delivery.routingKey, parseBytes delivery.body⟩

end Delivery

structure ByteQueue where
  bindings : List String
  deliveries : List Delivery

namespace ByteQueue

def empty : ByteQueue := ⟨[], []⟩

def bind (queue : ByteQueue) (key : String) : ByteQueue :=
  { queue with bindings := queue.bindings ++ [key] }

def receive (queue : ByteQueue) (published : List Delivery) : ByteQueue :=
  { queue with
    deliveries := queue.deliveries ++ published.filter fun delivery =>
      delivery.routingKey ∈ queue.bindings }

/-- The queue of the messages that are read from the bytes. -/
def messages (queue : ByteQueue) : BookQueue :=
  ⟨queue.bindings, queue.deliveries.map Delivery.message⟩

end ByteQueue

structure ByteSystem where
  books : BookPool
  queue : Option ByteQueue
  consumer : ConsumerPhase
  replica : BooksCollection
  sync : SyncPhase
  handled : List Delivery

namespace ByteSystem

def consumerStep (s : ByteSystem) (fails : Bool) : Option ByteSystem :=
  match s.consumer with
  | .connecting =>
      if fails || s.queue.isSome then some s
      else some { s with queue := some .empty, consumer := .bindingCreated }
  | .bindingCreated =>
      let queue := if fails then s.queue else s.queue.map (·.bind "book.created")
      some { s with queue, consumer := .bindingDeleted }
  | .bindingDeleted =>
      let queue := if fails then s.queue else s.queue.map (·.bind "book.deleted")
      some { s with queue, consumer := .registering }
  | .registering => some { s with consumer := if fails then .connecting else .consuming }
  | .consuming =>
      match s.queue with
      | some ⟨bindings, delivery :: rest⟩ =>
          some { s with
            queue := some ⟨bindings, rest⟩
            replica := System.deliver s.replica delivery.message fails
            handled := s.handled ++ [delivery] }
      | _ => none

/-- The bytes of the snapshot response. -/
def snapshotBytes (books : BooksTable) : List UInt8 := renderBytes (System.snapshotBody books)

def fetchStep (s : ByteSystem) (fails : Bool) : Option ByteSystem :=
  match s.sync with
  | .fetching =>
      let response :=
        if fails then none else getBooksSnapshot (parseBytes (snapshotBytes s.books.store.books))
      match response with
      | none => some s
      | some items => some { s with sync := .fetched items }
  | _ => none

def saveStep (s : ByteSystem) (env : BulkEnv) : Option ByteSystem :=
  match s.sync with
  | .fetched items =>
      if env.Unordered items then
        match saveBooksSnapshot s.replica items env with
        | (none, replica) => some { s with replica, sync := .fetching }
        | (some result, replica) => some { s with replica, sync := .done result }
      else none
  | _ => none

def bookStep (s : ByteSystem) (move : BookMove) : Option ByteSystem :=
  (BookService.service.machine.step s.books move).map fun books =>
    let published := books.store.published.drop s.books.store.published.length
    { s with books, queue := s.queue.map (·.receive (published.map Delivery.publish)) }

def machine : Machine ByteSystem SystemMove where
  step
    | s, .book move => s.bookStep move
    | s, .consumer fails => s.consumerStep fails
    | s, .fetch fails => s.fetchStep fails
    | s, .save env => s.saveStep env

def start (books : BooksTable) (replica : BooksCollection) : ByteSystem :=
  ⟨Service.start ⟨books, []⟩, none, .connecting, replica, .fetching, []⟩

/-- The system on values that the bytes stand for. -/
def values (s : ByteSystem) : System :=
  ⟨s.books, s.queue.map ByteQueue.messages, s.consumer, s.replica, s.sync,
    s.handled.map Delivery.message⟩

end ByteSystem

/-! ### What is written is read -/

theorem parseBytes_renderBytes {value : Json} (h : value.WellFormed) :
    parseBytes (renderBytes value) = some value := by
  rw [parseBytes, renderBytes, Utf8.decode_encode, Json.read_write _ h]

theorem wellFormed_modelDumpJson (dto : BookService.BookDto) : dto.modelDumpJson.WellFormed :=
  ⟨trivial, trivial, trivial, trivial, trivial⟩

theorem message_publish_announcement (key : String) (row : BookService.Book) :
    (Delivery.publish (announcement key row)).message = announcement key row := by
  have hbody := parseBytes_renderBytes
    (wellFormed_modelDumpJson (BookService.BookDto.modelValidate row))
  rw [Delivery.message, Delivery.publish, announcement, Option.map_some, Option.getD_some, hbody]

theorem wellFormed_snapshotBody (books : BooksTable) : (System.snapshotBody books).WellFormed := by
  have hitems : ∀ dtos : List BookService.BookDto,
      Json.WellFormedItems (dtos.map BookService.BookDto.modelDumpJson) := by
    intro dtos
    induction dtos with
    | nil => trivial
    | cons dto rest ih => exact ⟨wellFormed_modelDumpJson dto, ih⟩
  exact hitems _

/-- The decoder gets the table, row by row. -/
theorem parseBytes_snapshotBytes (books : BooksTable) :
    parseBytes (ByteSystem.snapshotBytes books) = some (System.snapshotBody books) :=
  parseBytes_renderBytes (wellFormed_snapshotBody books)

theorem messages_receive (queue : ByteQueue) {published : List Message}
    (h : ∀ msg ∈ published, (Delivery.publish msg).message = msg) :
    (queue.receive (published.map Delivery.publish)).messages = queue.messages.receive published := by
  have hsame : (published.filter fun msg => msg.routingKey ∈ queue.bindings).map
      (fun msg => (Delivery.publish msg).message) =
      published.filter fun msg => msg.routingKey ∈ queue.bindings := by
    rw [List.map_congr_left fun msg hmsg => h msg (List.mem_filter.mp hmsg).1]
    exact List.map_id' _
  simp only [ByteQueue.messages, ByteQueue.receive, BookQueue.receive, List.map_append, List.filter_map,
    List.map_map]
  exact congrArg (fun new => BookQueue.mk queue.bindings (queue.deliveries.map Delivery.message ++ new))
    hsame

/-! ### Step for step -/

namespace ByteSystem

theorem values_bookStep {s : ByteSystem} (h : BookService.EventInv s.books) (move : BookMove) :
    (s.bookStep move).map values = s.values.bookStep move := by
  have hstep : ∀ books, BookService.service.machine.step s.books move = some books →
      ∀ msg ∈ books.store.published.drop s.books.store.published.length,
        (Delivery.publish msg).message = msg := by
    intro books hbooks msg hmsg
    have hevents := BookService.eventInv_step s.books move books h hbooks
    obtain ⟨key, row, rfl, -, -⟩ := hevents.announced msg (List.mem_of_mem_drop hmsg)
    exact message_publish_announcement key row
  unfold bookStep System.bookStep
  rw [Option.map_map]
  apply Option.map_congr
  intro books hbooks
  have hqueue : (s.queue.map (·.receive ((books.store.published.drop
        s.books.store.published.length).map Delivery.publish))).map ByteQueue.messages =
      (s.queue.map ByteQueue.messages).map (·.receive (books.store.published.drop
        s.books.store.published.length)) := by
    rw [Option.map_map, Option.map_map]
    apply Option.map_congr
    intro queue _
    exact messages_receive queue (hstep books hbooks)
  exact congrArg (fun queue => System.mk books queue s.consumer s.replica s.sync
    (s.handled.map Delivery.message)) hqueue

theorem values_consumerStep (s : ByteSystem) (fails : Bool) :
    (s.consumerStep fails).map values = s.values.consumerStep fails := by
  obtain ⟨books, queue, consumer, replica, sync, handled⟩ := s
  cases consumer with
  | connecting =>
      cases queue with
      | none => cases fails <;> rfl
      | some queue => cases fails <;> rfl
  | bindingCreated =>
      cases queue with
      | none => cases fails <;> rfl
      | some queue => cases fails <;> rfl
  | bindingDeleted =>
      cases queue with
      | none => cases fails <;> rfl
      | some queue => cases fails <;> rfl
  | registering => rfl
  | consuming =>
      match queue with
      | none => rfl
      | some ⟨bindings, []⟩ => rfl
      | some ⟨bindings, delivery :: rest⟩ =>
          simp only [consumerStep, System.consumerStep, values, Option.map_some, ByteQueue.messages,
            List.map_cons, List.map_append, List.map_nil]

theorem values_fetchStep (s : ByteSystem) (fails : Bool) :
    (s.fetchStep fails).map values = s.values.fetchStep fails := by
  obtain ⟨books, queue, consumer, replica, sync, handled⟩ := s
  cases sync with
  | fetching =>
      simp only [fetchStep, System.fetchStep, values, parseBytes_snapshotBytes]
      cases if fails = true then none else getBooksSnapshot (some (System.snapshotBody books.store.books)) with
      | none => rfl
      | some items => rfl
  | fetched items => rfl
  | done result => rfl

theorem values_saveStep (s : ByteSystem) (env : BulkEnv) :
    (s.saveStep env).map values = s.values.saveStep env := by
  obtain ⟨books, queue, consumer, replica, sync, handled⟩ := s
  cases sync with
  | fetching => rfl
  | fetched items =>
      simp only [saveStep, System.saveStep, values]
      by_cases henv : env.Unordered items
      · rw [if_pos henv, if_pos henv]
        cases saveBooksSnapshot replica items env with
        | mk outcome replica =>
            cases outcome with
            | none => rfl
            | some result => rfl
      · rw [if_neg henv, if_neg henv]
        rfl
  | done result => rfl

theorem values_step {s : ByteSystem} (h : System.DeliveryInv s.values) (move : SystemMove) :
    (machine.step s move).map values = System.machine.step s.values move := by
  cases move with
  | book move => exact values_bookStep h.events move
  | consumer fails => exact values_consumerStep s fails
  | fetch fails => exact values_fetchStep s fails
  | save env => exact values_saveStep s env

/-- A run in bytes is the run on values, and what it ends in stands for what that one ends in. -/
theorem values_run (books : BooksTable) (replica : BooksCollection) (moves : List SystemMove) :
    (machine.run (start books replica) moves).map values =
      System.machine.run (System.start books replica) moves :=
  @Machine.run_map _ _ machine _ _ values System.DeliveryInv (fun _ move h => values_step h move)
    System.deliveryInv_step (start books replica) (System.deliveryInv_start books replica) moves

end ByteSystem

end BookHub.Replication
