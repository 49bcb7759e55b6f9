import BookHub.ReviewService.Books

/-!
# The two ways a book is created

A book comes into the collection by an insert that takes a duplicate key for done, or by an upsert
that writes on insert only. Both are the same operation on the set of book ids, `upsertOne` of some
document, so the order of the steps, and which path names a book how often, matters only for the
timestamps of the documents that were not there before.
-/

namespace BookHub.ReviewService

/-- A message that `HandleBookCreated` can decode. -/
structure CreatedEvent where
  msg : Message
  book : BookDoc
  decodes : unmarshal msg = some book

/-- A book of a snapshot that is not deleted. -/
abbrev LiveItem : Type := { item : BookIn // item.isDeleted = false }

/-- One step of a creation path. -/
inductive CreationStep where
  | created (event : CreatedEvent)
  | synced (item : LiveItem) (currentTime : Int)

namespace CreationStep

/-- The book the step is for. -/
def bookId : CreationStep → Int
  | created event => event.book.bookId
  | synced item _ => item.val.id

def execute (books : BooksCollection) : CreationStep → BooksCollection
  | created event => handleBookCreated books event.msg false
  | synced item currentTime =>
      (convertToMongoWriteModel [item.val] currentTime).foldl WriteModel.execute books

/-- The document the step writes when there is none of its book. -/
def document : CreationStep → BookDoc
  | created event => event.book
  | synced item currentTime => ⟨item.val.id, .date currentTime⟩

theorem bookId_document (step : CreationStep) : step.document.bookId = step.bookId := by
  cases step <;> rfl

/-- Either path is an upsert. -/
theorem execute_eq (books : BooksCollection) (step : CreationStep) :
    step.execute books = books.upsertOne step.document := by
  cases step with
  | created event => exact handleBookCreated_of_some event.decodes books
  | synced item currentTime =>
      show (convertToMongoWriteModel [item.val] currentTime).foldl WriteModel.execute books = _
      simp only [convertToMongoWriteModel, List.map_cons, List.map_nil, item.property,
        Bool.false_eq_true, if_false, List.foldl_cons, List.foldl_nil]
      rfl

end CreationStep

theorem mem_keys_foldl_execute (steps : List CreationStep) (books : BooksCollection) (id : Int) :
    id ∈ (steps.foldl CreationStep.execute books).keys ↔
      id ∈ books.keys ∨ ∃ step ∈ steps, step.bookId = id := by
  induction steps generalizing books with
  | nil => simp
  | cons step rest ih =>
      rw [List.foldl_cons, ih, step.execute_eq, Collection.mem_keys_upsertOne, step.bookId_document,
        or_assoc]
      apply or_congr_right
      simp [eq_comm]

theorem mem_foldl_execute (steps : List CreationStep) {books : BooksCollection} {doc : BookDoc}
    (h : doc ∈ books.docs) : doc ∈ (steps.foldl CreationStep.execute books).docs := by
  induction steps generalizing books with
  | nil => exact h
  | cons step rest ih =>
      apply ih
      rw [step.execute_eq]
      exact Collection.mem_upsertOne_of_mem h

/-- The books are those that were there and those that the steps name, each in one document, and the
documents that were there are there unchanged. -/
structure CreatedFrom (books : BooksCollection) (steps : List CreationStep)
    (after : BooksCollection) : Prop where
  keys : ∀ id, id ∈ after.keys ↔ id ∈ books.keys ∨ ∃ step ∈ steps, step.bookId = id
  once : ∀ id ∈ after.keys, (after.docs.filter fun doc => doc.bookId == id).length = 1
  kept : ∀ doc ∈ books.docs, doc ∈ after.docs

/-- The order in which the steps are executed does not matter. -/
theorem creation_confluent (books : BooksCollection) {steps order : List CreationStep}
    (horder : order.Perm steps) :
    CreatedFrom books steps (order.foldl CreationStep.execute books) := by
  refine ⟨fun id => ?_, fun id hid => Collection.length_filter_of_mem_keys hid, fun doc hdoc => ?_⟩
  · rw [mem_keys_foldl_execute]
    apply or_congr_right
    simp only [horder.mem_iff]
  · exact mem_foldl_execute order hdoc

/-- Book 1 on the event path and twice on the sync path. -/
def createOneThrice : List CreationStep :=
  [.created ⟨⟨"book.created", some (.obj [("id", .int 1)])⟩, ⟨1, .str "43"⟩, rfl⟩,
    .synced ⟨⟨1, "Emma", "Austen", false⟩, rfl⟩ 7, .synced ⟨⟨1, "Emma", "Austen", false⟩, rfl⟩ 8]

theorem creation_confluent_createOneThrice :
    CreatedFrom .empty createOneThrice
      (createOneThrice.reverse.foldl CreationStep.execute .empty) :=
  creation_confluent .empty (List.reverse_perm createOneThrice)

end BookHub.ReviewService
