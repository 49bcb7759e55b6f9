import BookHub.Base.Machine
import BookHub.ReviewService.Books

/-!
# The two writers of the books collection

An event writes the string `"43"` as the timestamp of a document, a sync writes a date. The filter of
`HandleBookDeleted` is the whole document that an event would have written, so it finds what an event
wrote and never what a sync wrote: `handleBookDeleted_agrees_iff`.
-/

namespace BookHub.ReviewService

/-- One write of the collection. -/
inductive BooksWrite where
  | created (msg : Message) (raises : Bool)
  | deleted (msg : Message) (raises : Bool)
  | synced (items : List BookIn) (env : BulkEnv)
  deriving Repr

/-- The collection under its writers, in any order. -/
def writers : Machine BooksCollection BooksWrite where
  step
    | books, .created msg raises => some (handleBookCreated books msg raises)
    | books, .deleted msg raises => some (handleBookDeleted books msg raises)
    | books, .synced items env =>
        if env.Unordered items then some (saveBooksSnapshot books items env).2 else none

def BookDoc.BySync (doc : BookDoc) : Prop := ∃ millis, doc.timestamp = .date millis

def BookDoc.ByEvent (doc : BookDoc) : Prop := doc.timestamp = .str "43"

/-- The delete has removed the document of the book, and touched no other. -/
structure DeleteAgrees (bookId : Int) (before after : BooksCollection) : Prop where
  removed : ∀ doc ∈ after.docs, doc.bookId ≠ bookId
  others : ∀ doc, doc.bookId ≠ bookId → (doc ∈ after.docs ↔ doc ∈ before.docs)

/-! ### Every document has one of the two shapes -/

def Stamped (books : BooksCollection) : Prop := ∀ doc ∈ books.docs, doc.ByEvent ∨ doc.BySync

theorem stamped_upsertOne {books : BooksCollection} (h : Stamped books) {doc : BookDoc}
    (hdoc : doc.ByEvent ∨ doc.BySync) : Stamped (books.upsertOne doc) := by
  intro found hfound
  rw [Collection.mem_docs_iff, Collection.find?_upsertOne] at hfound
  split at hfound
  · cases hold : books.find? found.bookId with
    | none =>
        rw [hold] at hfound
        cases hfound
        exact hdoc
    | some old =>
        rw [hold] at hfound
        cases hfound
        exact h old (Collection.find?_eq_some.mp hold).1
  · exact h found (Collection.mem_docs_iff.mpr hfound)

theorem stamped_deleteOne {books : BooksCollection} (h : Stamped books) (filter : BookDoc → Bool) :
    Stamped (books.deleteOne filter) :=
  fun doc hdoc => h doc (List.mem_of_mem_eraseP hdoc)

theorem stamped_execute {books : BooksCollection} (h : Stamped books) {items : List BookIn}
    {env : BulkEnv} (henv : env.Unordered items) {model : WriteModel}
    (hmodel : model ∈ env.executed) : Stamped (model.execute books) := by
  obtain ⟨item, -, -, rfl⟩ := henv.item_of_mem hmodel
  split
  · exact stamped_deleteOne h _
  · exact stamped_upsertOne h (.inr ⟨env.currentTime, rfl⟩)

theorem stamped_step (books : BooksCollection) (write : BooksWrite) (books' : BooksCollection)
    (h : Stamped books) (hstep : writers.step books write = some books') : Stamped books' := by
  cases write with
  | created msg raises =>
      cases hstep
      unfold handleBookCreated
      split
      · exact h
      · rename_i book hbook
        split
        · exact h
        · obtain ⟨bookin, -, rfl⟩ := Option.map_eq_some_iff.mp hbook
          have hevent : BookDoc.ByEvent ⟨bookin.id, .str "43"⟩ := rfl
          have hinserted := stamped_upsertOne h (.inl hevent)
          unfold Collection.upsertOne at hinserted
          split
          · exact h
          · rename_i inserted hinsert
            rwa [hinsert] at hinserted
  | deleted msg raises =>
      cases hstep
      unfold handleBookDeleted
      split
      · exact h
      · split
        · exact h
        · exact stamped_deleteOne h _
  | synced items env =>
      obtain ⟨henv, heq⟩ := Option.ite_none_right_eq_some.mp hstep
      cases heq
      rw [saveBooksSnapshot_snd henv]
      exact List.foldlRecOn env.executed _ h fun mid hmid model hmodel =>
        stamped_execute hmid henv hmodel

/-! ### What a delete event finds -/

theorem unmarshal_timestamp {msg : Message} {book : BookDoc} (h : unmarshal msg = some book) :
    book.timestamp = .str "43" := by
  obtain ⟨bookin, -, rfl⟩ := Option.map_eq_some_iff.mp h
  rfl

/-- In every reachable collection, a decodable delete event that meets no database error removes its
book exactly when the document of the book was not written by a sync; the others it never touches. -/
theorem handleBookDeleted_agrees_iff {writes : List BooksWrite} {books : BooksCollection}
    (hrun : writers.run .empty writes = some books) {msg : Message} {book : BookDoc}
    (hmsg : unmarshal msg = some book) :
    DeleteAgrees book.bookId books (handleBookDeleted books msg false) ↔
      ∀ doc ∈ books.docs, doc.bookId = book.bookId → ¬ doc.BySync := by
  have hstamped : Stamped books :=
    Machine.invariant stamped_step (by simp [Stamped, Collection.empty]) hrun
  have hfound : ∀ doc, doc ∈ (handleBookDeleted books msg false).docs ↔
      doc ∈ books.docs ∧ doc ≠ book := by
    intro doc
    rw [Collection.mem_docs_iff, find?_handleBookDeleted hmsg, Option.filter_eq_some_iff,
      ← Collection.mem_docs_iff, bne_iff_ne]
  constructor
  · rintro ⟨hremoved, -⟩ doc hdoc hid ⟨millis, hsync⟩
    have hne : doc ≠ book := by
      rintro rfl
      rw [unmarshal_timestamp hmsg] at hsync
      cases hsync
    exact hremoved doc ((hfound doc).mpr ⟨hdoc, hne⟩) hid
  · intro h
    refine ⟨fun doc hdoc hid => ?_, fun doc hid => ?_⟩
    · obtain ⟨hold, hne⟩ := (hfound doc).mp hdoc
      obtain hevent | hsync := hstamped doc hold
      · apply hne
        obtain ⟨bookId, timestamp⟩ := doc
        obtain ⟨bookId', timestamp'⟩ := book
        have htimestamp : timestamp' = .str "43" := unmarshal_timestamp hmsg
        cases hid
        rw [htimestamp]
        exact congrArg _ hevent
      · exact h doc hold hid hsync
    · rw [hfound]
      refine ⟨fun hdoc => hdoc.1, fun hdoc => ⟨hdoc, ?_⟩⟩
      rintro rfl
      exact hid rfl

/-- The event that announces the deletion of book 1. -/
def deleteOfOne : Message :=
  ⟨"book.deleted", some (.obj [("id", .int 1), ("title", .str "Emma"), ("author", .str "Austen"),
    ("isDeleted", .bool true)])⟩

/-- The collection after an event has written book 1 and a sync book 2. -/
def eventThenSync : List BooksWrite :=
  [.created { deleteOfOne with routingKey := "book.created" } false,
    .synced [⟨2, "Ulysses", "Joyce", false⟩] ⟨7, [.updateOne 2 (.date 7)], false⟩]

theorem handleBookDeleted_agrees_eventThenSync :
    ∃ books, writers.run .empty eventThenSync = some books ∧
      DeleteAgrees 1 books (handleBookDeleted books deleteOfOne false) := by
  have hmsg : unmarshal deleteOfOne = some ⟨1, .str "43"⟩ := rfl
  refine ⟨_, rfl, (@handleBookDeleted_agrees_iff eventThenSync _ rfl _ _ hmsg).mpr ?_⟩
  rintro doc hdoc hid ⟨millis, hsync⟩
  obtain rfl | hdoc := List.mem_cons.mp hdoc
  · cases hsync
  · cases List.mem_singleton.mp hdoc
    cases hid

/-- Book 1 comes in with the sync, and its delete event leaves it. -/
theorem not_handleBookDeleted_agrees : ¬ ∀ writes books, writers.run .empty writes = some books →
    ∀ msg book, unmarshal msg = some book →
      DeleteAgrees book.bookId books (handleBookDeleted books msg false) := by
  intro h
  have hagrees := h [.synced [⟨1, "Emma", "Austen", false⟩] ⟨7, [.updateOne 1 (.date 7)], false⟩] _ rfl
    deleteOfOne _ rfl
  exact hagrees.removed ⟨1, .date 7⟩ (List.mem_singleton_self _) rfl

end BookHub.ReviewService
