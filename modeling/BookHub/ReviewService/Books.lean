import BookHub.Base.Collection
import BookHub.Broker
import Mathlib.Algebra.Group.Int.Defs
import Mathlib.Algebra.Group.Nat.Defs
import Mathlib.Data.List.Perm.Subperm

/-!
# The books of the review service

The `books` collection of the review service says which books can be reviewed. It has two writers:
the handlers of the book events, and the sync that runs once at start-up, which turns a snapshot of
the book service into write models and applies them as an unordered bulk.

An unordered bulk may be executed in any order, and one that fails may have executed any part of
itself, so the environment of a bulk names the models that were executed, in their order.
-/

namespace BookHub.ReviewService

/-! ### Decoding -/

/-- A book as it comes in, from an event or a snapshot. -/
structure BookIn where
  id : Int
  title : String
  author : String
  isDeleted : Bool
  deriving DecidableEq, Repr

/-- The decoder matches field names up to case; two letters outside ASCII fold into it. -/
def foldRune (c : Char) : Char :=
  if c = 'ſ' then 's' else if c = '\u212a' then 'k' else c.toLower

def foldName (name : String) : List Char := name.toList.map foldRune

def decodeInt : Json → Option Int
  | .int value => if -2 ^ 63 ≤ value ∧ value < 2 ^ 63 then some value else none
  | _ => none

def decodeString : Json → Option String
  | .str value => some value
  | _ => none

def decodeBool : Json → Option Bool
  | .bool value => some value
  | _ => none

namespace BookIn

def zero : BookIn := ⟨0, "", "", false⟩

/-- Decode one field of an object; `null` leaves the field alone, and an unknown field is skipped. -/
def decodeField (book : BookIn) : String × Json → Option BookIn
  | (_, .null) => some book
  | (name, value) =>
      if foldName name = foldName "id" then
        (decodeInt value).map fun id => { book with id }
      else if foldName name = foldName "title" then
        (decodeString value).map fun title => { book with title }
      else if foldName name = foldName "author" then
        (decodeString value).map fun author => { book with author }
      else if foldName name = foldName "isDeleted" then
        (decodeBool value).map fun isDeleted => { book with isDeleted }
      else some book

def decode : Json → Option BookIn
  | .null => some zero
  | .obj fields => fields.foldlM decodeField zero
  | _ => none

end BookIn

/-! ### Documents and event handlers -/

/-- The `timestamp` of a document: a string in what an event wrote, a date in what a sync wrote. -/
inductive Timestamp where
  | str (value : String)
  | date (millis : Int)
  deriving DecidableEq, Repr

structure BookDoc where
  bookId : Int
  timestamp : Timestamp
  deriving DecidableEq, Repr

/-- The collection, with its unique index on `bookId`. -/
abbrev BooksCollection : Type := Collection BookDoc.bookId

def unmarshal (msg : Message) : Option BookDoc :=
  (msg.body.bind BookIn.decode).map fun bookin => ⟨bookin.id, .str "43"⟩

/-- A duplicate, or a call that raises, is only logged. -/
def handleBookCreated (books : BooksCollection) (msg : Message) (raises : Bool) : BooksCollection :=
  match unmarshal msg with
  | none => books
  | some book =>
      if raises then books else
        match books.insertOne book with
        | none => books
        | some inserted => inserted

/-- The filter of the delete is the whole struct. -/
def handleBookDeleted (books : BooksCollection) (msg : Message) (raises : Bool) : BooksCollection :=
  match unmarshal msg with
  | none => books
  | some book => if raises then books else books.deleteOne fun doc => doc == book

/-! ### The sync -/

inductive WriteModel where
  | deleteOne (bookId : Int)
  | updateOne (bookId : Int) (timestamp : Timestamp)
  deriving DecidableEq, Repr

namespace WriteModel

def bookId : WriteModel → Int
  | deleteOne bookId => bookId
  | updateOne bookId _ => bookId

def execute (books : BooksCollection) : WriteModel → BooksCollection
  | deleteOne bookId => books.deleteOne fun doc => doc.bookId == bookId
  | updateOne bookId timestamp => books.upsertOne ⟨bookId, timestamp⟩

def upserts (books : BooksCollection) : WriteModel → Bool
  | deleteOne _ => false
  | updateOne bookId _ => (books.find? bookId).isNone

def deletes (books : BooksCollection) : WriteModel → Bool
  | deleteOne bookId => (books.find? bookId).isSome
  | updateOne _ _ => false

end WriteModel

def convertToMongoWriteModel (items : List BookIn) (currentTime : Int) : List WriteModel :=
  items.map fun item =>
    if item.isDeleted then .deleteOne item.id else .updateOne item.id (.date currentTime)

structure BulkResult where
  upsertedCount : Nat
  deletedCount : Nat
  deriving DecidableEq, Repr

/-- Execute write models one after the other, and count what they wrote. -/
def bulkWrite (books : BooksCollection) : List WriteModel → BulkResult × BooksCollection
  | [] => (⟨0, 0⟩, books)
  | model :: rest =>
      let (result, after) := bulkWrite (model.execute books) rest
      (⟨result.upsertedCount + (model.upserts books).toNat,
        result.deletedCount + (model.deletes books).toNat⟩, after)

/-- What the environment decides for one bulk. -/
structure BulkEnv where
  currentTime : Int
  executed : List WriteModel
  raises : Bool
  deriving DecidableEq, Repr

/-- A bulk that succeeds has executed all of its models, one that raises any part of them. -/
def BulkEnv.Unordered (env : BulkEnv) (items : List BookIn) : Prop :=
  if env.raises then env.executed.Subperm (convertToMongoWriteModel items env.currentTime)
  else env.executed.Perm (convertToMongoWriteModel items env.currentTime)

instance (env : BulkEnv) (items : List BookIn) : Decidable (env.Unordered items) := by
  unfold BulkEnv.Unordered
  infer_instance

/-- The counts, or `none` when the bulk raises, and the collection after it. A snapshot without books
makes no bulk. -/
def saveBooksSnapshot (books : BooksCollection) (items : List BookIn) (env : BulkEnv) :
    Option BulkResult × BooksCollection :=
  let mongoModels := convertToMongoWriteModel items env.currentTime
  if mongoModels = [] then (some ⟨0, 0⟩, books)
  else
    let (result, after) := bulkWrite books env.executed
    (if env.raises then none else some result, after)

/-- What one round of the sync loop meets. -/
inductive SyncAttempt where
  | tokenFails
  | snapshotFails
  | fetched (items : List BookIn) (env : BulkEnv)
  deriving DecidableEq, Repr

/-- The loop over attempts ends with the first that goes through; `none` means that it goes on. -/
def startBookSync (books : BooksCollection) : List SyncAttempt → Option BulkResult × BooksCollection
  | [] => (none, books)
  | .tokenFails :: rest => startBookSync books rest
  | .snapshotFails :: rest => startBookSync books rest
  | .fetched items env :: rest =>
      match saveBooksSnapshot books items env with
      | (none, after) => startBookSync after rest
      | (some result, after) => (some result, after)

/-- The snapshot in the body of a response. -/
def getBooksSnapshot : Option Json → Option (List BookIn)
  | some .null => some []
  | some (.arr items) => items.mapM BookIn.decode
  | _ => none

/-! ### What the writers do to one book -/

/-- A created book that the database takes is in the collection afterwards. -/
theorem handleBookCreated_of_some {msg : Message} {book : BookDoc} (h : unmarshal msg = some book)
    (books : BooksCollection) : handleBookCreated books msg false = books.upsertOne book := by
  simp only [handleBookCreated, h, Bool.false_eq_true, if_false, Collection.upsertOne]
  cases books.insertOne book <;> rfl

theorem handleBookCreated_raises (books : BooksCollection) (msg : Message) :
    handleBookCreated books msg true = books := by
  unfold handleBookCreated
  split <;> rfl

/-- What a delete event leaves under an id. -/
theorem find?_handleBookDeleted {msg : Message} {book : BookDoc} (h : unmarshal msg = some book)
    (books : BooksCollection) (id : Int) :
    (handleBookDeleted books msg false).find? id = (books.find? id).filter fun doc => doc != book := by
  simp only [handleBookDeleted, h, Bool.false_eq_true, if_false]
  exact Collection.find?_deleteOne (k := book.bookId) (fun doc hdoc => by rw [beq_iff_eq.mp hdoc]) id

/-- What a write model makes of the document under its id. -/
def WriteModel.effect : WriteModel → Option BookDoc → Option BookDoc
  | deleteOne _, _ => none
  | updateOne bookId timestamp, found => some (found.getD ⟨bookId, timestamp⟩)

theorem find?_execute (books : BooksCollection) (model : WriteModel) (id : Int) :
    (model.execute books).find? id =
      if id = model.bookId then model.effect (books.find? id) else books.find? id := by
  cases model with
  | deleteOne bookId => exact Collection.find?_deleteOne_key bookId id
  | updateOne bookId timestamp => exact Collection.find?_upsertOne (⟨bookId, timestamp⟩ : BookDoc) id

theorem bulkWrite_snd (books : BooksCollection) (models : List WriteModel) :
    (bulkWrite books models).2 = models.foldl WriteModel.execute books := by
  induction models generalizing books with
  | nil => rfl
  | cons model rest ih =>
      rw [List.foldl_cons, ← ih]
      rfl

theorem saveBooksSnapshot_snd {items : List BookIn} {env : BulkEnv} (h : env.Unordered items)
    (books : BooksCollection) :
    (saveBooksSnapshot books items env).2 = env.executed.foldl WriteModel.execute books := by
  simp only [saveBooksSnapshot]
  split
  · rename_i hnone
    -- a bulk of nothing has executed nothing
    have hempty : env.executed = [] := by
      unfold BulkEnv.Unordered at h
      rw [hnone] at h
      split at h
      · exact List.subperm_nil.mp h
      · exact List.perm_nil.mp h
    rw [hempty]
    rfl
  · exact bulkWrite_snd books env.executed

/-- Every executed model is the one of an item of the snapshot. -/
theorem BulkEnv.Unordered.item_of_mem {items : List BookIn} {env : BulkEnv} (h : env.Unordered items)
    {model : WriteModel} (hmodel : model ∈ env.executed) :
    ∃ item ∈ items, model.bookId = item.id ∧ model =
      if item.isDeleted then .deleteOne item.id else .updateOne item.id (.date env.currentTime) := by
  have hmem : model ∈ convertToMongoWriteModel items env.currentTime := by
    unfold BulkEnv.Unordered at h
    split at h
    · exact h.subset hmodel
    · exact h.subset hmodel
  obtain ⟨item, hitem, rfl⟩ := List.mem_map.mp hmem
  refine ⟨item, hitem, ?_, rfl⟩
  split <;> rfl

end BookHub.ReviewService
