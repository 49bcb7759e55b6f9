import BookHub.Base.Pool
import BookHub.Base.Table
import BookHub.Broker

/-!
# The book service

The request handlers of the book service over its `books` table and the books exchange. A handler
waits at each call of the database session; `publish_message` is synchronous, so its five broker
calls run without another request in between and are one operation here, with a failure point at each
of them.

A book is never removed from the table: `delete_book` sets its flag, and the flag is never reset.
-/

namespace BookHub.BookService

/-- A row of the `books` table. -/
structure Book where
  id : Nat
  title : String
  author : String
  isDeleted : Bool
  deriving DecidableEq, Repr

abbrev BooksTable : Type := Table Book.id

/-- The body of a create request. -/
structure BookRequestBody where
  title : String
  author : String
  deriving DecidableEq, Repr

/-- The user that a verified token names. -/
structure JwtUser where
  id : String
  name : String
  email : String
  role : String
  deriving DecidableEq, Repr

def isAdmin (user : JwtUser) : Bool := user.role == "admin"

structure BookDto where
  id : Nat
  title : String
  author : String
  isDeleted : Bool
  deriving DecidableEq, Repr

namespace BookDto

def modelValidate (book : Book) : BookDto := ⟨book.id, book.title, book.author, book.isDeleted⟩

def modelDumpJson (dto : BookDto) : Json :=
  .obj [("id", .int dto.id), ("title", .str dto.title), ("author", .str dto.author),
    ("isDeleted", .bool dto.isDeleted)]

end BookDto

/-- The message that announces a row under a routing key. -/
def announcement (routingKey : String) (book : Book) : Message :=
  ⟨routingKey, some (BookDto.modelValidate book).modelDumpJson⟩

@[simp] theorem bookId?_announcement (routingKey : String) (book : Book) :
    (announcement routingKey book).bookId? = some (book.id : Int) := by
  simp [announcement, Message.bookId?, BookDto.modelDumpJson, BookDto.modelValidate, Json.field?,
    Json.int?]

theorem announces_announcement {key routingKey : String} {book : Book} {id : Nat} :
    (announcement routingKey book).Announces key id ↔ routingKey = key ∧ book.id = id := by
  rw [Message.Announces, bookId?_announcement, Option.some_inj, Int.ofNat_inj]
  rfl

/-! ### The stores and their operations -/

/-- The calls of `publish_message`, in their order. -/
inductive BrokerCall where
  | blockingConnection
  | channel
  | exchangeDeclare
  | basicPublish
  | close
  deriving DecidableEq, Repr

/-- What a handler raises. -/
inductive Failure where
  | http (status : Nat) (detail : String)
  | database
  | broker (call : BrokerCall)
  deriving DecidableEq, Repr

/-- `publish_message`, when `raises` says which of its calls raise: the outcome, and the messages that
went out. The message is out once `basic_publish` has returned, also when `close` raises after it. -/
def publishMessage (raises : BrokerCall → Bool) (msg : Message) :
    Except Failure Unit × List Message :=
  if raises .blockingConnection then (.error (.broker .blockingConnection), [])
  else if raises .channel then (.error (.broker .channel), [])
  else if raises .exchangeDeclare then (.error (.broker .exchangeDeclare), [])
  else if raises .basicPublish then (.error (.broker .basicPublish), [])
  else if raises .close then (.error (.broker .close), [msg])
  else (.ok (), [msg])

/-- The operations a handler waits for: the calls of the database session and `publish_message`. -/
inductive BookOp where
  | commitNew (title author : String)
  | refresh (id : Nat)
  | get (id : Int)
  | commitDeleted (id : Nat)
  | publishMessage (routingKey : String) (message : Json)

abbrev bookSig : Signature where
  Op := BookOp
  Answer
    | .commitNew _ _ => Nat
    | .refresh _ => Book
    | .get _ => Option Book
    | .commitDeleted _ => Unit
    | .publishMessage _ _ => Unit

/-- The table, and the history of what was published to the books exchange, which no handler reads. -/
structure Store where
  books : BooksTable
  published : List Message

/-- What the environment decides for one operation. -/
structure BookEnv where
  databaseRaises : Bool
  brokerRaises : BrokerCall → Bool

/-- The environment in which nothing fails. -/
def BookEnv.calm : BookEnv := ⟨false, fun _ => false⟩

/-- Mark a book as deleted. -/
def Book.delete (book : Book) : Book := { book with isDeleted := true }

@[simp] theorem Book.id_delete (book : Book) : book.delete.id = book.id := rfl

/-- `INSERT` and commit, with the key from the sequence. -/
def Store.commitNew (s : Store) (title author : String) : Except Failure Nat × Store :=
  if hroom : s.books.nextId < 2 ^ 31 then
    (.ok s.books.nextId,
      { s with books := s.books.insert (fun id => ⟨id, title, author, false⟩) (fun _ => rfl) hroom })
  else (.error .database, s)

/-- How the database and the broker execute an operation. A call that raises has no effect, except
that a message that was published before `close` raises stays published. -/
def exec (s : Store) (op : BookOp) (env : BookEnv) : Except Failure (bookSig.Answer op) × Store :=
  match op with
  | .commitNew title author =>
      if env.databaseRaises then (.error .database, s) else s.commitNew title author
  | .refresh id =>
      if env.databaseRaises then (.error .database, s) else
        match s.books.find? id with
        | none => (.error .database, s)
        | some book => (.ok book, s)
  | .get id =>
      -- the driver refuses a parameter that is not a 32-bit integer
      if env.databaseRaises || decide (id < -2 ^ 31) || decide (2 ^ 31 ≤ id) then
        (.error .database, s)
      else (.ok (s.books.rows.find? fun book => (book.id : Int) == id), s)
  | .commitDeleted id =>
      if env.databaseRaises then (.error .database, s) else
        (.ok (), { s with books := s.books.modify id Book.delete Book.id_delete })
  | .publishMessage routingKey message =>
      let (answer, messages) := publishMessage env.brokerRaises ⟨routingKey, some message⟩
      (answer, { s with published := s.published ++ messages })

/-! ### The handlers -/

abbrev BookM : Type → Type := Coroutine bookSig Failure

def call (op : BookOp) : BookM (bookSig.Answer op) := @Coroutine.perform bookSig Failure op

def createBook (book : BookRequestBody) (jwt : JwtUser) : BookM Book := do
  if !isAdmin jwt then throw (.http 403 "Insufficient permissions!")
  let id ← call (.commitNew book.title book.author)
  let result ← call (.refresh id)
  call (.publishMessage "book.created" (BookDto.modelValidate result).modelDumpJson)
  return result

/-- The session keeps what it read (`expire_on_commit` is off), so the event carries the row as it was
read, with the flag set. -/
def deleteBook (bookId : Int) (jwt : JwtUser) : BookM Unit := do
  if !isAdmin jwt then throw (.http 403 "Insufficient permissions!")
  match ← call (.get bookId) with
  | none => throw (.http 404 s!"Entity with id: {bookId} not found!")
  | some item =>
      call (.commitDeleted item.id)
      let brokerBook := BookDto.modelValidate item.delete
      call (.publishMessage "book.deleted" brokerBook.modelDumpJson)

/-- The rows that are not deleted. -/
def getAllBooks (s : Store) : List BookDto :=
  (s.books.rows.filter fun book => book.isDeleted == false).map BookDto.modelValidate

/-- Every row, the deleted ones with their flag. -/
def internalGetBooksSnapshot (s : Store) : List BookDto := s.books.rows.map BookDto.modelValidate

inductive BookRequest where
  | create (book : BookRequestBody) (jwt : JwtUser)
  | delete (bookId : Int) (jwt : JwtUser)
  deriving DecidableEq, Repr

inductive BookResponse where
  | created (book : Book)
  | noContent
  deriving DecidableEq, Repr

def handler : BookRequest → BookM BookResponse
  | .create book jwt => do return .created (← createBook book jwt)
  | .delete bookId jwt => do
      deleteBook bookId jwt
      return .noContent

/-- The book service: `main.py` routes each request to its handler. -/
def service : Service bookSig Failure Store BookEnv BookRequest BookResponse where
  handler := handler
  exec := exec

/-! ### A user and a book to run the service with -/

def admin : JwtUser := ⟨"1", "Ada", "ada@books.org", "admin"⟩

def emma : BookRequestBody := ⟨"Emma", "Austen"⟩

end BookHub.BookService
