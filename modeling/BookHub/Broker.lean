import BookHub.Base.Json
import Mathlib.Data.List.Basic

/-!
# The books exchange

The topic exchange through which the book service announces its books, and the one queue that the
review service binds to it. The exchange does not store: a message that is published reaches the
queue when the queue is bound to its routing key at that moment, and nobody otherwise.
-/

namespace BookHub

/-- A message on the wire. The body is the JSON value of its bytes, `none` when they are not JSON. -/
structure Message where
  routingKey : String
  body : Option Json
  deriving Repr

namespace Message

/-- The book a message is about: the integer in the `id` field of its body. -/
def bookId? (msg : Message) : Option Int :=
  (msg.body.bind fun body => body.field? "id").bind Json.int?

/-- The message is the event of this routing key for this book. -/
def Announces (msg : Message) (key : String) (id : Nat) : Prop :=
  msg.routingKey = key ∧ msg.bookId? = some (id : Int)

instance (msg : Message) (key : String) (id : Nat) : Decidable (msg.Announces key id) :=
  inferInstanceAs (Decidable (_ ∧ _))

/-- No `book.created` of a book comes after a `book.deleted` of it. A book is committed before it is
deleted, so events that are published in commit order are in this order. -/
def InOrder (published : List Message) : Prop :=
  published.Pairwise fun earlier later => ∀ id, earlier.Announces "book.deleted" id →
    ¬ later.Announces "book.created" id

end Message

/-- The queue of the review service, with the routing keys it is bound to. -/
structure BookQueue where
  bindings : List String
  messages : List Message
  deriving Repr

namespace BookQueue

def empty : BookQueue := ⟨[], []⟩

def bind (queue : BookQueue) (key : String) : BookQueue :=
  { queue with bindings := queue.bindings ++ [key] }

/-- What the exchange delivers of the messages published in one step. -/
def receive (queue : BookQueue) (published : List Message) : BookQueue :=
  { queue with
    messages := queue.messages ++ published.filter fun msg => msg.routingKey ∈ queue.bindings }

end BookQueue

end BookHub
