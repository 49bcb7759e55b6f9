import BookHub.Base.Collection
import BookHub.Base.Pool

/-!
# The reviews of the review service

`AddReview` and `RemoveReview` over the `reviews` collection. A handler waits at each call of the
database; an error that a call returns is answered by the handler, so it goes on from every answer.
The middleware lets a request through only with a verified token that has a subject.
-/

namespace BookHub.ReviewService

/-- Twelve bytes; zero is the id that is left out of a document. -/
abbrev ObjectId : Type := BitVec 96

def hexDigit (c : Char) : Option Nat :=
  if '0' ≤ c ∧ c ≤ '9' then some (c.toNat - '0'.toNat)
  else if 'a' ≤ c ∧ c ≤ 'f' then some (c.toNat - 'a'.toNat + 10)
  else if 'A' ≤ c ∧ c ≤ 'F' then some (c.toNat - 'A'.toNat + 10)
  else none

def objectIDFromHex (s : String) : Option ObjectId :=
  if s.toList.length = 24 then
    (s.toList.foldlM (fun value c => (hexDigit c).map (16 * value + ·)) 0).map (BitVec.ofNat 96)
  else none

structure Review where
  id : ObjectId
  bookId : String
  userId : String
  rating : Int
  text : String
  timestamp : Int
  deriving DecidableEq, Repr

abbrev ReviewsCollection : Type := Collection Review.id

/-- The claims of a verified token. -/
structure JwtUser where
  subject : String
  role : String
  deriving DecidableEq, Repr

inductive MongoError where
  | noDocuments
  | failed (message : String)
  deriving DecidableEq, Repr

def MongoError.text : MongoError → String
  | noDocuments => "mongo: no documents in result"
  | failed message => message

/-- The calls a handler waits for, and the reading of the clock. -/
inductive ReviewOp where
  | now
  | insertOne (item : Review)
  | findOne (id : ObjectId)
  | deleteOne (id : ObjectId)
  deriving DecidableEq, Repr

abbrev reviewSig : Signature where
  Op := ReviewOp
  Answer
    | .now => Int
    | .insertOne _ => ObjectId
    | .findOne _ => Review
    | .deleteOne _ => Unit

/-- What the environment decides for one operation: the time, the id of a document that comes without
one, and whether the call fails. -/
structure ReviewEnv where
  millis : Int
  generatedId : ObjectId
  fails : Bool
  deriving DecidableEq, Repr

/-- The document that an insert stores. -/
def ReviewEnv.stored (env : ReviewEnv) (item : Review) : Review :=
  if item.id = 0 then { item with id := env.generatedId } else item

def exec (reviews : ReviewsCollection) (op : ReviewOp) (env : ReviewEnv) :
    Except MongoError (reviewSig.Answer op) × ReviewsCollection :=
  match op with
  | .now => (.ok env.millis, reviews)
  | .insertOne item =>
      if env.fails then (.error (.failed "connection"), reviews) else
        match reviews.insertOne (env.stored item) with
        | none => (.error (.failed "E11000 duplicate key error"), reviews)
        | some inserted => (.ok (env.stored item).id, inserted)
  | .findOne id =>
      if env.fails then (.error (.failed "connection"), reviews) else
        match reviews.find? id with
        | none => (.error .noDocuments, reviews)
        | some review => (.ok review, reviews)
  | .deleteOne id =>
      if env.fails then (.error (.failed "connection"), reviews)
      else (.ok (), reviews.deleteOne fun review => review.id == id)

/-! ### The handlers -/

abbrev ReviewM : Type → Type := Coroutine reviewSig MongoError

def call (op : ReviewOp) : ReviewM (reviewSig.Answer op) := @Coroutine.perform reviewSig MongoError op

def attempt (op : ReviewOp) : ReviewM (Except MongoError (reviewSig.Answer op)) :=
  @Coroutine.attempt reviewSig MongoError op

inductive ReviewResponse where
  | created (item : Review)
  | noContent
  | error (status : Nat) (message : String)
  deriving DecidableEq, Repr

/-- `body` is what the body decodes to, if it does. -/
def addReview (claims : JwtUser) (body : Option Review) : ReviewM ReviewResponse := do
  match body with
  | none => return .error 500 "Body cannot be decoded %v"
  | some item =>
      let timestamp ← call .now
      let item := { item with userId := claims.subject, timestamp }
      match ← attempt (.insertOne item) with
      | .error _ => return .error 500 "Failed to insert new review, %v"
      | .ok insertedID => return .created { item with id := insertedID }

def removeReview (claims : JwtUser) (reviewId : String) : ReviewM ReviewResponse := do
  match objectIDFromHex reviewId with
  | none => return .error 400 ("Invalid objectId: " ++ reviewId)
  | some objID =>
      match ← attempt (.findOne objID) with
      | .error .noDocuments =>
          return .error 404 ("Failed to remove review, " ++ MongoError.noDocuments.text)
      | .error err => return .error 400 ("Failed to remove review, " ++ err.text)
      | .ok dbReview =>
          if claims.subject != dbReview.userId && claims.role != "admin" then
            return .error 400 "Failed to remove review: User is not the owner of the review"
          match ← attempt (.deleteOne objID) with
          | .error err => return .error 400 ("Failed to remove review, " ++ err.text)
          | .ok _ => return .noContent

inductive ReviewRequest where
  | add (claims : JwtUser) (body : Option Review)
  | remove (claims : JwtUser) (reviewId : String)
  deriving DecidableEq, Repr

namespace ReviewRequest

def claims : ReviewRequest → JwtUser
  | add claims _ => claims
  | remove claims _ => claims

def handler : ReviewRequest → ReviewM ReviewResponse
  | add claims body => addReview claims body
  | remove claims reviewId => removeReview claims reviewId

end ReviewRequest

/-- The middleware refuses a token without a subject. -/
def reviewService :
    Service reviewSig MongoError ReviewsCollection ReviewEnv ReviewRequest ReviewResponse where
  handler := ReviewRequest.handler
  exec := exec
  admits _ request := request.claims.subject != ""

/-! ### What a handler issues, and what it does -/

abbrev ReviewEvent : Type := reviewSig.Event MongoError

abbrev ReviewPool : Type := Pool reviewSig MongoError ReviewsCollection ReviewRequest ReviewResponse

abbrev ReviewThread : Type := Thread reviewSig MongoError ReviewRequest ReviewResponse

abbrev ReviewMove : Type := Move ReviewEnv ReviewRequest

/-- The operations of a request, each with the answers received before. The last is past the
ownership check. -/
inductive Issued : ReviewRequest → List ReviewEvent → ReviewOp → Prop where
  | now (claims : JwtUser) (item : Review) : Issued (.add claims (some item)) [] .now
  | insertOne (claims : JwtUser) (item : Review) (timestamp : Int) :
      Issued (.add claims (some item)) [⟨.now, .ok timestamp⟩]
        (.insertOne { item with userId := claims.subject, timestamp })
  | findOne (claims : JwtUser) (reviewId : String) (objID : ObjectId) :
      Issued (.remove claims reviewId) [] (.findOne objID)
  | deleteOne (claims : JwtUser) (reviewId : String) (objID : ObjectId) (dbReview : Review)
      (howner : claims.subject = dbReview.userId ∨ claims.role = "admin") :
      Issued (.remove claims reviewId) [⟨.findOne objID, .ok dbReview⟩] (.deleteOne objID)

theorem issues_addReview (claims : JwtUser) (body : Option Review) :
    Coroutine.Issues (fun _ _ => True) (Issued (.add claims body)) [] (addReview claims body) := by
  cases body with
  | none => trivial
  | some item =>
      refine ⟨.now claims item, fun answer _ => ?_⟩
      cases answer with
      | error err => trivial
      | ok timestamp =>
          refine ⟨.insertOne claims item timestamp, fun answer _ => ?_⟩
          cases answer <;> trivial

theorem issues_removeReview (claims : JwtUser) (reviewId : String) :
    Coroutine.Issues (fun _ _ => True) (Issued (.remove claims reviewId)) []
      (removeReview claims reviewId) := by
  unfold removeReview
  split
  · trivial
  · rename_i objID _
    refine ⟨.findOne claims reviewId objID, fun (answer : Except MongoError Review) _ => ?_⟩
    cases answer with
    | error err => cases err <;> trivial
    | ok dbReview =>
        show Coroutine.Issues _ _ _
          (if (claims.subject != dbReview.userId && claims.role != "admin") = true then _ else _)
        split
        · trivial
        · rename_i howner
          have hchecked : claims.subject = dbReview.userId ∨ claims.role = "admin" := by
            simpa [or_iff_not_imp_left] using howner
          refine ⟨.deleteOne claims reviewId objID dbReview hchecked, fun answer _ => ?_⟩
          cases answer <;> trivial

theorem issues_handler (request : ReviewRequest) :
    Coroutine.Issues (fun _ _ => True) (Issued request) [] (reviewService.handler request) := by
  cases request with
  | add claims body => exact issues_addReview claims body
  | remove claims reviewId => exact issues_removeReview claims reviewId

theorem exec_insertOne (reviews : ReviewsCollection) (item : Review) (env : ReviewEnv) :
    (∃ err, exec reviews (.insertOne item) env = (.error err, reviews)) ∨
      exec reviews (.insertOne item) env =
        (.ok (env.stored item).id, reviews.upsertOne (env.stored item)) ∧
      reviews.find? (env.stored item).id = none := by
  simp only [exec]
  split
  · exact .inl ⟨_, rfl⟩
  · cases hfind : reviews.find? (env.stored item).id with
    | none =>
        obtain ⟨inserted, hinsert, -⟩ := Collection.insertOne_of_none hfind
        right
        simp only [hinsert, Collection.upsertOne, Option.getD_some, and_self]
    | some review =>
        rw [Collection.insertOne_of_some hfind]
        exact .inl ⟨_, rfl⟩

theorem exec_findOne_ok {reviews : ReviewsCollection} {id : ObjectId} {env : ReviewEnv}
    {review : Review} (h : (exec reviews (.findOne id) env).1 = .ok review) :
    review ∈ reviews.docs ∧ review.id = id := by
  simp only [exec] at h
  split at h
  · cases h
  · split at h
    · cases h
    · rename_i found hfind
      cases h
      exact Collection.find?_eq_some.mp hfind

/-- An operation leaves the collection, or stores a document under a free id, or deletes under one. -/
theorem exec_reviews (reviews : ReviewsCollection) (op : ReviewOp) (env : ReviewEnv) :
    (exec reviews op env).2 = reviews ∨
      (∃ item, op = .insertOne item ∧ reviews.find? (env.stored item).id = none ∧
        (exec reviews op env).2 = reviews.upsertOne (env.stored item)) ∨
      ∃ id, op = .deleteOne id ∧
        (exec reviews op env).2 = reviews.deleteOne fun review => review.id == id := by
  cases op with
  | now => exact .inl rfl
  | insertOne item =>
      obtain ⟨err, h⟩ | ⟨h, hfind⟩ := exec_insertOne reviews item env
      · exact .inl (by rw [h])
      · exact .inr (.inl ⟨item, rfl, hfind, by rw [h]⟩)
  | findOne id =>
      left
      simp only [exec]
      repeat' split
      all_goals rfl
  | deleteOne id =>
      simp only [exec]
      split
      · exact .inl rfl
      · exact .inr (.inr ⟨id, rfl, rfl⟩)

/-- What is stored after an operation was stored before it, or is what the operation has inserted. -/
theorem mem_exec {reviews : ReviewsCollection} {op : ReviewOp} {env : ReviewEnv} {review : Review}
    (h : review ∈ (exec reviews op env).2.docs) :
    review ∈ reviews.docs ∨ ∃ item, op = .insertOne item ∧ review = env.stored item ∧
      (exec reviews (.insertOne item) env).1 = .ok review.id := by
  obtain hsame | ⟨item, rfl, hfree, hinsert⟩ | ⟨id, rfl, hdelete⟩ := exec_reviews reviews op env
  · exact .inl (hsame ▸ h)
  · obtain ⟨err, herr⟩ | ⟨hok, -⟩ := exec_insertOne reviews item env
    · rw [herr] at h
      exact .inl h
    · rw [hok, Collection.mem_docs_iff, Collection.find?_upsertOne] at h
      split at h
      · rename_i hid
        rw [hid, hfree] at h
        cases h
        exact .inr ⟨item, rfl, rfl, congrArg Prod.fst hok⟩
      · exact .inl (Collection.mem_docs_iff.mpr h)
  · rw [hdelete] at h
    exact .inl (List.mem_of_mem_eraseP h)

/-- What is stored no more after an operation was deleted by it. -/
theorem deleteOne_of_gone {reviews : ReviewsCollection} {op : ReviewOp} {env : ReviewEnv}
    {review : Review} (h : review ∈ reviews.docs) (hgone : review ∉ (exec reviews op env).2.docs) :
    op = .deleteOne review.id := by
  obtain hsame | ⟨item, rfl, hfree, hinsert⟩ | ⟨id, rfl, hdelete⟩ := exec_reviews reviews op env
  · rw [hsame] at hgone
    exact absurd h hgone
  · rw [Collection.mem_docs_iff] at h
    have hne : review.id ≠ (env.stored item).id := by
      intro heq
      rw [heq, hfree] at h
      cases h
    rw [hinsert, Collection.mem_docs_iff, Collection.find?_upsertOne, if_neg hne] at hgone
    exact absurd h hgone
  · by_contra hne
    have hid : review.id ≠ id := fun heq => hne (congrArg ReviewOp.deleteOne heq.symm)
    rw [hdelete, Collection.mem_docs_iff, Collection.find?_deleteOne_key, if_neg hid,
      ← Collection.mem_docs_iff] at hgone
    exact hgone h

end BookHub.ReviewService
