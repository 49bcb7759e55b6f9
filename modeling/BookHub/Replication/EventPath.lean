import BookHub.Replication.System
import BookHub.ReviewService.Writers

/-!
# The event path alone

A replica that only events have written, as the consumer's loop keeps it. Every document is then the
one that `unmarshal` makes of its id, so the whole document that a delete filters by is the document
that is there, and a delivery acts on the set of book ids: `book.created` puts its id in,
`book.deleted` takes its id out, and what cannot be decoded, or has another key, does neither.
-/

namespace BookHub.Replication

open ReviewService

/-- The message has this routing key, and the handler decodes it to this id. -/
def Names (key : String) (msg : Message) (id : Int) : Prop :=
  msg.routingKey = key ∧ (unmarshal msg).map BookDoc.bookId = some id

instance (key : String) (msg : Message) (id : Int) : Decidable (Names key msg id) :=
  inferInstanceAs (Decidable (_ ∧ _))

abbrev Creates : Message → Int → Prop := Names "book.created"

abbrev Deletes : Message → Int → Prop := Names "book.deleted"

/-- No creation of a book comes after a deletion of it. -/
def CreatedFirst (msgs : List Message) : Prop :=
  msgs.Pairwise fun earlier later => ∀ id, Deletes earlier id → ¬ Creates later id

/-- The loop over deliveries that meet no database error but duplicate keys. -/
def deliverAll (replica : BooksCollection) (msgs : List Message) : BooksCollection :=
  msgs.foldl (fun replica msg => System.deliver replica msg false) replica

/-- Only events have written the replica. -/
def EventOnly (replica : BooksCollection) : Prop := ∀ doc ∈ replica.docs, doc.ByEvent

/-! ### One delivery -/

theorem not_creates_of_deletes {msg : Message} {id id' : Int} (h : Deletes msg id) :
    ¬ Creates msg id' := by
  intro h
  obtain ⟨hkey, -⟩ := h
  rw [h.1] at hkey
  exact absurd hkey (by decide)

theorem unmarshal_of_bookId {msg : Message} {id : Int}
    (h : (unmarshal msg).map BookDoc.bookId = some id) :
    unmarshal msg = some ⟨id, .str "43"⟩ := by
  obtain ⟨⟨bookId, timestamp⟩, hbook, hid⟩ := Option.map_eq_some_iff.mp h
  have htimestamp : timestamp = .str "43" := unmarshal_timestamp hbook
  have hbookId : bookId = id := hid
  rw [hbook, htimestamp, hbookId]

theorem deliver_of_creates {msg : Message} {id : Int} (h : Creates msg id)
    (replica : BooksCollection) :
    System.deliver replica msg false = replica.upsertOne ⟨id, .str "43"⟩ := by
  rw [System.deliver, if_pos h.1]
  exact handleBookCreated_of_some (unmarshal_of_bookId h.2) replica

/-- A delivery that neither creates nor deletes changes nothing. -/
theorem deliver_of_neither {msg : Message} (hcreates : ∀ id, ¬ Creates msg id)
    (hdeletes : ∀ id, ¬ Deletes msg id) (replica : BooksCollection) :
    System.deliver replica msg false = replica := by
  cases hmsg : unmarshal msg with
  | none =>
      unfold System.deliver handleBookCreated handleBookDeleted
      simp only [hmsg, ite_self]
  | some book =>
      have hid : (unmarshal msg).map BookDoc.bookId = some book.bookId := by
        rw [hmsg]
        rfl
      rw [System.deliver, if_neg fun hkey => hcreates _ ⟨hkey, hid⟩,
        if_neg fun hkey => hdeletes _ ⟨hkey, hid⟩]

theorem doc_eq {replica : BooksCollection} (hreplica : EventOnly replica) {id : Int} {doc : BookDoc}
    (h : replica.find? id = some doc) : doc = ⟨id, .str "43"⟩ := by
  obtain ⟨hdoc, hid⟩ := Collection.find?_eq_some.mp h
  obtain ⟨bookId, timestamp⟩ := doc
  have htimestamp : timestamp = .str "43" := hreplica _ hdoc
  have hbookId : bookId = id := hid
  rw [htimestamp, hbookId]

/-- What a delivered deletion leaves under an id, where only events have written. -/
theorem find?_deliver_of_deletes {msg : Message} {id : Int} (h : Deletes msg id)
    {replica : BooksCollection} (hreplica : EventOnly replica) (id' : Int) :
    (System.deliver replica msg false).find? id' = if id' = id then none else replica.find? id' := by
  have hkey : ¬ msg.routingKey = "book.created" := by
    rw [h.1]
    decide
  rw [System.deliver, if_neg hkey, if_pos h.1, find?_handleBookDeleted (unmarshal_of_bookId h.2)]
  cases hfind : replica.find? id' with
  | none => exact (ite_self _).symm
  | some doc =>
      rw [doc_eq hreplica hfind, Option.filter_some]
      by_cases heq : id' = id
      · simp [heq]
      · simp [heq]

theorem bookId_unique {msg : Message} {id id' : Int}
    (h : (unmarshal msg).map BookDoc.bookId = some id)
    (h' : (unmarshal msg).map BookDoc.bookId = some id') : id' = id := by
  rw [h] at h'
  exact (Option.some.inj h').symm

/-- What a delivery leaves under an id. -/
theorem find?_deliver {replica : BooksCollection} (hreplica : EventOnly replica) (msg : Message)
    (id : Int) : (System.deliver replica msg false).find? id =
      if Deletes msg id then none
      else if Creates msg id then some ⟨id, .str "43"⟩ else replica.find? id := by
  by_cases hcreates : ∃ id₀, Creates msg id₀
  · obtain ⟨id₀, h₀⟩ := hcreates
    rw [deliver_of_creates h₀, Collection.find?_upsertOne,
      if_neg fun hdeletes => not_creates_of_deletes hdeletes h₀]
    by_cases hid : id = id₀
    · subst hid
      rw [if_pos rfl, if_pos h₀]
      cases hfind : replica.find? id with
      | none => rfl
      | some doc => exact congrArg some (doc_eq hreplica hfind)
    · rw [if_neg hid, if_neg fun h => hid (bookId_unique h₀.2 h.2)]
  · have hnone := not_exists.mp hcreates
    by_cases hdeletes : ∃ id₀, Deletes msg id₀
    · obtain ⟨id₀, h₀⟩ := hdeletes
      rw [find?_deliver_of_deletes h₀ hreplica, if_neg (hnone id)]
      by_cases hid : id = id₀
      · rw [if_pos hid, if_pos (hid ▸ h₀)]
      · rw [if_neg hid, if_neg fun h => hid (bookId_unique h₀.2 h.2)]
    · have hnone' := not_exists.mp hdeletes
      rw [deliver_of_neither hnone hnone', if_neg (hnone' id), if_neg (hnone id)]

theorem eventOnly_deliver {replica : BooksCollection} (hreplica : EventOnly replica)
    (msg : Message) : EventOnly (System.deliver replica msg false) := by
  intro doc hdoc
  rw [Collection.mem_docs_iff, find?_deliver hreplica] at hdoc
  split at hdoc
  · cases hdoc
  · split at hdoc
    · rw [← Option.some.inj hdoc]
      rfl
    · exact hreplica doc (Collection.mem_docs_iff.mpr hdoc)

/-! ### All deliveries -/

/-- What the deliveries leave under an id, when its creations come before its deletions. -/
theorem find?_deliverAll {msgs : List Message} (horder : CreatedFirst msgs)
    {replica : BooksCollection} (hreplica : EventOnly replica) (id : Int) :
    (deliverAll replica msgs).find? id =
      if ∃ msg ∈ msgs, Deletes msg id then none
      else if ∃ msg ∈ msgs, Creates msg id then some ⟨id, .str "43"⟩ else replica.find? id := by
  induction msgs generalizing replica with
  | nil => simp [deliverAll]
  | cons msg rest ih =>
      obtain ⟨hfirst, hrest⟩ := List.pairwise_cons.mp horder
      have hstep : (deliverAll replica (msg :: rest)).find? id =
          (deliverAll (System.deliver replica msg false) rest).find? id := rfl
      rw [hstep, ih hrest (eventOnly_deliver hreplica msg), find?_deliver hreplica]
      by_cases hdeletes : Deletes msg id
      · -- nothing in the rest puts the book back
        have hnone : ¬ ∃ later ∈ rest, Creates later id := by
          intro h
          obtain ⟨later, hlater, hcreates⟩ := h
          exact hfirst later hlater id hdeletes hcreates
        simp [hdeletes, hnone]
      · by_cases hcreates : Creates msg id
        · simp [hdeletes, hcreates]
        · simp [hdeletes, hcreates]

/-- The ids after a run of deliveries are the ids before it together with the created ones less the
deleted ones, each in one document, and the documents of ids that no delivery names are the ones
before it. -/
structure FollowsEvents (replica : BooksCollection) (msgs : List Message)
    (after : BooksCollection) : Prop where
  keys : ∀ id, id ∈ after.keys ↔
    (id ∈ replica.keys ∨ ∃ msg ∈ msgs, Creates msg id) ∧ ¬ ∃ msg ∈ msgs, Deletes msg id
  once : ∀ id ∈ after.keys, (after.docs.filter fun doc => doc.bookId == id).length = 1
  others : ∀ doc, (∀ msg ∈ msgs, ¬ Creates msg doc.bookId ∧ ¬ Deletes msg doc.bookId) →
    (doc ∈ after.docs ↔ doc ∈ replica.docs)

/-- A delivery that cannot be decoded, has another key, or deletes a book that is not there. -/
def Idle (replica : BooksCollection) (msg : Message) : Prop :=
  unmarshal msg = none ∨ (msg.routingKey ≠ "book.created" ∧ msg.routingKey ≠ "book.deleted") ∨
    ∃ id, Deletes msg id ∧ id ∉ replica.keys

theorem deliver_of_idle {replica : BooksCollection} {msg : Message} (h : Idle replica msg) :
    System.deliver replica msg false = replica := by
  obtain hnone | ⟨hcreated, hdeleted⟩ | ⟨id, hdeletes, habsent⟩ := h
  · unfold System.deliver handleBookCreated handleBookDeleted
    simp only [hnone, ite_self]
  · rw [System.deliver, if_neg hcreated, if_neg hdeleted]
  · have hkey : ¬ msg.routingKey = "book.created" := fun hkey =>
      not_creates_of_deletes hdeletes ⟨hkey, hdeletes.2⟩
    rw [System.deliver, if_neg hkey, if_pos hdeletes.1, handleBookDeleted,
      unmarshal_of_bookId hdeletes.2]
    -- the filter of the delete matches nothing, so no document is erased
    have hmiss : ∀ doc ∈ replica.docs, ¬ (doc == (⟨id, .str "43"⟩ : BookDoc)) = true := by
      intro doc hdoc hmatch
      rw [eq_of_beq hmatch] at hdoc
      exact habsent (List.mem_map_of_mem hdoc)
    obtain ⟨docs, nodup⟩ := replica
    simp only [Collection.deleteOne, List.eraseP_of_forall_not hmiss, Bool.false_eq_true, if_false]

/-- The event path keeps the replica in step with the events, and what is idle changes nothing. -/
theorem eventPath_follows (replica : BooksCollection) (hreplica : EventOnly replica)
    (msgs : List Message) (horder : CreatedFirst msgs) :
    FollowsEvents replica msgs (deliverAll replica msgs) ∧
      ∀ before msg after, msgs = before ++ msg :: after → Idle (deliverAll replica before) msg →
        deliverAll replica (before ++ [msg]) = deliverAll replica before := by
  have hfind := find?_deliverAll horder hreplica
  refine ⟨⟨fun id => ?_, fun id hid => Collection.length_filter_of_mem_keys hid, fun doc hdoc => ?_⟩,
    fun before msg after _ hidle => ?_⟩
  · rw [Collection.mem_keys, Collection.mem_keys, hfind]
    by_cases hdeletes : ∃ msg ∈ msgs, Deletes msg id
    · simp [hdeletes]
    · by_cases hcreates : ∃ msg ∈ msgs, Creates msg id
      · simp [hdeletes, hcreates]
      · simp [hdeletes, hcreates]
  · have hnotCreated : ¬ ∃ msg ∈ msgs, Creates msg doc.bookId := by
      intro h
      obtain ⟨msg, hmsg, hcreates⟩ := h
      exact (hdoc msg hmsg).1 hcreates
    have hnotDeleted : ¬ ∃ msg ∈ msgs, Deletes msg doc.bookId := by
      intro h
      obtain ⟨msg, hmsg, hdeletes⟩ := h
      exact (hdoc msg hmsg).2 hdeletes
    rw [Collection.mem_docs_iff, hfind, if_neg hnotDeleted, if_neg hnotCreated,
      ← Collection.mem_docs_iff]
  · rw [deliverAll, List.foldl_append]
    exact deliver_of_idle hidle

/-- Book 2 is created twice, a body is not JSON, a key is unknown, and book 1 is deleted. -/
def createThenDelete : List Message :=
  [⟨"book.created", some (.obj [("id", .int 2)])⟩, ⟨"book.created", some (.obj [("ID", .int 2)])⟩,
    ⟨"book.created", none⟩, ⟨"book.updated", some (.obj [("id", .int 3)])⟩,
    ⟨"book.deleted", some (.obj [("id", .int 1)])⟩]

/-- A replica with book 1. -/
def replicaOfOne : BooksCollection := ⟨[⟨1, .str "43"⟩], by decide⟩

theorem eventPath_follows_createThenDelete :
    FollowsEvents replicaOfOne createThenDelete (deliverAll replicaOfOne createThenDelete) ∧
      ∀ before msg after, createThenDelete = before ++ msg :: after →
        Idle (deliverAll replicaOfOne before) msg →
        deliverAll replicaOfOne (before ++ [msg]) = deliverAll replicaOfOne before := by
  apply eventPath_follows
  · intro doc hdoc
    rw [List.mem_singleton.mp hdoc]
    rfl
  · simp [CreatedFirst, createThenDelete, Names]

end BookHub.Replication
