import BookHub.Replication.System

/-!
# Deleted books stay deleted

The sync applies a snapshot that may be older than events which the consumer has handled in between. A
snapshot that still has a book as active brings the document of this book back. In the runs in which no
`book.deleted` is handled while the sync holds such a snapshot, what is gone stays gone: `not_resurrected`.
-/

namespace BookHub.Replication

open BookService (announcement)
open ReviewService

/-! ### One delivery -/

section Deliver

variable (replica : BooksCollection) (row : BookService.Book)

theorem deliver_raises (msg : Message) : System.deliver replica msg true = replica := by
  unfold System.deliver
  split
  · exact handleBookCreated_raises replica msg
  · split
    · unfold handleBookDeleted
      split <;> rfl
    · rfl

theorem deliver_created (hlt : row.id < 2 ^ 63) :
    System.deliver replica (announcement "book.created" row) false =
      replica.upsertOne ⟨row.id, .str "43"⟩ := by
  have hcreated : (announcement "book.created" row).routingKey = "book.created" := rfl
  rw [System.deliver, if_pos hcreated]
  exact handleBookCreated_of_some (unmarshal_announcement hlt "book.created") replica

theorem find?_deliver_deleted (hlt : row.id < 2 ^ 63) (id : Int) :
    (System.deliver replica (announcement "book.deleted" row) false).find? id =
      (replica.find? id).filter fun doc => doc != ⟨row.id, .str "43"⟩ := by
  have hcreated : (announcement "book.deleted" row).routingKey ≠ "book.created" := by
    show "book.deleted" ≠ "book.created"
    decide
  have hdeleted : (announcement "book.deleted" row).routingKey = "book.deleted" := rfl
  rw [System.deliver, if_neg hcreated, if_pos hdeleted]
  exact find?_handleBookDeleted (unmarshal_announcement hlt "book.deleted") replica id

theorem deliver_other {key : String} (hcreated : key ≠ "book.created") (hdeleted : key ≠ "book.deleted")
    (raises : Bool) : System.deliver replica (announcement key row) raises = replica := by
  have hkey : (announcement key row).routingKey = key := rfl
  rw [System.deliver, hkey, if_neg hcreated, if_neg hdeleted]

end Deliver

/-- A delivery brings a document back only when it announces that its book was created. -/
theorem find?_deliver_none {replica : BooksCollection} {id : Int} (hgone : replica.find? id = none)
    {key : String} {row : BookService.Book} (hlt : row.id < 2 ^ 63)
    (hother : ¬ (key = "book.created" ∧ (row.id : Int) = id)) (raises : Bool) :
    (System.deliver replica (announcement key row) raises).find? id = none := by
  cases raises with
  | true =>
      rw [deliver_raises]
      exact hgone
  | false =>
      by_cases hcreated : key = "book.created"
      · have hne : id ≠ (row.id : Int) := fun heq => hother ⟨hcreated, heq.symm⟩
        rw [hcreated, deliver_created replica row hlt, Collection.find?_upsertOne, if_neg hne]
        exact hgone
      · by_cases hdeleted : key = "book.deleted"
        · rw [hdeleted, find?_deliver_deleted replica row hlt, hgone]
          rfl
        · rw [deliver_other replica row hcreated hdeleted]
          exact hgone

/-! ### What the sync holds of the books that are deleted -/

/-- The message that the next step of the consumer delivers. -/
def System.next (s : System) : Option Message :=
  if s.consumer = .consuming then s.pending.head? else none

/-- The step does not handle a `book.deleted` of a book that the snapshot held by the sync has as
active. -/
def NotStale (s : System) : SystemMove → Prop
  | .consumer _ => ∀ msg ∈ s.next, msg.routingKey = "book.deleted" →
      ∀ item ∈ s.held, msg.bookId? = some item.id → item.isDeleted = true
  | _ => True

instance (s : System) : (move : SystemMove) → Decidable (NotStale s move)
  | .consumer _ => inferInstanceAs (Decidable (∀ msg ∈ s.next, _))
  | .book _ => .isTrue trivial
  | .fetch _ => .isTrue trivial
  | .save _ => .isTrue trivial

/-- A `book.deleted` of the book was handled. -/
def HandledDeleted (s : System) (id : Nat) : Prop := ∃ msg ∈ s.handled, msg.Announces "book.deleted" id

structure FreshInv (s : System) : Prop extends System.DeliveryInv s where
  fresh : ∀ id, HandledDeleted s id → ∀ item ∈ s.held, item.id = id → item.isDeleted = true

theorem freshInv_start (books : BookService.BooksTable) (replica : BooksCollection) :
    FreshInv (System.start books replica) where
  toDeliveryInv := System.deliveryInv_start books replica
  fresh := by
    rintro id ⟨msg, hmsg, -⟩
    cases hmsg

/-- A book whose `book.deleted` was handled is deleted in the table. -/
theorem hasDeletedRow_of_handled {s : System} (h : System.DeliveryInv s) {id : Nat}
    (hdel : HandledDeleted s id) : BookService.HasDeletedRow s.books.store id := by
  obtain ⟨msg, hmsg, hannounces⟩ := hdel
  obtain ⟨key, row, rfl, -, hdeleted⟩ := h.announces (.inl hmsg)
  obtain ⟨hkey, rfl⟩ := BookService.announces_announcement.mp hannounces
  exact hdeleted hkey

theorem freshInv_step (s : System) (move : SystemMove) (s' : System) (h : FreshInv s)
    (hstale : NotStale s move) (hstep : System.machine.step s move = some s') : FreshInv s' := by
  have hdelivery := System.deliveryInv_step s move s' h.toDeliveryInv hstep
  refine ⟨hdelivery, ?_⟩
  cases move with
  | book move =>
      obtain ⟨books, new, -, -, rfl⟩ := System.bookStep_some hstep
      exact h.fresh
  | consumer fails =>
      obtain ⟨msg, hconsuming, hpending, hs'⟩ | ⟨-, hs'⟩ := System.consumerStep_some hstep
      · intro id hdel item hitem hid
        obtain ⟨handled, hhandled, hannounces⟩ := hdel
        rw [hs'] at hhandled hitem
        obtain hold | hnew := List.mem_append.mp hhandled
        · exact h.fresh id ⟨handled, hold, hannounces⟩ item hitem hid
        · -- the delivery of this very step, which the condition is about
          rw [List.mem_singleton.mp hnew] at hannounces
          have hnext : msg ∈ s.next := by
            rw [System.next, if_pos hconsuming, hpending]
            rfl
          exact hstale msg hnext hannounces.1 item hitem (hid ▸ hannounces.2)
      · rw [hs']
        exact h.fresh
  | fetch fails =>
      obtain ⟨-, rfl | rfl⟩ := System.fetchStep_some hstep
      · exact h.fresh
      · intro id hdel item hitem hid
        obtain ⟨row, hrow, rfl⟩ := List.mem_map.mp hitem
        have hdeleted := hasDeletedRow_of_handled hdelivery hdel
        have hsame : row.id = id := by
          change (row.id : Int) = id at hid
          omega
        rw [← hsame] at hdeleted
        exact hdeleted.isDeleted hrow
  | save env =>
      obtain ⟨items, sync, -, -, rfl, rfl | ⟨result, rfl⟩⟩ := System.saveStep_some hstep
      · intro id hdel item hitem
        cases hitem
      · intro id hdel item hitem
        cases hitem

/-! ### What is gone stays gone -/

/-- The `book.deleted` of the book was handled, and the replica does not hold the book. -/
structure Gone (s : System) (id : Nat) : Prop where
  handled : HandledDeleted s id
  absent : s.replica.find? id = none

theorem gone_foldl {models : List WriteModel} {id : Int} {replica : BooksCollection}
    (hmodels : ∀ model ∈ models, model.bookId = id → model = .deleteOne id)
    (hgone : replica.find? id = none) : (models.foldl WriteModel.execute replica).find? id = none := by
  induction models generalizing replica with
  | nil => exact hgone
  | cons model rest ih =>
      have hrest := fun other hother => hmodels other (List.mem_cons_of_mem model hother)
      rw [List.foldl_cons]
      apply ih hrest
      rw [find?_execute]
      split
      · rename_i hid
        rw [hmodels model List.mem_cons_self hid.symm]
        rfl
      · exact hgone

theorem gone_step {s s' : System} {move : SystemMove} (h : FreshInv s)
    (hord : Message.InOrder s.published) (hstep : System.machine.step s move = some s') {id : Nat}
    (hgone : Gone s id) : Gone s' id := by
  obtain ⟨⟨deleted, hdeleted, hannounces⟩, habsent⟩ := hgone
  cases move with
  | book move =>
      obtain ⟨books, new, -, -, rfl⟩ := System.bookStep_some hstep
      exact ⟨⟨deleted, hdeleted, hannounces⟩, habsent⟩
  | consumer fails =>
      obtain ⟨msg, -, hpending, hs'⟩ | ⟨-, hs'⟩ := System.consumerStep_some hstep
      · rw [hs']
        refine ⟨⟨deleted, List.mem_append_left _ hdeleted, hannounces⟩, ?_⟩
        have hmem : msg ∈ s.pending := by
          rw [hpending]
          exact List.mem_cons_self
        obtain ⟨key, row, rfl, hlt, -⟩ := h.announces (.inr hmem)
        refine find?_deliver_none habsent hlt ?_ fails
        rintro ⟨rfl, hid⟩
        -- the queue is in the order of the stream, so a `book.created` is not behind the `book.deleted`
        have hpairwise := List.Pairwise.sublist h.delivered hord
        rw [List.pairwise_append] at hpairwise
        refine hpairwise.2.2 deleted hdeleted _ hmem id hannounces ⟨rfl, ?_⟩
        rw [BookService.bookId?_announcement, hid]
      · rw [hs']
        exact ⟨⟨deleted, hdeleted, hannounces⟩, habsent⟩
  | fetch fails =>
      obtain ⟨-, rfl | rfl⟩ := System.fetchStep_some hstep
      · exact ⟨⟨deleted, hdeleted, hannounces⟩, habsent⟩
      · exact ⟨⟨deleted, hdeleted, hannounces⟩, habsent⟩
  | save env =>
      obtain ⟨items, sync, hsync, henv, rfl, -⟩ := System.saveStep_some hstep
      refine ⟨⟨deleted, hdeleted, hannounces⟩, gone_foldl ?_ habsent⟩
      intro model hmodel hid
      obtain ⟨item, hitem, hitemId, hshape⟩ := henv.item_of_mem hmodel
      have hheld : item ∈ s.held := by
        simp only [System.held, hsync]
        exact hitem
      have hmarked := h.fresh id ⟨deleted, hdeleted, hannounces⟩ item hheld (by rw [← hitemId, hid])
      rw [hshape, if_pos hmarked, ← hitemId, hid]

/-- The stream of a state is a prefix of the stream of a later one. -/
theorem published_run {s s' : System} {moves : List SystemMove}
    (hrun : System.machine.run s moves = some s') : s.published <+: s'.published := by
  have hkeep : ∀ mid move mid', s.published <+: mid.published →
      System.machine.step mid move = some mid' → s.published <+: mid'.published := by
    intro mid move mid' hprefix hstep
    apply hprefix.trans
    cases move with
    | book move =>
        obtain ⟨books, new, -, hnew, rfl⟩ := System.bookStep_some hstep
        exact ⟨new, hnew.symm⟩
    | consumer fails =>
        obtain ⟨_, -, -, hs'⟩ | ⟨-, hs'⟩ := System.consumerStep_some hstep
        · rw [hs']
          exact List.prefix_rfl
        · rw [hs']
          exact List.prefix_rfl
    | fetch fails =>
        obtain ⟨-, rfl | rfl⟩ := System.fetchStep_some hstep <;> exact List.prefix_rfl
    | save env =>
        obtain ⟨_, _, -, -, rfl, -⟩ := System.saveStep_some hstep
        exact List.prefix_rfl
  exact Machine.invariant hkeep List.prefix_rfl hrun

theorem gone_run {s s' : System} {moves : List SystemMove} (h : FreshInv s)
    (hrun : System.machine.run s moves = some s') (hstale : System.machine.Meets NotStale s moves)
    (hord : Message.InOrder s'.published) {id : Nat} (hgone : Gone s id) : Gone s' id := by
  induction moves generalizing s with
  | nil =>
      cases hrun
      exact hgone
  | cons move rest ih =>
      have hordNow : Message.InOrder s.published := hord.sublist (published_run hrun).sublist
      obtain ⟨mid, hstep, hrest⟩ := Option.bind_eq_some_iff.mp hrun
      have hmid := freshInv_step s move mid h hstale.1 hstep
      exact ih hmid hrest (hstale.2 mid hstep) (gone_step h hordNow hstep hgone)

/-- In every run whose steps meet `NotStale` and whose stream is in order: once a `book.deleted` of a
book was handled and the replica does not hold the book, it never holds it again. -/
theorem not_resurrected {books : BookService.BooksTable} {replica : BooksCollection}
    {moves later : List SystemMove} {s s' : System}
    (hrun : System.machine.run (System.start books replica) moves = some s)
    (hlater : System.machine.run s later = some s')
    (hstale : System.machine.Meets NotStale (System.start books replica) (moves ++ later))
    (hord : Message.InOrder s'.published) {id : Nat} (hdel : HandledDeleted s id)
    (hgone : ∀ doc ∈ s.replica.docs, doc.bookId ≠ id) : ∀ doc ∈ s'.replica.docs, doc.bookId ≠ id := by
  obtain ⟨hfirst, hsecond⟩ := System.machine.meets_append hstale
  have hfresh := Machine.invariant_of_meets freshInv_step (freshInv_start books replica) hfirst hrun
  have habsent := gone_run hfresh hlater (hsecond s hrun) hord
    ⟨hdel, Collection.find?_eq_none.mpr hgone⟩
  exact Collection.find?_eq_none.mp habsent.absent

/-! ### Two runs -/

/-- The consumer starts up: it declares its queue, binds it twice, and consumes. -/
def consumerUp : List SystemMove := List.replicate 4 (.consumer false)

/-- The thread at an index runs through its next three operations, and nothing fails. -/
def threeSteps (index : Nat) : List SystemMove :=
  List.replicate 3 (.book (.resume index .calm))

/-- Book 1 is created, and its event handled. -/
def createOne : List SystemMove :=
  .book (.arrive (.create BookService.emma BookService.admin)) :: threeSteps 0 ++ [.consumer false]

/-- Book 1 is deleted, and its event handled. -/
def deleteOne : List SystemMove :=
  .book (.arrive (.delete 1 BookService.admin)) :: threeSteps 1 ++ [.consumer false]

theorem inOrder_createDelete {created deleted : BookService.Book} :
    Message.InOrder [announcement "book.created" created, announcement "book.deleted" deleted] := by
  refine .cons (fun later _ id hdel => ?_) (.cons (fun later hlater => ?_) .nil)
  · have hkey : "book.created" = "book.deleted" := hdel.1
    exact absurd hkey (by decide)
  · cases hlater

/-- The sync is done before book 1 comes and goes. -/
def doneBeforeCreate : List SystemMove :=
  consumerUp ++ [.fetch false, .save ⟨7, [], false⟩] ++ createOne ++ deleteOne

/-- Another book is committed. -/
def commitTwo : List SystemMove :=
  [.book (.arrive (.create BookService.emma BookService.admin)), .book (.resume 2 .calm)]

theorem not_resurrected_doneBeforeCreate :
    ∃ s s', System.machine.run (System.start Table.empty .empty) doneBeforeCreate = some s ∧
      System.machine.run s commitTwo = some s' ∧ ∀ doc ∈ s'.replica.docs, doc.bookId ≠ (1 : Nat) :=
  ⟨_, _, rfl, rfl, @not_resurrected Table.empty .empty doneBeforeCreate commitTwo _ _ rfl rfl
    (by decide) inOrder_createDelete 1
    ⟨_, List.mem_cons_of_mem _ (List.mem_singleton_self _), rfl, rfl⟩ (fun doc hdoc => by cases hdoc)⟩

/-- The snapshot is fetched while book 1 is there, and applied after its `book.deleted` was handled. -/
def beforeStaleSave : List SystemMove := consumerUp ++ createOne ++ [.fetch false] ++ deleteOne

theorem not_never_resurrected : ¬ ∀ books replica moves later s s',
    System.machine.run (System.start books replica) moves = some s →
    System.machine.run s later = some s' → Message.InOrder s'.published → ∀ id, HandledDeleted s id →
      (∀ doc ∈ s.replica.docs, doc.bookId ≠ (id : Nat)) → ∀ doc ∈ s'.replica.docs, doc.bookId ≠ id := by
  intro h
  have hback := h Table.empty .empty beforeStaleSave
    [.save ⟨7, [.updateOne 1 (.date 7)], false⟩] _ _ rfl rfl inOrder_createDelete 1
    ⟨_, List.mem_cons_of_mem _ (List.mem_singleton_self _), rfl, rfl⟩ (fun doc hdoc => by cases hdoc)
  exact hback ⟨1, .date 7⟩ (List.mem_singleton_self _) rfl

end BookHub.Replication
