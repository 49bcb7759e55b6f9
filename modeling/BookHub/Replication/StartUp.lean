import BookHub.BookService.EventOrder
import BookHub.Replication.Resurrection

/-!
# Created books over the start-up

A book that is committed reaches the replica in one of two ways: it is in the snapshot that the sync
fetches, or its `book.created` event finds the queue bound. The two can miss it together, when it is
committed after the snapshot was read and announced before the queue is bound. Apart from that gap every
live book is `Covered` at every moment of a run in which the databases and the broker's publishes do not
fail, by one of five things, of which only its document is left when the start-up is over and the create
of the book has published.
-/

namespace BookHub.Replication

open BookService (announcement committed through publishing HasDeletedRow)
open ReviewService

/-- No publish and no call of a database fails in the step. The calls of the consumer's start-up and the
fetch may fail. -/
def Calm (s : System) : SystemMove → Prop
  | .book (.arrive _) => True
  | .book (.resume _ env) => env.databaseRaises = false ∧ ∀ call, env.brokerRaises call = false
  | .consumer fails => s.consumer = .consuming → fails = false
  | .fetch _ => True
  | .save env => env.raises = false

/-- The queue gets the `book.created` events. -/
def System.Bound (s : System) : Prop := ∃ queue ∈ s.queue, "book.created" ∈ queue.bindings

/-- The step does not publish a `book.created` past an unbound queue when the sync has read its snapshot
already, and neither this snapshot nor the replica has the book. -/
def NoGap (s : System) : SystemMove → Prop
  | .book (.resume index _) => ∀ id ∈ s.books.threads[index]?.bind (publishing "book.created"),
      s.Bound ∨ s.sync = .fetching ∨ (∃ item ∈ s.held, item.id = id ∧ item.isDeleted = false) ∨
        (s.replica.find? id).isSome
  | _ => True

instance (s : System) : (move : SystemMove) → Decidable (Calm s move)
  | .book (.arrive _) => .isTrue trivial
  | .book (.resume _ _) => inferInstanceAs (Decidable (_ ∧ _))
  | .consumer fails => inferInstanceAs (Decidable (s.consumer = .consuming → fails = false))
  | .fetch _ => .isTrue trivial
  | .save env => inferInstanceAs (Decidable (env.raises = false))

instance (s : System) : Decidable s.Bound := inferInstanceAs (Decidable (∃ queue ∈ s.queue, _))

instance (s : System) : (move : SystemMove) → Decidable (NoGap s move)
  | .book (.resume index _) => inferInstanceAs (Decidable
      (∀ id ∈ s.books.threads[index]?.bind (publishing "book.created"), _))
  | .book (.arrive _) => .isTrue trivial
  | .consumer _ => .isTrue trivial
  | .fetch _ => .isTrue trivial
  | .save _ => .isTrue trivial

/-- The consumer is in its loop, the sync is done, and the queue is empty. -/
structure Settled (s : System) : Prop where
  consuming : s.consumer = .consuming
  done : ∃ result, s.sync = .done result
  empty : s.pending = []

/-- What stands for a live book in the review service, or is on its way to do so. -/
inductive Covered (s : System) (id : Nat) : Prop where
  | fetching (h : s.sync = .fetching)
  | held (item : BookIn) (hitem : item ∈ s.held) (hid : item.id = id) (hactive : item.isDeleted = false)
  | pending (msg : Message) (hmsg : msg ∈ s.pending) (h : msg.Announces "book.created" id)
  | stored (h : (s.replica.find? id).isSome)
  | creating (t : BookService.BookThread) (ht : t ∈ s.books.threads) (hcommitted : committed t = some id)
      (hthrough : through t = none)

structure StartInv (s : System) : Prop extends System.DeliveryInv s where
  covered : ∀ row ∈ s.books.store.books.rows, row.isDeleted = false → Covered s row.id
  held_deleted : ∀ item ∈ s.held, item.isDeleted = true →
    ∃ id : Nat, item.id = id ∧ HasDeletedRow s.books.store id

theorem startInv_start (books : BookService.BooksTable) (replica : BooksCollection) :
    StartInv (System.start books replica) where
  toDeliveryInv := System.deliveryInv_start books replica
  covered _ _ _ := .fetching rfl
  held_deleted _ hitem := by cases hitem

/-! ### Steps of the book service -/

theorem hasDeletedRow_step {p p' : BookService.BookPool} {move : BookService.BookMove}
    (hstep : BookService.service.machine.step p move = some p') {id : Nat}
    (h : HasDeletedRow p.store id) : HasDeletedRow p'.store id := by
  cases move with
  | arrive request =>
      obtain ⟨-, rfl⟩ := BookService.service.step_arrive hstep
      exact h
  | resume index env =>
      obtain ⟨t, op, resume, -, -, rfl⟩ := BookService.service.step_resume hstep
      exact BookService.hasDeletedRow_exec h op env

/-- A live row after a step was one before it, or has just been committed. -/
theorem live_step {p p' : BookService.BookPool} {move : BookService.BookMove}
    (hjust : BookService.Justified p) (hstep : BookService.service.machine.step p move = some p')
    {row : BookService.Book} (hrow : row ∈ p'.store.books.rows) (hlive : row.isDeleted = false) :
    row ∈ p.store.books.rows ∨
      ∃ t ∈ p'.threads, committed t = some row.id ∧ through t = none := by
  cases move with
  | arrive request =>
      obtain ⟨-, rfl⟩ := BookService.service.step_arrive hstep
      exact .inl hrow
  | resume index env =>
      obtain ⟨t, op, resume, ht, hcode, rfl⟩ := BookService.service.step_resume hstep
      obtain hold | ⟨title, author, rfl, hok⟩ := BookService.live_exec hrow hlive
      · exact .inl hold
      · right
        have hmem := List.mem_of_getElem? ht
        have hissued := hjust.issued_of_await hmem hcode
        refine ⟨_, List.mem_set (List.getElem?_eq_some_iff.mp ht).1 _, ?_⟩
        obtain ⟨request, trace, code⟩ := t
        cases hissued
        change (BookService.exec p.store (.commitNew title author) env).1 = .ok row.id at hok
        simp only [Service.advance, BookService.service, hok]
        exact ⟨rfl, rfl⟩

/-- A create that is past its commit stays so, or publishes its event. -/
theorem creating_step {p p' : BookService.BookPool} {move : BookService.BookMove}
    (hjust : BookService.Justified p) (hstep : BookService.service.machine.step p move = some p')
    {t : BookService.BookThread} (ht : t ∈ p.threads) {id : Nat} (hcommitted : committed t = some id)
    (hthrough : through t = none) :
    (∃ u ∈ p'.threads, committed u = some id ∧ through u = none) ∨
      ∃ index env row, move = .resume index env ∧ row.id = id ∧
        p.threads[index]?.bind (publishing "book.created") = some id ∧
        p'.store.published = p.store.published ++ [announcement "book.created" row] := by
  cases move with
  | arrive request =>
      obtain ⟨-, rfl⟩ := BookService.service.step_arrive hstep
      exact .inl ⟨t, List.mem_append_left _ ht, hcommitted, hthrough⟩
  | resume index env =>
      obtain ⟨u, op, resume, hu, hcode, rfl⟩ := BookService.service.step_resume hstep
      by_cases heq : t = u
      · subst heq
        have hadvance : committed (Service.advance t op resume (BookService.exec p.store op env).1) =
            some id := BookService.committed_advance_of_some hcommitted
        cases hafter : through (Service.advance t op resume (BookService.exec p.store op env).1) with
        | none =>
            exact .inl ⟨_, List.mem_set (List.getElem?_eq_some_iff.mp hu).1 _, hadvance, hafter⟩
        | some id' =>
            have hissued := hjust.issued_of_await ht hcode
            have hid := BookService.committed_of_through hafter
            rw [hadvance] at hid
            obtain rfl : id = id' := Option.some.inj hid
            obtain ⟨row, hrow, ⟨sent, hsent, hanswer⟩, rfl⟩ := BookService.through_advance hissued hafter
            obtain rfl := eq_of_heq hanswer
            refine .inr ⟨index, env, row, rfl, hrow, ?_, BookService.exec_publish_sent hsent⟩
            rw [hu, Option.bind_some]
            apply BookService.publishing_of_code hcode
            rw [← hrow]
            exact BookService.bookId?_announcement "book.created" row
      · exact .inl ⟨t, mem_set_of_ne hu ht heq, hcommitted, hthrough⟩

theorem mem_pending_of_bound {s : System} {books : BookService.BookPool} {new : List Message}
    (hbound : s.Bound) {msg : Message} (hmsg : msg ∈ new) (hkey : msg.routingKey = "book.created") :
    msg ∈ System.pending { s with books, queue := s.queue.map (·.receive new) } := by
  obtain ⟨queue, hqueue, hbinding⟩ := hbound
  have hsome : s.queue = some queue := hqueue
  have hreceived : msg ∈ new.filter fun msg => msg.routingKey ∈ queue.bindings := by
    rw [List.mem_filter]
    exact ⟨hmsg, by simpa [hkey] using hbinding⟩
  simp only [System.pending, hsome, Option.map_some, Option.getD_some, BookQueue.receive]
  exact List.mem_append_right _ hreceived

theorem pending_subset {s : System} (books : BookService.BookPool) (new : List Message) {msg : Message}
    (hmsg : msg ∈ s.pending) :
    msg ∈ System.pending { s with books, queue := s.queue.map (·.receive new) } := by
  obtain ⟨received, -, hpending⟩ := System.pending_receive s.queue new
  simp only [System.pending, hpending]
  exact List.mem_append_left _ hmsg

theorem covered_bookStep {s : System} (h : StartInv s) {move : BookService.BookMove}
    (hgap : NoGap s (.book move)) {books : BookService.BookPool} {new : List Message}
    (hstep : BookService.service.machine.step s.books move = some books)
    (hnew : books.store.published = s.published ++ new) {id : Nat} (hcovered : Covered s id) :
    Covered { s with books, queue := s.queue.map (·.receive new) } id := by
  cases hcovered with
  | fetching hsync => exact .fetching hsync
  | held item hitem hid hactive => exact .held item hitem hid hactive
  | pending msg hmsg hannounces => exact .pending msg (pending_subset books new hmsg) hannounces
  | stored hstored => exact .stored hstored
  | creating t ht hcommitted hthrough =>
      rcases creating_step h.events.justified hstep ht hcommitted hthrough with
        ⟨u, hu, hcommitted', hthrough'⟩ | ⟨index, env, row, rfl, hid, hpublishing, hpublished⟩
      · exact .creating u hu hcommitted' hthrough'
      · have hmsg : new = [announcement "book.created" row] := by
          rw [hnew] at hpublished
          exact List.append_cancel_left hpublished
        obtain hbound | hsync | ⟨item, hitem, hitemId, hactive⟩ | hstored := hgap id hpublishing
        · have hannounces : (announcement "book.created" row).Announces "book.created" id :=
            BookService.announces_announcement.mpr ⟨rfl, hid⟩
          refine .pending (announcement "book.created" row) ?_ hannounces
          apply mem_pending_of_bound hbound _ rfl
          rw [hmsg]
          exact List.mem_singleton_self _
        · exact .fetching hsync
        · exact .held item hitem hitemId hactive
        · exact .stored hstored

/-! ### Steps of the consumer and of the sync -/

/-- A delivery without failure keeps the document of a book that is not deleted. -/
theorem stored_deliver {s : System} (h : StartInv s) {row : BookService.Book}
    (hrow : row ∈ s.books.store.books.rows) (hlive : row.isDeleted = false) {msg : Message}
    (hmsg : msg ∈ s.pending) (hstored : (s.replica.find? row.id).isSome) :
    ((System.deliver s.replica msg false).find? row.id).isSome := by
  obtain ⟨key, sent, rfl, hlt, hdeleted⟩ := h.announces (.inr hmsg)
  obtain ⟨doc, hdoc⟩ := Option.isSome_iff_exists.mp hstored
  by_cases hcreated : key = "book.created"
  · rw [hcreated, deliver_created s.replica sent hlt, Collection.find?_upsertOne]
    split
    · rfl
    · exact hstored
  · by_cases hkey : key = "book.deleted"
    · have hne : doc ≠ ⟨sent.id, .str "43"⟩ := by
        rintro rfl
        have hid : (sent.id : Int) = row.id := (Collection.find?_eq_some.mp hdoc).2
        have hsame : sent.id = row.id := by omega
        have hmarked := hdeleted hkey
        rw [hsame] at hmarked
        rw [hmarked.isDeleted hrow] at hlive
        cases hlive
      rw [hkey, find?_deliver_deleted s.replica sent hlt, hdoc]
      simp [hne]
    · rw [deliver_other s.replica sent hcreated hkey]
      exact hstored

/-- A step of the review service that leaves the sync's phase keeps what does not depend on the queue
and the replica. -/
theorem Covered.of_consumer {s s' : System} {id : Nat} (h : Covered s id) (hsync : s'.sync = s.sync)
    (hbooks : s'.books = s.books)
    (hpending : ∀ msg ∈ s.pending, msg.Announces "book.created" id → Covered s' id)
    (hstored : (s.replica.find? id).isSome → (s'.replica.find? id).isSome) : Covered s' id := by
  cases h with
  | fetching hfetching => exact .fetching (hsync.trans hfetching)
  | held item hitem hid hactive =>
      refine .held item ?_ hid hactive
      rw [System.held, hsync]
      exact hitem
  | pending msg hmsg hannounces => exact hpending msg hmsg hannounces
  | stored h => exact .stored (hstored h)
  | creating t ht hcommitted hthrough => exact .creating t (hbooks ▸ ht) hcommitted hthrough

theorem covered_consumerStep {s s' : System} (h : StartInv s) {fails : Bool}
    (hcalm : s.consumer = .consuming → fails = false) (hstep : s.consumerStep fails = some s') {row : BookService.Book} (hrow : row ∈ s.books.store.books.rows) (hlive : row.isDeleted = false)
    (hcovered : Covered s row.id) : Covered s' row.id := by
  obtain ⟨msg, hconsuming, hpending, hs'⟩ | ⟨hpending, hs'⟩ := System.consumerStep_some hstep
  · obtain rfl := hcalm hconsuming
    have hmem : msg ∈ s.pending := by
      rw [hpending]
      exact List.mem_cons_self
    have hreplica : s'.replica = System.deliver s.replica msg false := by rw [hs']
    apply hcovered.of_consumer (by rw [hs']) (by rw [hs'])
    · intro other hother hannounces
      rw [hpending] at hother
      obtain rfl | hrest := List.mem_cons.mp hother
      · -- the event itself is delivered, and leaves a document
        obtain ⟨key, sent, rfl, hlt, -⟩ := h.announces (.inr hmem)
        obtain ⟨rfl, hid⟩ := BookService.announces_announcement.mp hannounces
        apply Covered.stored
        rw [hreplica, deliver_created s.replica sent hlt, ← hid, Collection.find?_upsertOne, if_pos rfl]
        rfl
      · exact .pending other hrest hannounces
    · intro hstored
      rw [hreplica]
      exact stored_deliver h hrow hlive hmem hstored
  · apply hcovered.of_consumer (by rw [hs']) (by rw [hs'])
    · intro other hother hannounces
      rw [← hpending] at hother
      exact .pending other hother hannounces
    · intro hstored
      rw [hs']
      exact hstored

/-- A bulk without a delete of the book keeps its document, and one with an upsert of it leaves one. -/
theorem stored_foldl {models : List WriteModel} {id : Int} {replica : BooksCollection}
    (hmodels : ∀ model ∈ models, model ≠ .deleteOne id)
    (h : (replica.find? id).isSome ∨ ∃ timestamp, .updateOne id timestamp ∈ models) :
    ((models.foldl WriteModel.execute replica).find? id).isSome := by
  induction models generalizing replica with
  | nil =>
      obtain h | ⟨_, hmem⟩ := h
      · exact h
      · cases hmem
  | cons model rest ih =>
      have hrest := fun other hother => hmodels other (List.mem_cons_of_mem model hother)
      rw [List.foldl_cons]
      apply ih hrest
      rw [find?_execute]
      obtain h | ⟨timestamp, hmem⟩ := h
      · left
        split
        · rename_i hid
          cases model with
          | deleteOne bookId =>
              have hdelete : WriteModel.deleteOne bookId = .deleteOne id :=
                congrArg WriteModel.deleteOne hid.symm
              exact absurd hdelete (hmodels _ List.mem_cons_self)
          | updateOne bookId timestamp => rfl
        · exact h
      · obtain rfl | hmem := List.mem_cons.mp hmem
        · left
          rw [if_pos (by rfl)]
          rfl
        · exact .inr ⟨timestamp, hmem⟩

theorem covered_saveStep {s s' : System} (h : StartInv s) {env : BulkEnv} (hraises : env.raises = false)
    (hstep : s.saveStep env = some s') {row : BookService.Book}
    (hrow : row ∈ s.books.store.books.rows) (hlive : row.isDeleted = false)
    (hcovered : Covered s row.id) : Covered s' row.id := by
  obtain ⟨items, sync, hsync, henv, rfl, -⟩ := System.saveStep_some hstep
  have hheld : s.held = items := by simp only [System.held, hsync]
  have hmodels : ∀ model ∈ env.executed, model ≠ .deleteOne (row.id : Int) := by
    rintro model hmodel rfl
    obtain ⟨item, hitem, hid, hshape⟩ := henv.item_of_mem hmodel
    cases hmarked : item.isDeleted with
    | false =>
        rw [hmarked] at hshape
        cases hshape
    | true =>
        obtain ⟨id, hitemId, hdeleted⟩ := h.held_deleted item (hheld ▸ hitem) hmarked
        have hsame : id = row.id := by
          change (row.id : Int) = item.id at hid
          omega
        rw [hsame] at hdeleted
        rw [hdeleted.isDeleted hrow] at hlive
        cases hlive
  cases hcovered with
  | fetching hfetching =>
      rw [hsync] at hfetching
      cases hfetching
  | held item hitem hid hactive =>
      refine .stored (stored_foldl hmodels (.inr ⟨.date env.currentTime, ?_⟩))
      have hperm : env.executed.Perm (convertToMongoWriteModel items env.currentTime) := by
        rw [BulkEnv.Unordered, hraises, if_neg Bool.false_ne_true] at henv
        exact henv
      rw [hperm.mem_iff, convertToMongoWriteModel, List.mem_map]
      exact ⟨item, hheld ▸ hitem, by rw [hactive, hid]; rfl⟩
  | pending msg hmsg hannounces => exact .pending msg hmsg hannounces
  | stored hstored => exact .stored (stored_foldl hmodels (.inl hstored))
  | creating t ht hcommitted hthrough => exact .creating t ht hcommitted hthrough

/-! ### Runs -/

theorem startInv_step (s : System) (move : SystemMove) (s' : System) (h : StartInv s)
    (hcond : Calm s move ∧ NoGap s move) (hstep : System.machine.step s move = some s') : StartInv s' := by
  obtain ⟨hcalm, hgap⟩ := hcond
  have hdelivery := System.deliveryInv_step s move s' h.toDeliveryInv hstep
  refine ⟨hdelivery, fun row hrow hlive => ?_, fun item hitem hmarked => ?_⟩
  · cases move with
    | book move =>
        obtain ⟨books, new, hbooks, hnew, rfl⟩ := System.bookStep_some hstep
        obtain hold | ⟨t, ht, hcommitted, hthrough⟩ := live_step h.events.justified hbooks hrow hlive
        · exact covered_bookStep h hgap hbooks hnew (h.covered row hold hlive)
        · exact .creating t ht hcommitted hthrough
    | consumer fails =>
        have hbooks : s'.books = s.books := by
          obtain ⟨_, -, -, hs'⟩ | ⟨-, hs'⟩ := System.consumerStep_some hstep
          · rw [hs']
          · rw [hs']
        rw [hbooks] at hrow
        exact covered_consumerStep h hcalm hstep hrow hlive (h.covered row hrow hlive)
    | fetch fails =>
        obtain ⟨-, rfl | rfl⟩ := System.fetchStep_some hstep
        · exact h.covered row hrow hlive
        · exact .held (bookIn row) (List.mem_map_of_mem hrow) rfl hlive
    | save env =>
        have hbooks : s'.books = s.books := by
          obtain ⟨_, _, -, -, rfl, -⟩ := System.saveStep_some hstep
          rfl
        rw [hbooks] at hrow
        exact covered_saveStep h hcalm hstep hrow hlive (h.covered row hrow hlive)
  · cases move with
    | book move =>
        obtain ⟨books, new, hbooks, -, rfl⟩ := System.bookStep_some hstep
        obtain ⟨id, hid, hdeleted⟩ := h.held_deleted item hitem hmarked
        exact ⟨id, hid, hasDeletedRow_step hbooks hdeleted⟩
    | consumer fails =>
        obtain ⟨_, -, -, hs'⟩ | ⟨-, hs'⟩ := System.consumerStep_some hstep
        · rw [hs'] at hitem ⊢
          exact h.held_deleted item hitem hmarked
        · rw [hs'] at hitem ⊢
          exact h.held_deleted item hitem hmarked
    | fetch fails =>
        obtain ⟨-, rfl | rfl⟩ := System.fetchStep_some hstep
        · exact h.held_deleted item hitem hmarked
        · obtain ⟨row, hrow, rfl⟩ := List.mem_map.mp hitem
          exact ⟨row.id, rfl, row, hrow, rfl, hmarked⟩
    | save env =>
        obtain ⟨_, sync, -, -, rfl, rfl | ⟨result, rfl⟩⟩ := System.saveStep_some hstep
        · cases hitem
        · cases hitem

/-- In every run without failures of the databases and of publishes whose steps meet `NoGap`: when the start-up has settled, every live
book whose create has published its event has a document. -/
theorem no_created_book_lost {books : BookService.BooksTable} {replica : BooksCollection}
    {moves : List SystemMove} {s : System}
    (hrun : System.machine.run (System.start books replica) moves = some s)
    (hmeets : System.machine.Meets (fun s move => Calm s move ∧ NoGap s move)
      (System.start books replica) moves)
    (hsettled : Settled s) : ∀ row ∈ s.books.store.books.rows, row.isDeleted = false →
      (∀ t ∈ s.books.threads, committed t = some row.id → through t = some row.id) →
        ∃ doc ∈ s.replica.docs, doc.bookId = row.id := by
  intro row hrow hlive hpublished
  have hinv := Machine.invariant_of_meets startInv_step (startInv_start books replica) hmeets hrun
  obtain ⟨result, hdone⟩ := hsettled.done
  cases hinv.covered row hrow hlive with
  | fetching hsync =>
      rw [hdone] at hsync
      cases hsync
  | held item hitem =>
      rw [System.held, hdone] at hitem
      cases hitem
  | pending msg hmsg =>
      rw [hsettled.empty] at hmsg
      cases hmsg
  | stored hstored =>
      obtain ⟨doc, hdoc⟩ := Option.isSome_iff_exists.mp hstored
      exact ⟨doc, Collection.find?_eq_some.mp hdoc⟩
  | creating t ht hcommitted hthrough =>
      rw [hpublished t ht hcommitted] at hthrough
      cases hthrough

/-! ### Two start-ups -/

/-- Book 1 is created while the review service starts up, after its queue is bound. -/
def createAfterBind : List SystemMove :=
  consumerUp ++ [.fetch false] ++ createOne ++ [.save ⟨7, [], false⟩]

theorem no_created_book_lost_createAfterBind :
    ∃ s, System.machine.run (System.start Table.empty .empty) createAfterBind = some s ∧
      ∃ doc ∈ s.replica.docs, doc.bookId = (1 : Nat) := by
  refine ⟨_, rfl, @no_created_book_lost Table.empty .empty createAfterBind _ rfl (by decide)
    ⟨rfl, ⟨_, rfl⟩, rfl⟩ ⟨1, "Emma", "Austen", false⟩ (List.mem_singleton_self _) rfl ?_⟩
  intro t ht hcommitted
  rw [List.mem_singleton.mp ht] at hcommitted ⊢
  exact hcommitted

/-- Book 1 is committed after the snapshot was read, and announced before the queue is declared. -/
def createInGap : List SystemMove :=
  .fetch false :: .book (.arrive (.create BookService.emma BookService.admin)) :: threeSteps 0 ++
    consumerUp ++ [.save ⟨7, [], false⟩]

theorem not_no_created_book_lost : ¬ ∀ books replica moves s,
    System.machine.run (System.start books replica) moves = some s →
      System.machine.Meets Calm (System.start books replica) moves → Settled s →
        ∀ row ∈ s.books.store.books.rows, row.isDeleted = false →
          ∃ doc ∈ s.replica.docs, doc.bookId = row.id := by
  intro h
  obtain ⟨doc, hdoc, -⟩ := h Table.empty .empty createInGap _ rfl (by decide) ⟨rfl, ⟨_, rfl⟩, rfl⟩
    ⟨1, "Emma", "Austen", false⟩ (List.mem_singleton_self _) rfl
  cases hdoc

end BookHub.Replication
