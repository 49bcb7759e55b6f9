import BookHub.ReviewService.Reviews

/-!
# Who removes a review

`RemoveReview` checks the owner of the review it has found and then deletes by id, in two calls. What
it deletes is what it has checked as long as nobody stores another review under that id in between:
ids are the caller's to choose in the body of `AddReview`, so this is a condition on the schedule, and
`removed_by_owner` holds of the schedules that meet it.
-/

namespace BookHub.ReviewService

/-- The review that a thread waits to insert. -/
def inserting (t : ReviewThread) : Option Review :=
  match t.code with
  | .await (.insertOne item) _ => some item
  | _ => none

/-- The id that a thread waits to delete. -/
def deleting (t : ReviewThread) : Option ObjectId :=
  match t.code with
  | .await (.deleteOne id) _ => some id
  | _ => none

/-- The step does not store a review of one user under an id for which another user, not an admin, has
passed the ownership check and not yet deleted. -/
def NotReused (p : ReviewPool) : ReviewMove → Prop
  | .arrive _ => True
  | .resume index env => ∀ item ∈ p.threads[index]?.bind inserting, ∀ t ∈ p.threads,
      deleting t = some (env.stored item).id →
        t.request.claims.subject = item.userId ∨ t.request.claims.role = "admin"

instance (p : ReviewPool) : (move : ReviewMove) → Decidable (NotReused p move)
  | .arrive _ => .isTrue trivial
  | .resume index _ => inferInstanceAs (Decidable (∀ item ∈ p.threads[index]?.bind inserting, _))

/-- The thread has stored the review, for its own user. -/
def AddedBy (t : ReviewThread) (review : Review) : Prop :=
  (∃ body, t.request = .add t.request.claims body) ∧ review.userId = t.request.claims.subject ∧
    ∃ item, ⟨.insertOne item, .ok review.id⟩ ∈ t.trace ∧ review = { item with id := review.id }

structure OwnerInv (p : ReviewPool) : Prop where
  justified : Service.Justified (fun _ _ => True) Issued p
  checked : ∀ t ∈ p.threads, ∀ id, deleting t = some id → t.request.claims.role = "admin" ∨
    ∀ review ∈ p.store.docs, review.id = id → review.userId = t.request.claims.subject
  added : ∀ review ∈ p.store.docs, ∃ t ∈ p.threads, AddedBy t review

theorem stored_eq (env : ReviewEnv) (item : Review) :
    env.stored item = { item with id := (env.stored item).id } := by
  unfold ReviewEnv.stored
  split <;> rfl

theorem userId_stored (env : ReviewEnv) (item : Review) : (env.stored item).userId = item.userId := by
  rw [stored_eq]

theorem deleting_eq_some {t : ReviewThread} {id : ObjectId} (h : deleting t = some id) :
    ∃ resume, t.code = .await (.deleteOne id) resume := by
  unfold deleting at h
  split at h
  · rename_i resume hcode
    cases h
    exact ⟨resume, hcode⟩
  · cases h

/-- What waits to delete has passed the check on the review it has found. -/
theorem Issued.deleteOne_inv {request : ReviewRequest} {trace : List ReviewEvent} {id : ObjectId}
    (h : Issued request trace (.deleteOne id)) :
    (∃ reviewId, request = .remove request.claims reviewId) ∧
      ∃ dbReview, trace = [⟨.findOne id, .ok dbReview⟩] ∧
        (request.claims.subject = dbReview.userId ∨ request.claims.role = "admin") := by
  cases h with
  | deleteOne claims reviewId objID dbReview howner =>
      exact ⟨⟨reviewId, rfl⟩, dbReview, rfl, howner⟩

theorem Issued.insertOne_inv {request : ReviewRequest} {trace : List ReviewEvent} {item : Review}
    (h : Issued request trace (.insertOne item)) :
    (∃ body, request = .add request.claims body) ∧ item.userId = request.claims.subject := by
  cases h with
  | insertOne claims body timestamp => exact ⟨⟨some body, rfl⟩, rfl⟩

theorem ownerInv_start : OwnerInv (Service.start .empty) where
  justified := Service.justified_start _
  checked := by simp [Service.start]
  added := by simp [Service.start, Collection.empty]

theorem ownerInv_arrive {p : ReviewPool} (h : OwnerInv p) (request : ReviewRequest)
    (hjust : Service.Justified (fun _ _ => True) Issued
      ⟨p.store, p.threads ++ [reviewService.spawn request]⟩) :
    OwnerInv ⟨p.store, p.threads ++ [reviewService.spawn request]⟩ := by
  refine ⟨hjust, fun t ht id hid => ?_, fun review hreview => ?_⟩
  · obtain ht | ht := List.mem_append.mp ht
    · exact h.checked t ht id hid
    · obtain ⟨resume, hcode⟩ := deleting_eq_some hid
      have hissued := hjust.issued_of_await (List.mem_append_right _ ht) hcode
      rw [List.mem_singleton.mp ht] at hissued
      obtain ⟨-, dbReview, htrace, -⟩ := hissued.deleteOne_inv
      cases htrace
  · obtain ⟨t, ht, hadded⟩ := h.added review hreview
    exact ⟨t, List.mem_append_left _ ht, hadded⟩

/-- The thread that has just passed the check has found the review that is in the collection. -/
theorem checked_advance {s : ReviewsCollection} {env : ReviewEnv} (t : ReviewThread) {op : ReviewOp}
    {id : ObjectId}
    (hissued : Issued t.request (t.trace ++ [⟨op, (exec s op env).1⟩]) (.deleteOne id)) :
    t.request.claims.role = "admin" ∨
      ∀ review ∈ (exec s op env).2.docs, review.id = id → review.userId = t.request.claims.subject := by
  obtain ⟨-, dbReview, htrace, howner⟩ := hissued.deleteOne_inv
  cases hold : t.trace with
  | cons event rest => simp [hold] at htrace
  | nil =>
      rw [hold, List.nil_append, List.singleton_inj] at htrace
      obtain ⟨rfl, hanswer⟩ := Sigma.mk.inj htrace
      obtain ⟨hfound, hfoundId⟩ := exec_findOne_ok (eq_of_heq hanswer)
      obtain howner | hadmin := howner
      · right
        intro review hreview hid
        obtain hstored | ⟨_, hop, -, -⟩ := mem_exec hreview
        · rw [List.inj_on_of_nodup_map s.nodup hstored hfound (hid.trans hfoundId.symm), howner]
        · cases hop
      · exact .inl hadmin

theorem ownerInv_resume {p : ReviewPool} (h : OwnerInv p) {index : Nat} {env : ReviewEnv}
    (hnot : NotReused p (.resume index env)) {t : ReviewThread} {op : ReviewOp}
    {resume : Except MongoError (reviewSig.Answer op) → ReviewM ReviewResponse}
    (ht : p.threads[index]? = some t) (hcode : t.code = .await op resume)
    {t' : ReviewThread} (ht' : t' = Service.advance t op resume (exec p.store op env).1)
    (hjust : Service.Justified (fun _ _ => True) Issued
      ⟨(exec p.store op env).2, p.threads.set index t'⟩) :
    OwnerInv ⟨(exec p.store op env).2, p.threads.set index t'⟩ := by
  have hmem := List.mem_of_getElem? ht
  have hmem' : t' ∈ p.threads.set index t' := List.mem_set (List.getElem?_eq_some_iff.mp ht).1 t'
  have hissued := h.justified.issued_of_await hmem hcode
  refine ⟨hjust, fun u hu id hid => ?_, fun review hreview => ?_⟩
  · obtain hold | rfl := List.mem_or_eq_of_mem_set hu
    · obtain hadmin | howner := h.checked u hold id hid
      · exact .inl hadmin
      · by_cases hreused : ∃ item, op = .insertOne item ∧ (env.stored item).id = id
        · -- the id is taken again, by the same user or under an admin's check
          obtain ⟨item, rfl, rfl⟩ := hreused
          have hinserting : inserting t = some item := by
            simp only [inserting, hcode]
          obtain hsubject | hadmin := hnot item (by rw [ht]; exact hinserting) u hold hid
          · right
            intro review hreview hreviewId
            obtain hstored | ⟨item', hop, rfl, -⟩ := mem_exec hreview
            · exact howner review hstored hreviewId
            · cases hop
              rw [userId_stored, hsubject]
          · exact .inl hadmin
        · right
          intro review hreview hreviewId
          obtain hstored | ⟨item, hop, rfl, -⟩ := mem_exec hreview
          · exact howner review hstored hreviewId
          · exact absurd ⟨item, hop, hreviewId⟩ hreused
    · obtain ⟨resume', hcode'⟩ := deleting_eq_some hid
      have hissued' := hjust.issued_of_await hmem' hcode'
      rw [ht'] at hissued' ⊢
      exact checked_advance t hissued'
  · obtain hstored | ⟨item, rfl, rfl, hok⟩ := mem_exec hreview
    · obtain ⟨u, hu, hadded⟩ := h.added review hstored
      by_cases heq : u = t
      · obtain ⟨hbody, huser, item, htrace, hreviewEq⟩ := heq ▸ hadded
        refine ⟨t', hmem', ?_⟩
        rw [ht']
        exact ⟨hbody, huser, item, List.mem_append_left _ htrace, hreviewEq⟩
      · exact ⟨u, mem_set_of_ne ht hu heq, hadded⟩
    · obtain ⟨hbody, huser⟩ := hissued.insertOne_inv
      refine ⟨t', hmem', ?_⟩
      rw [ht', hok]
      refine ⟨hbody, (userId_stored env item).trans huser, item, ?_, stored_eq env item⟩
      exact List.mem_append_right _ (List.mem_singleton_self _)

theorem ownerInv_step (p : ReviewPool) (move : ReviewMove) (p' : ReviewPool) (h : OwnerInv p)
    (hnot : NotReused p move) (hstep : reviewService.machine.step p move = some p') : OwnerInv p' := by
  have hjust := reviewService.justified_step (fun _ _ _ => trivial) issues_handler p move p'
    h.justified hstep
  cases move with
  | arrive request =>
      obtain ⟨-, rfl⟩ := reviewService.step_arrive hstep
      exact ownerInv_arrive h request hjust
  | resume index env =>
      obtain ⟨t, op, resume, ht, hcode, rfl⟩ := reviewService.step_resume hstep
      exact ownerInv_resume h hnot ht hcode rfl hjust

/-- The step, if it removes a stored review, is the delete of a `RemoveReview` by the owner of that
review or by an admin. -/
def RemovedByOwner (p : ReviewPool) (move : ReviewMove) (p' : ReviewPool) : Prop :=
  ∀ review ∈ p.store.docs, review ∉ p'.store.docs →
    ∃ index env t claims reviewId, move = .resume index env ∧ p.threads[index]? = some t ∧
      t.request = .remove claims reviewId ∧
      (claims.subject = review.userId ∨ claims.role = "admin")

theorem OwnerInv.removedByOwner {p p' : ReviewPool} (h : OwnerInv p) {move : ReviewMove}
    (hstep : reviewService.machine.step p move = some p') : RemovedByOwner p move p' := by
  intro review hreview hgone
  cases move with
  | arrive request =>
      obtain ⟨-, rfl⟩ := reviewService.step_arrive hstep
      exact absurd hreview hgone
  | resume index env =>
      obtain ⟨t, op, resume, ht, hcode, rfl⟩ := reviewService.step_resume hstep
      have hmem := List.mem_of_getElem? ht
      obtain rfl := deleteOne_of_gone hreview hgone
      obtain ⟨⟨reviewId, hrequest⟩, -⟩ := (h.justified.issued_of_await hmem hcode).deleteOne_inv
      have hdeleting : deleting t = some review.id := by
        simp only [deleting, hcode]
      refine ⟨index, env, t, t.request.claims, reviewId, rfl, ht, hrequest, ?_⟩
      obtain hadmin | howner := h.checked t hmem review.id hdeleting
      · exact .inr hadmin
      · exact .inl (howner review hreview rfl).symm

/-- A review service without reviews. -/
def newReviews : ReviewPool := Service.start .empty

/-- In every run whose inserts do not reuse an id under check, what a step removes is removed by its
owner or an admin, and every stored review was added by the user it names. -/
theorem removed_by_owner {moves : List ReviewMove} {p : ReviewPool}
    (hrun : reviewService.machine.run newReviews moves = some p)
    (hnot : reviewService.machine.Meets NotReused newReviews moves) :
    (∀ move p', reviewService.machine.step p move = some p' → RemovedByOwner p move p') ∧
      ∀ review ∈ p.store.docs, ∃ t ∈ p.threads, AddedBy t review := by
  have hinv := Machine.invariant_of_meets ownerInv_step ownerInv_start hnot hrun
  exact ⟨fun _ _ hstep => hinv.removedByOwner hstep, hinv.added⟩

def reader : JwtUser := ⟨"2", "user"⟩

def reviewSeven : Review := ⟨7, "1", "", 5, "Fine.", 0⟩

def pathSeven : String := "000000000000000000000007"

def calm : ReviewEnv := ⟨1700000000000, 1, false⟩

/-- A user adds a review and is about to delete it. -/
def addThenCheck : List ReviewMove :=
  [.arrive (.add reader (some reviewSeven)), .resume 0 calm, .resume 0 calm,
    .arrive (.remove reader pathSeven), .resume 1 calm]

theorem removed_by_owner_addThenCheck :
    ∃ p, reviewService.machine.run newReviews addThenCheck = some p ∧ p.store.docs.length = 1 ∧
      (∀ move p', reviewService.machine.step p move = some p' → RemovedByOwner p move p') ∧
      ∀ review ∈ p.store.docs, ∃ t ∈ p.threads, AddedBy t review :=
  ⟨_, rfl, rfl, @removed_by_owner addThenCheck _ rfl (by decide)⟩

/-- After the check, the user deletes the review through a second request, and another user adds one
under the same id. -/
def checkThenReuse : List ReviewMove :=
  addThenCheck ++ [.arrive (.remove reader pathSeven), .resume 2 calm, .resume 2 calm,
    .arrive (.add ⟨"3", "user"⟩ (some reviewSeven)), .resume 3 calm, .resume 3 calm]

theorem not_removed_by_owner : ¬ ∀ (moves : List ReviewMove) (p : ReviewPool),
    reviewService.machine.run newReviews moves = some p →
      (∀ move p', reviewService.machine.step p move = some p' → RemovedByOwner p move p') ∧
        ∀ review ∈ p.store.docs, ∃ t ∈ p.threads, AddedBy t review := by
  intro h
  have hremoved := (h checkThenReuse _ rfl).1 (.resume 1 calm) _ rfl
    ⟨7, "1", "3", 5, "Fine.", 1700000000000⟩ (List.mem_singleton_self _) List.not_mem_nil
  obtain ⟨index, env, t, claims, reviewId, hmove, ht, hrequest, howner⟩ := hremoved
  cases hmove
  cases ht
  cases hrequest
  revert howner
  decide

end BookHub.ReviewService
