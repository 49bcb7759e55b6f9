import BookHub.ReviewService.Books

/-!
# The sync, over its attempts

A write model writes under one id and decides by what it finds there, so a bulk of models with
distinct ids may be read one id at a time: an id that no executed model names is as before, and an id
that one of them names has its effect, whatever the order. An attempt that fails has written a part of
its snapshot, and every snapshot is below the last one, so what it wrote is on the way to what the last
attempt writes: `Towards` is kept by every model of every attempt.
-/

namespace BookHub.ReviewService

/-- A later snapshot has the books of an earlier one, and what was deleted stays deleted. -/
def SnapshotLe (earlier later : List BookIn) : Prop :=
  ∀ item ∈ earlier, ∃ item' ∈ later, item'.id = item.id ∧
    (item.isDeleted = true → item'.isDeleted = true)

/-- The snapshots that the attempts have fetched. -/
def snapshots (attempts : List SyncAttempt) : List (List BookIn) :=
  attempts.filterMap fun attempt =>
    match attempt with
    | .fetched items _ => some items
    | _ => none

/-- Each bulk executes its models in some order, or a part of them if it fails, and the ids of a
snapshot are distinct. -/
def SyncAttempt.WellFormed : SyncAttempt → Prop
  | .fetched items env => env.Unordered items ∧ (items.map BookIn.id).Nodup
  | _ => True

instance (earlier later : List BookIn) : Decidable (SnapshotLe earlier later) :=
  inferInstanceAs (Decidable (∀ item ∈ earlier, ∃ item' ∈ later, _))

instance : (attempt : SyncAttempt) → Decidable attempt.WellFormed
  | .fetched _ _ => inferInstanceAs (Decidable (_ ∧ _))
  | .tokenFails => .isTrue trivial
  | .snapshotFails => .isTrue trivial

/-- What the sync leaves: `start` is the collection before the first attempt, `before` the one before
the last. -/
structure Synced (start before : BooksCollection) (items : List BookIn) (result : BulkResult)
    (after : BooksCollection) : Prop where
  active : ∀ item ∈ items, item.isDeleted = false →
    (after.docs.filter fun doc => doc.bookId == item.id).length = 1
  deleted : ∀ item ∈ items, item.isDeleted = true →
    after.docs.filter (fun doc => doc.bookId == item.id) = []
  others : ∀ id, (∀ item ∈ items, item.id ≠ id) →
    after.docs.filter (fun doc => doc.bookId == id) = start.docs.filter fun doc => doc.bookId == id
  kept : ∀ item ∈ items, item.isDeleted = false →
    ∀ doc ∈ start.docs, doc.bookId = item.id → doc ∈ after.docs
  upsertedCount : result.upsertedCount =
    items.countP fun item => !item.isDeleted && (before.find? item.id).isNone
  deletedCount : result.deletedCount =
    items.countP fun item => item.isDeleted && (before.find? item.id).isSome

/-! ### A bulk, one id at a time -/

theorem find?_foldl_of_not_mem {models : List WriteModel} {id : Int}
    (h : ∀ model ∈ models, model.bookId ≠ id) (books : BooksCollection) :
    (models.foldl WriteModel.execute books).find? id = books.find? id := by
  induction models generalizing books with
  | nil => rfl
  | cons model rest ih =>
      have hne : id ≠ model.bookId := (h model List.mem_cons_self).symm
      rw [List.foldl_cons, ih (fun other hother => h other (List.mem_cons_of_mem _ hother)),
        find?_execute, if_neg hne]

theorem find?_foldl_of_mem {models : List WriteModel} (hnodup : (models.map WriteModel.bookId).Nodup)
    {model : WriteModel} (hmodel : model ∈ models) (books : BooksCollection) :
    (models.foldl WriteModel.execute books).find? model.bookId =
      model.effect (books.find? model.bookId) := by
  induction models generalizing books with
  | nil => cases hmodel
  | cons first rest ih =>
      rw [List.map_cons, List.nodup_cons] at hnodup
      rw [List.foldl_cons]
      obtain rfl | hrest := List.mem_cons.mp hmodel
      · rw [find?_foldl_of_not_mem, find?_execute, if_pos rfl]
        intro other hother heq
        exact hnodup.1 (heq ▸ List.mem_map_of_mem hother)
      · have hne : model.bookId ≠ first.bookId := by
          intro heq
          exact hnodup.1 (heq ▸ List.mem_map_of_mem hrest)
        rw [ih hnodup.2 hrest, find?_execute, if_neg hne]

/-- What a model counts depends on what is there under its id. -/
theorem WriteModel.counts_congr {books books' : BooksCollection} {model : WriteModel}
    (h : books'.find? model.bookId = books.find? model.bookId) :
    model.upserts books' = model.upserts books ∧ model.deletes books' = model.deletes books := by
  cases model with
  | deleteOne id => exact ⟨rfl, congrArg Option.isSome h⟩
  | updateOne id timestamp => exact ⟨congrArg Option.isNone h, rfl⟩

/-- A bulk counts each model by what is there before the bulk. -/
theorem bulkWrite_counts {models : List WriteModel} (hnodup : (models.map WriteModel.bookId).Nodup)
    (books : BooksCollection) :
    (bulkWrite books models).1 = ⟨models.countP (·.upserts books), models.countP (·.deletes books)⟩ := by
  induction models generalizing books with
  | nil => rfl
  | cons model rest ih =>
      rw [List.map_cons, List.nodup_cons] at hnodup
      have hsame : ∀ other ∈ rest, other.upserts (model.execute books) = other.upserts books ∧
          other.deletes (model.execute books) = other.deletes books := by
        intro other hother
        apply WriteModel.counts_congr
        rw [find?_execute, if_neg]
        intro heq
        exact hnodup.1 (heq ▸ List.mem_map_of_mem hother)
      have hupserts : rest.countP (·.upserts (model.execute books)) = rest.countP (·.upserts books) :=
        List.countP_congr fun other hother => by rw [(hsame other hother).1]
      have hdeletes : rest.countP (·.deletes (model.execute books)) = rest.countP (·.deletes books) :=
        List.countP_congr fun other hother => by rw [(hsame other hother).2]
      simp only [bulkWrite, ih hnodup.2, hupserts, hdeletes, List.countP_cons]
      cases model.upserts books <;> cases model.deletes books <;> rfl

/-! ### Attempts that fail -/

/-- The way from the collection at the start to what a snapshot asks for. -/
structure Towards (start : BooksCollection) (items : List BookIn) (mid : BooksCollection) : Prop where
  others : ∀ id, (∀ item ∈ items, item.id ≠ id) → mid.find? id = start.find? id
  kept : ∀ item ∈ items, item.isDeleted = false →
    ∀ doc, start.find? item.id = some doc → mid.find? item.id = some doc

theorem Towards.refl (start : BooksCollection) (items : List BookIn) : Towards start items start :=
  ⟨fun _ _ => rfl, fun _ _ _ _ h => h⟩

theorem eq_of_id_eq {items : List BookIn} (hids : (items.map BookIn.id).Nodup) {item item' : BookIn}
    (hitem : item ∈ items) (hitem' : item' ∈ items) (h : item.id = item'.id) : item = item' :=
  List.inj_on_of_nodup_map hids hitem hitem' h

theorem towards_execute {start mid : BooksCollection} {items earlier : List BookIn} {env : BulkEnv}
    (hids : (items.map BookIn.id).Nodup) (hle : SnapshotLe earlier items)
    (henv : env.Unordered earlier) (h : Towards start items mid) {model : WriteModel}
    (hmodel : model ∈ env.executed) : Towards start items (model.execute mid) := by
  obtain ⟨old, hold, hid, hshape⟩ := henv.item_of_mem hmodel
  obtain ⟨last, hlast, hlastId, hdeleted⟩ := hle old hold
  refine ⟨fun id hnone => ?_, fun item hitem hactive doc hdoc => ?_⟩
  · have hne : id ≠ model.bookId := by
      intro heq
      exact hnone last hlast (by rw [hlastId, heq, hid])
    rw [find?_execute, if_neg hne]
    exact h.others id hnone
  · rw [find?_execute]
    split
    · rename_i heq
      -- the book was not deleted earlier either, so the model is an upsert, and finds the document
      have hsame : last = item := eq_of_id_eq hids hlast hitem (by rw [hlastId, heq, hid])
      have holdActive : old.isDeleted = false := by
        rw [← Bool.not_eq_true]
        intro hdel
        rw [hsame, hactive] at hdeleted
        exact Bool.noConfusion (hdeleted hdel)
      rw [hshape, holdActive, h.kept item hitem hactive doc hdoc]
      rfl
    · exact h.kept item hitem hactive doc hdoc

theorem towards_saveBooksSnapshot {start mid : BooksCollection} {items earlier : List BookIn}
    {env : BulkEnv} (hids : (items.map BookIn.id).Nodup) (hle : SnapshotLe earlier items)
    (henv : env.Unordered earlier) (h : Towards start items mid) :
    Towards start items (saveBooksSnapshot mid earlier env).2 := by
  rw [saveBooksSnapshot_snd henv]
  exact List.foldlRecOn env.executed _ h fun _ hmid _ hmodel =>
    towards_execute hids hle henv hmid hmodel

/-- Failed attempts lead on to the next one. -/
theorem startBookSync_append {books : BooksCollection} {failed : List SyncAttempt}
    (h : (startBookSync books failed).1 = none) (rest : List SyncAttempt) :
    startBookSync books (failed ++ rest) = startBookSync (startBookSync books failed).2 rest := by
  induction failed generalizing books with
  | nil => rfl
  | cons attempt tail ih =>
      cases attempt with
      | tokenFails => exact ih h
      | snapshotFails => exact ih h
      | fetched items env =>
          simp only [List.cons_append, startBookSync] at h ⊢
          cases hsave : saveBooksSnapshot books items env with
          | mk outcome after =>
              rw [hsave] at h
              cases outcome with
              | none => exact ih h
              | some result => cases h

theorem towards_startBookSync {start books : BooksCollection} {items : List BookIn}
    {failed : List SyncAttempt} (hids : (items.map BookIn.id).Nodup)
    (hle : ∀ earlier ∈ snapshots failed, SnapshotLe earlier items)
    (hwell : ∀ attempt ∈ failed, attempt.WellFormed) (h : Towards start items books) :
    Towards start items (startBookSync books failed).2 := by
  induction failed generalizing books with
  | nil => exact h
  | cons attempt tail ih =>
      have hwellTail := fun other hother => hwell other (List.mem_cons_of_mem attempt hother)
      cases attempt with
      | tokenFails => exact ih hle hwellTail h
      | snapshotFails => exact ih hle hwellTail h
      | fetched earlier env =>
          have henv := (hwell (.fetched earlier env) List.mem_cons_self).1
          have hsaved := towards_saveBooksSnapshot hids (hle earlier List.mem_cons_self) henv h
          simp only [startBookSync]
          cases hsave : saveBooksSnapshot books earlier env with
          | mk outcome after =>
              rw [hsave] at hsaved
              cases outcome with
              | none =>
                  have hleTail := fun other hother => hle other (List.mem_cons_of_mem earlier hother)
                  exact ih hleTail hwellTail hsaved
              | some result => exact hsaved

/-! ### The attempt that succeeds -/

theorem bookId_convert (items : List BookIn) (currentTime : Int) :
    (convertToMongoWriteModel items currentTime).map WriteModel.bookId = items.map BookIn.id := by
  rw [convertToMongoWriteModel, List.map_map]
  apply List.map_congr_left
  intro item _
  simp only [Function.comp_apply]
  split <;> rfl

theorem countP_convert (items : List BookIn) (currentTime : Int) (books : BooksCollection) :
    (convertToMongoWriteModel items currentTime).countP (·.upserts books) =
        items.countP (fun item => !item.isDeleted && (books.find? item.id).isNone) ∧
      (convertToMongoWriteModel items currentTime).countP (·.deletes books) =
        items.countP fun item => item.isDeleted && (books.find? item.id).isSome := by
  rw [convertToMongoWriteModel, List.countP_map, List.countP_map]
  constructor
  · apply List.countP_congr
    intro item _
    cases hdeleted : item.isDeleted <;> simp [hdeleted, WriteModel.upserts]
  · apply List.countP_congr
    intro item _
    cases hdeleted : item.isDeleted <;> simp [hdeleted, WriteModel.deletes]

/-- A bulk that executes all of its models does to each book what its snapshot asks for. -/
theorem saveBooksSnapshot_complete {items : List BookIn} {env : BulkEnv}
    (hids : (items.map BookIn.id).Nodup) (henv : env.Unordered items) (hraises : env.raises = false)
    (books : BooksCollection) :
    (∀ item ∈ items, (saveBooksSnapshot books items env).2.find? item.id =
        if item.isDeleted then none
        else some ((books.find? item.id).getD ⟨item.id, .date env.currentTime⟩)) ∧
      (saveBooksSnapshot books items env).1 =
        some ⟨items.countP fun item => !item.isDeleted && (books.find? item.id).isNone,
          items.countP fun item => item.isDeleted && (books.find? item.id).isSome⟩ := by
  have hperm : env.executed.Perm (convertToMongoWriteModel items env.currentTime) := by
    unfold BulkEnv.Unordered at henv
    rwa [hraises, if_neg Bool.false_ne_true] at henv
  have hnodup : (env.executed.map WriteModel.bookId).Nodup := by
    rw [(hperm.map WriteModel.bookId).nodup_iff, bookId_convert]
    exact hids
  constructor
  · intro item hitem
    have hmodel : (if item.isDeleted then WriteModel.deleteOne item.id
        else .updateOne item.id (.date env.currentTime)) ∈ env.executed :=
      hperm.mem_iff.mpr (List.mem_map_of_mem hitem)
    have hfound := find?_foldl_of_mem hnodup hmodel books
    rw [saveBooksSnapshot_snd henv]
    cases hdeleted : item.isDeleted <;>
      simpa [hdeleted, WriteModel.bookId, WriteModel.effect] using hfound
  · simp only [saveBooksSnapshot, hraises, bulkWrite_counts hnodup, hperm.countP_eq,
      countP_convert, Bool.false_eq_true, if_false]
    split
    · rename_i hnone
      rw [List.map_eq_nil_iff.mp hnone]
      rfl
    · rfl

/-- Any number of failed attempts, each with a part of its bulk executed, and then one that succeeds. -/
theorem startBookSync_synced {start : BooksCollection} {failed : List SyncAttempt}
    {items : List BookIn} {env : BulkEnv}
    (hfailed : (startBookSync start failed).1 = none) (hraises : env.raises = false)
    (hwell : ∀ attempt ∈ failed ++ [.fetched items env], attempt.WellFormed)
    (hgrow : (snapshots (failed ++ [.fetched items env])).Pairwise SnapshotLe) :
    ∃ result after, startBookSync start (failed ++ [.fetched items env]) = (some result, after) ∧
      Synced start (startBookSync start failed).2 items result after := by
  obtain ⟨henv, hids⟩ := hwell (.fetched items env) (by simp)
  have hle : ∀ earlier ∈ snapshots failed, SnapshotLe earlier items := by
    rw [snapshots, List.filterMap_append, List.pairwise_append] at hgrow
    exact fun earlier hearlier => hgrow.2.2 earlier hearlier items (List.mem_singleton_self _)
  have htowards := towards_startBookSync hids hle
    (fun attempt hattempt => hwell attempt (List.mem_append_left _ hattempt)) (Towards.refl start items)
  rw [startBookSync_append hfailed]
  generalize (startBookSync start failed).2 = before at htowards ⊢
  obtain ⟨hitems, hresult⟩ := saveBooksSnapshot_complete hids henv hraises before
  have hafter := towards_saveBooksSnapshot hids (fun item hitem => ⟨item, hitem, rfl, id⟩) henv htowards
  simp only [startBookSync]
  cases hsave : saveBooksSnapshot before items env with
  | mk outcome after =>
      rw [hsave] at hitems hresult hafter
      cases hresult
      refine ⟨_, _, rfl, fun item hitem hactive => ?_, fun item hitem hdeleted => ?_, fun id hnone => ?_,
        fun item hitem hactive doc hdoc hid => ?_, rfl, rfl⟩
      · rw [Collection.filter_key_eq, hitems item hitem, hactive]
        rfl
      · rw [Collection.filter_key_eq, hitems item hitem, hdeleted]
        rfl
      · rw [Collection.filter_key_eq, Collection.filter_key_eq, hafter.others id hnone]
      · have hstart : start.find? item.id = some doc := Collection.find?_eq_some.mpr ⟨hdoc, hid⟩
        exact (Collection.find?_eq_some.mp (hafter.kept item hitem hactive doc hstart)).1

/-- Three documents, of which the last attempt below deletes one and leaves the others. -/
def threeBooks : BooksCollection := ⟨[⟨1, .str "43"⟩, ⟨3, .date 5⟩, ⟨9, .str "43"⟩], by decide⟩

/-- No token, and then a bulk that stops after its second model. -/
def twoFailures : List SyncAttempt :=
  [.tokenFails, .fetched [⟨1, "Emma", "Austen", false⟩, ⟨2, "Ulysses", "Joyce", false⟩,
    ⟨3, "Nana", "Zola", false⟩] ⟨7, [.updateOne 3 (.date 7), .updateOne 2 (.date 7)], true⟩]

def lastItems : List BookIn :=
  [⟨1, "Emma", "Austen", false⟩, ⟨2, "Ulysses", "Joyce", false⟩, ⟨3, "Nana", "Zola", true⟩,
    ⟨4, "Faust", "Goethe", false⟩]

def lastEnv : BulkEnv :=
  ⟨8, [.updateOne 4 (.date 8), .deleteOne 3, .updateOne 1 (.date 8), .updateOne 2 (.date 8)], false⟩

theorem startBookSync_synced_twoFailures :
    ∃ result after, startBookSync threeBooks (twoFailures ++ [.fetched lastItems lastEnv]) =
        (some result, after) ∧
      Synced threeBooks (startBookSync threeBooks twoFailures).2 lastItems result after :=
  startBookSync_synced rfl rfl (by decide) (by decide)

end BookHub.ReviewService
