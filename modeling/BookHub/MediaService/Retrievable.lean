import BookHub.MediaService.Avatars

/-!
# At most one avatar

Removing an avatar takes the first match only, and an upload adds one. That there is never more than
one is kept because an upload removes and opens without waiting in between: when it opens, there is no
match left. The writing that comes later goes through a descriptor and adds no name.
-/

namespace BookHub.MediaService

/-- The names of the directory that match `id.*`. -/
def Disk.matching (d : Disk) (id : String) : List String :=
  d.names.filter fun name => fnmatch (id.toList ++ ['.', '*']) name.toList

/-- No user has two avatars that could be retrieved. -/
def AtMostOne (d : Disk) : Prop := ∀ id, IsNumeral id → (d.matching id).length ≤ 1

/-- The operation of the move can list the directory. -/
def Lists : Move DiskEnv MediaRequest → Prop
  | .arrive _ => True
  | .resume _ env => env.listingFails = false

section Disk

variable {d : Disk} {id : String}

theorem mem_matching (hid : IsNumeral id) {name : String} :
    name ∈ d.matching id ↔ name ∈ d.names ∧ Matches id name := by
  rw [Disk.matching, List.mem_filter, fnmatch_iff_matches hid]

theorem nodup_matching (d : Disk) (id : String) : (d.matching id).Nodup := d.dir.nodup.filter _

/-- Where no two names match, at most one does. -/
theorem atMostOne_iff : AtMostOne d ↔ ∀ id, IsNumeral id → ∀ name ∈ d.matching id,
    ∀ name' ∈ d.matching id, name = name' := by
  refine forall_congr' fun id => imp_congr_right fun _ => ?_
  have hnodup := nodup_matching d id
  cases hnames : d.matching id with
  | nil => simp
  | cons first rest =>
      cases rest with
      | nil => simp
      | cons second rest =>
          rw [hnames] at hnodup
          refine iff_of_false (by simp) ?_
          intro h
          have hsame := h first List.mem_cons_self second
            (List.mem_cons_of_mem first List.mem_cons_self)
          rw [hsame] at hnodup
          simp at hnodup

theorem glob_perm_matching {env : DiskEnv} (h : env.listingFails = false) :
    (d.glob id env).Perm (d.matching id) := by
  unfold Disk.glob Disk.matching Disk.listdir
  rw [h, if_neg Bool.false_ne_true]
  split
  · rename_i hperm
    exact hperm.filter _
  · exact List.Perm.refl _

theorem mem_names_unlink {name name' : String} :
    name' ∈ (d.unlink name).names ↔ name' ∈ d.names ∧ name' ≠ name := by
  unfold Disk.names Collection.keys
  simp only [List.mem_map, mem_unlink]
  constructor
  · intro h
    obtain ⟨file, ⟨hfile, hne⟩, rfl⟩ := h
    exact ⟨⟨file, hfile, rfl⟩, hne⟩
  · intro h
    obtain ⟨⟨file, hfile, rfl⟩, hne⟩ := h
    exact ⟨file, ⟨hfile, hne⟩, rfl⟩

theorem atMostOne_unlink (h : AtMostOne d) (name : String) : AtMostOne (d.unlink name) := by
  rw [atMostOne_iff] at h ⊢
  intro id hid first hfirst second hsecond
  rw [mem_matching hid, mem_names_unlink] at hfirst hsecond
  apply h id hid
  · exact (mem_matching hid).mpr ⟨hfirst.1.1, hfirst.2⟩
  · exact (mem_matching hid).mpr ⟨hsecond.1.1, hsecond.2⟩

theorem mem_names_openForWrite {writer name name' : String}
    (h : name' ∈ (d.openForWrite writer name).2.names) : name' ∈ d.names ∨ name' = name := by
  unfold Disk.openForWrite at h
  split at h
  · exact Or.inl h
  · obtain ⟨file, hfile, rfl⟩ := List.mem_map.mp h
    obtain ⟨hold, -⟩ | rfl := Collection.mem_put.mp hfile
    · exact Or.inl (List.mem_map_of_mem hold)
    · exact Or.inr rfl

end Disk

/-! ### The operations -/

/-- A removal that goes through leaves no avatar of the user. -/
theorem removeAvatar_spec {d : Disk} (h : AtMostOne d) (jwt : AvatarUser) {env : DiskEnv}
    (hlists : env.listingFails = false) :
    AtMostOne (removeAvatar d jwt env).2 ∧ ∀ removed, (removeAvatar d jwt env).1 = .ok removed →
      ∀ name ∈ (removeAvatar d jwt env).2.names, ¬Matches jwt.id name := by
  have hperm : (d.glob jwt.id env).Perm (d.matching jwt.id) := glob_perm_matching hlists
  unfold removeAvatar
  cases hglob : d.glob jwt.id env with
  | nil =>
      refine ⟨h, ?_⟩
      intro removed _ name hname hmatches
      rw [hglob] at hperm
      have hmem := (mem_matching jwt.numeral).mpr ⟨hname, hmatches⟩
      rw [hperm.symm.eq_nil] at hmem
      cases hmem
  | cons first rest =>
      dsimp only
      split
      · refine ⟨h, ?_⟩
        intro removed hremoved
        cases hremoved
      · refine ⟨atMostOne_unlink h first, ?_⟩
        intro removed _ name hname hmatches
        obtain ⟨hold, hne⟩ := mem_names_unlink.mp hname
        have hfirst : first ∈ d.matching jwt.id := by
          rw [← hperm.mem_iff, hglob]
          exact List.mem_cons_self
        have hmem := (mem_matching jwt.numeral).mpr ⟨hold, hmatches⟩
        exact hne (atMostOne_iff.mp h jwt.id jwt.numeral name hmem first hfirst)

/-- A new name after a user who has no avatar is the only match of that user, and no other user's. -/
theorem atMostOne_openForWrite {d : Disk} (h : AtMostOne d) {jwt : AvatarUser} {name : String}
    (hnamed : NamedAfter jwt.id name) (hnone : ∀ name ∈ d.names, ¬Matches jwt.id name) :
    AtMostOne (d.openForWrite jwt.id name).2 := by
  rw [atMostOne_iff] at h ⊢
  intro id hid first hfirst second hsecond
  rw [mem_matching hid] at hfirst hsecond
  -- with the new name among them, the pattern is that of the user
  have hold : ∀ other ∈ d.names, Matches id other → ¬Matches id name := by
    intro other hother hmatches hnew
    rw [hnamed.eq_of_matches hid hnew] at hmatches
    exact hnone other hother hmatches
  obtain hfirst' | rfl := mem_names_openForWrite hfirst.1
  · obtain hsecond' | rfl := mem_names_openForWrite hsecond.1
    · apply h id hid
      · exact (mem_matching hid).mpr ⟨hfirst', hfirst.2⟩
      · exact (mem_matching hid).mpr ⟨hsecond', hsecond.2⟩
    · exact absurd hsecond.2 (hold first hfirst' hfirst.2)
  · obtain hsecond' | rfl := mem_names_openForWrite hsecond.1
    · exact absurd hfirst.2 (hold second hsecond' hsecond.2)
    · rfl

theorem atMostOne_beginUpload {d : Disk} (h : AtMostOne d) (jwt : AvatarUser)
    (filename : Option String) {env : DiskEnv} (hlists : env.listingFails = false) :
    AtMostOne (beginUpload d jwt filename env).2 := by
  obtain ⟨hmid, hnone⟩ := removeAvatar_spec h jwt hlists
  unfold beginUpload
  cases hremove : removeAvatar d jwt env with
  | mk result mid =>
      rw [hremove] at hmid hnone
      cases result with
      | error err => exact hmid
      | ok removed =>
          cases removed with
          | false => exact hmid
          | true =>
              cases filename with
              | none => exact hmid
              | some filename =>
                  dsimp only
                  split
                  · exact hmid
                  · exact atMostOne_openForWrite hmid (namedAfter_splitext jwt.numeral filename)
                      (hnone true rfl)

theorem atMostOne_finishUpload {d : Disk} (h : AtMostOne d) (fd : Nat) (env : DiskEnv) :
    AtMostOne (finishUpload d fd env).2 := by
  unfold finishUpload
  split
  · exact h
  · split <;> exact h

theorem atMostOne_exec {d : Disk} (h : AtMostOne d) (op : MediaOp) {env : DiskEnv}
    (hlists : env.listingFails = false) : AtMostOne (exec d op env).2 := by
  cases op with
  | beginUpload jwt filename => exact atMostOne_beginUpload h jwt filename hlists
  | finishUpload fd => exact atMostOne_finishUpload h fd env
  | removeAvatar jwt => exact (removeAvatar_spec h jwt hlists).1
  | findAvatar jwt => exact h
  | openFile name =>
      simp only [exec]
      split <;> exact h
  | readFile fd => exact h

/-! ### Over all runs -/

/-- From an empty directory, in every state of every interleaving, with whatever names are uploaded and
whatever reads, opens, writes and removals fail. -/
theorem always_atMostOne {moves : List (Move DiskEnv MediaRequest)}
    (hlists : ∀ move ∈ moves, Lists move) :
    service.machine.Always (fun p => AtMostOne p.store) (Service.start Disk.empty) moves := by
  have hmeets := Machine.meets_of_labels (m := service.machine) hlists (Service.start Disk.empty)
  apply Machine.always_of_meets _ (fun _ h => h) _ hmeets
  · intro p move p' h hmove hstep
    cases move with
    | arrive request =>
        obtain ⟨-, rfl⟩ := service.step_arrive hstep
        exact h
    | resume index env =>
        obtain ⟨t, op, resume, -, -, rfl⟩ := service.step_resume hstep
        exact atMostOne_exec h op hmove
  · intro id _
    exact Nat.zero_le 1

/-- One user uploads a picture and, before its contents are there, another one. -/
def twoUploads : List (Move DiskEnv MediaRequest) :=
  let jwt : AvatarUser := ⟨⟨"7", "Ada", "ada@b.c", "user"⟩, by decide⟩
  [.arrive ⟨jwt, .upload (some "me.png")⟩, .arrive ⟨jwt, .upload (some "new.jpg")⟩,
    .resume 0 ⟨[], false, false, false, none, none⟩,
    .resume 1 ⟨["7.png"], false, false, false, none, none⟩,
    .resume 0 ⟨[], false, false, false, some [1], none⟩,
    .resume 1 ⟨[], false, false, false, some [2], none⟩]

theorem always_atMostOne_twoUploads :
    service.machine.Always (fun p => AtMostOne p.store) (Service.start Disk.empty) twoUploads := by
  apply always_atMostOne
  intro move hmove
  simp only [twoUploads, List.mem_cons, List.not_mem_nil, or_false] at hmove
  obtain rfl | rfl | rfl | rfl | rfl | rfl := hmove <;> trivial

end BookHub.MediaService
