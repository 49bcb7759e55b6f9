import BookHub.MediaService.Retrievable
import BookHub.MediaService.Uploads

/-!
# What was uploaded is read back

The requests of all users, one after the other. An upload is stored under the id and the extension of
the name that the client gave, and is looked for under the id and a dot: a name without an extension is
stored where no lookup finds it. Where every upload that succeeds has an extension, a user who asks
gets the bytes uploaded last, and after a removal nothing: `readBack_iff_hasExtension`.
-/

namespace BookHub.MediaService

/-- A request that runs from its start to its end, with what its operations meet. -/
structure Visit where
  request : MediaRequest
  env : Nat → DiskEnv

/-- The directory can be listed. -/
def Visit.Lists (visit : Visit) : Prop := (visit.env 0).listingFails = false

/-- The disk, and what one user is to be answered: the bytes uploaded last, or that there are none; `none`
if a later upload or removal has failed, or if there was none yet. -/
structure Watch where
  disk : Disk
  last : Option (Option Bytes)

def Watch.start : Watch := ⟨Disk.empty, none⟩

/-- What the user is to be answered after a visit. -/
def Visit.nextLast (visit : Visit) (last : Option (Option Bytes)) :
    Except MediaError MediaAnswer → Option (Option Bytes)
  | .ok (.response (some _)) => (visit.env 1).content.map some
  | .ok (.removed true) => some none
  | _ => match visit.request.route with
    | .get => last
    | _ => none

/-- The requests one after the other. -/
def watch (jwt : AvatarUser) : Machine Watch Visit where
  step s visit :=
    let (answer, disk) := (handler visit.request).eval exec visit.env s.disk
    some ⟨disk, if visit.request.jwt.id = jwt.id then visit.nextLast s.last answer else s.last⟩

/-- The answer to a user who asks for the avatar. -/
def Answers : Option Bytes → Except MediaError MediaAnswer → Prop
  | some bytes, answer => ∃ name, answer = .ok (.file name bytes)
  | none, answer => answer = .error (.http 404 "File not found")

/-- Whenever the user asks, and the directory can be listed and the file opened, the answer is what it
is to be. -/
def ReadBack (jwt : AvatarUser) (s : Watch) : Prop :=
  ∀ expected, s.last = some expected → ∀ env : Nat → DiskEnv, (env 0).listingFails = false →
    (env 1).openFails = false → Answers expected ((getAvatar jwt).eval exec env s.disk).1

/-- An upload of the user that succeeds has a file name with an extension. -/
def HasExtension (jwt : AvatarUser) (s : Watch) (visit : Visit) : Prop :=
  visit.request.jwt.id = jwt.id → ∀ filename, visit.request.route = .upload (some filename) →
    Succeeds s.disk visit.request.jwt (some filename) visit.env → splitext filename ≠ ""

/-! ### Asking -/

/-- The bytes of the avatar. -/
def Disk.avatar? (d : Disk) (id : String) : Option Bytes := (d.matching id).head?.bind d.read?

theorem eq_of_perm {α : Type} {l l' : List α} (h : l.Perm l') (hlength : l'.length ≤ 1) : l = l' := by
  cases l' with
  | nil => exact h.eq_nil
  | cons x rest =>
      have hrest : rest = [] := by
        cases rest with
        | nil => rfl
        | cons y rest => simp at hlength
      subst hrest
      exact List.perm_singleton.mp h

theorem glob_eq_matching {d : Disk} (h : AtMostOne d) {id : String} (hid : IsNumeral id)
    {env : DiskEnv} (hlists : env.listingFails = false) : d.glob id env = d.matching id :=
  eq_of_perm (glob_perm_matching hlists) (h id hid)

theorem eval_get (d : Disk) (jwt : AvatarUser) (env : Nat → DiskEnv) :
    (getAvatar jwt).eval exec env d =
      match findAvatar d jwt (env 0) with
      | .error err => (.error err, d)
      | .ok name =>
          match (exec d (.openFile name) (env 1)).1 with
          | .error err => (.error err, d)
          | .ok fd => (((exec d (.readFile fd) (env 2)).1).map fun content => .file name content, d) := by
  have hfind : exec d (.findAvatar jwt) (env 0) = (findAvatar d jwt (env 0), d) := rfl
  simp only [getAvatar, call, Coroutine.perform, Coroutine.await_bind, Coroutine.eval_await, hfind]
  cases findAvatar d jwt (env 0) with
  | error err => rfl
  | ok name =>
      have hsame := (exec_openFile d name (env 1)).1
      simp only [Coroutine.ok_bind, Coroutine.eval_await, hsame]
      cases (exec d (.openFile name) (env 1)).1 with
      | error err => rfl
      | ok fd =>
          have hread : (exec d (.readFile fd) (env 2)).2 = d := rfl
          simp only [Coroutine.ok_bind, Coroutine.eval_await, hread]
          cases (exec d (.readFile fd) (env 2)).1 <;> rfl

theorem eval_get_snd (d : Disk) (jwt : AvatarUser) (env : Nat → DiskEnv) :
    ((getAvatar jwt).eval exec env d).2 = d := by
  rw [eval_get]
  split
  · rfl
  · split <;> rfl

/-- With at most one avatar, asking is a question of what it holds. -/
theorem answers_get_iff {d : Disk} (hone : AtMostOne d) (hlinked : Linked d) {jwt : AvatarUser}
    {env : Nat → DiskEnv} (hlists : (env 0).listingFails = false) (hopens : (env 1).openFails = false)
    (expected : Option Bytes) :
    Answers expected ((getAvatar jwt).eval exec env d).1 ↔ d.avatar? jwt.id = expected := by
  rw [eval_get, findAvatar, glob_eq_matching hone jwt.numeral hlists, Disk.avatar?]
  cases hmatching : d.matching jwt.id with
  | nil =>
      cases expected with
      | none => exact iff_of_true rfl rfl
      | some bytes =>
          refine iff_of_false ?_ (by simp)
          rintro ⟨name, hname⟩
          cases hname
  | cons name rest =>
      have hname : name ∈ d.names := by
        apply ((mem_matching jwt.numeral).mp _).1
        rw [hmatching]
        exact List.mem_cons_self
      obtain ⟨file, hfile⟩ := Collection.mem_keys.mp hname
      have hinode : file.inode < d.inodes.length := hlinked file (Collection.find?_eq_some.mp hfile).1
      have hread : d.read? name = some d.inodes[file.inode].content := by
        simp [Disk.read?, hfile, hinode]
      have hopened : (exec d (.openFile name) (env 1)).1 = .ok file.inode := by
        simp only [exec, hfile, hopens]
        rfl
      have hcontent : (exec d (.readFile file.inode) (env 2)).1 =
          .ok d.inodes[file.inode].content := by
        simp only [exec, List.getElem?_eq_getElem hinode]
        rfl
      dsimp only
      rw [hopened, List.head?_cons, Option.bind_some, hread]
      dsimp only
      rw [hcontent]
      cases expected with
      | none =>
          refine iff_of_false ?_ (by simp)
          intro h
          cases h
      | some bytes =>
          rw [Option.some_inj]
          constructor
          · rintro ⟨name', h⟩
            cases h
            rfl
          · intro h
            exact ⟨name, by rw [← h]; rfl⟩

theorem Owned.linked {d : Disk} (h : Owned d) : Linked d := by
  intro file hfile
  obtain ⟨id, ⟨inode, hinode, -⟩, -⟩ := h file hfile
  exact (List.getElem?_eq_some_iff.mp hinode).1

/-- The disk that the requests leave: no user has two avatars, and each file is named after its
writer. -/
structure Tidy (d : Disk) : Prop where
  one : AtMostOne d
  owned : Owned d

theorem readBack_iff {jwt : AvatarUser} {s : Watch} (h : Tidy s.disk) :
    ReadBack jwt s ↔ ∀ expected, s.last = some expected → s.disk.avatar? jwt.id = expected := by
  refine forall_congr' fun expected => imp_congr_right fun _ => ?_
  constructor
  · intro hanswers
    have henv := hanswers (fun _ => ⟨[], false, false, false, none, none⟩) rfl rfl
    exact (answers_get_iff h.one h.owned.linked (by rfl) (by rfl) expected).mp henv
  · intro havatar env hlists hopens
    exact (answers_get_iff h.one h.owned.linked hlists hopens expected).mpr havatar

/-! ### What a visit leaves -/

theorem eval_remove (d : Disk) (jwt : AvatarUser) (env : Nat → DiskEnv) :
    (deleteAvatar jwt).eval exec env d =
      ((removeAvatar d jwt (env 0)).1.map .removed, (removeAvatar d jwt (env 0)).2) := by
  have hop : exec d (.removeAvatar jwt) (env 0) = removeAvatar d jwt (env 0) := rfl
  simp only [deleteAvatar, call, Coroutine.perform, Coroutine.await_bind, Coroutine.eval_await, hop]
  cases removeAvatar d jwt (env 0) with
  | mk result mid => cases result <;> rfl

/-- A visit leaves the disk as it is, or as one of the steps of an upload or a removal leaves it. -/
theorem eval_handler_keeps {d : Disk} {visit : Visit} {inv : Disk → Prop} (hsame : inv d)
    (hbegin : ∀ filename, inv (beginUpload d visit.request.jwt filename (visit.env 0)).2)
    (hfinish : ∀ filename fd name mid,
      beginUpload d visit.request.jwt filename (visit.env 0) = (.ok (some (fd, name)), mid) →
      inv (finishUpload mid fd (visit.env 1)).2)
    (hremove : inv (removeAvatar d visit.request.jwt (visit.env 0)).2) :
    inv ((handler visit.request).eval exec visit.env d).2 := by
  unfold handler
  cases visit.request.route with
  | upload filename =>
      have hmid := hbegin filename
      dsimp only
      rw [eval_upload]
      split
      · rename_i hresult
        rw [hresult] at hmid
        exact hmid
      · rename_i hresult
        rw [hresult] at hmid
        exact hmid
      · rename_i fd name mid hresult
        exact hfinish filename fd name mid hresult
  | get =>
      dsimp only
      rw [eval_get_snd]
      exact hsame
  | remove =>
      dsimp only
      rw [eval_remove]
      exact hremove

theorem atMostOne_eval {d : Disk} (h : AtMostOne d) {visit : Visit} (hlists : visit.Lists) :
    AtMostOne ((handler visit.request).eval exec visit.env d).2 := by
  apply eval_handler_keeps h
  · intro filename
    exact atMostOne_beginUpload h visit.request.jwt filename hlists
  · intro filename fd name mid hresult
    have hbegin := atMostOne_beginUpload h visit.request.jwt filename hlists
    rw [hresult] at hbegin
    exact atMostOne_finishUpload hbegin fd (visit.env 1)
  · exact (removeAvatar_spec h visit.request.jwt hlists).1

theorem framed_eval {d : Disk} (h : Owned d) (visit : Visit) :
    Framed visit.request.jwt.id d ((handler visit.request).eval exec visit.env d).2 := by
  apply eval_handler_keeps (Framed.refl h _)
  · intro filename
    exact (framed_beginUpload h visit.request.jwt filename (visit.env 0)).1
  · intro filename fd name mid hresult
    obtain ⟨hbegin, hwritten⟩ := framed_beginUpload h visit.request.jwt filename (visit.env 0)
    rw [hresult] at hbegin hwritten
    exact hbegin.trans (framed_finishUpload hbegin.owned (hwritten fd name rfl) _)
  · exact framed_removeAvatar h _ _

theorem tidy_eval {d : Disk} (h : Tidy d) {visit : Visit} (hlists : visit.Lists) :
    Tidy ((handler visit.request).eval exec visit.env d).2 :=
  ⟨atMostOne_eval h.one hlists, (framed_eval h.owned visit).owned⟩

section Untouched

variable {d d' : Disk} {id : String}

theorem writtenBy_of_matches (h : Owned d) (hid : IsNumeral id) {file : AvatarFile}
    (hfile : file ∈ d.dir.docs) (hmatches : Matches id file.name) : WrittenBy d file.inode id := by
  obtain ⟨writer, hwritten, hnamed⟩ := h file hfile
  exact hnamed.eq_of_matches hid hmatches ▸ hwritten

/-- What matches the pattern of a user whose files were not touched is what matched it before. -/
theorem mem_matching_of_untouched (h : Owned d) (h' : Owned d') (hid : IsNumeral id)
    (hsame : Untouched id d d') (name : String) : name ∈ d'.matching id ↔ name ∈ d.matching id := by
  rw [mem_matching hid, mem_matching hid]
  refine and_congr_left fun hmatches => ?_
  constructor
  · intro hname
    obtain ⟨file, hfile, rfl⟩ := List.mem_map.mp hname
    have hwritten := hsame.writtenBy.mp (writtenBy_of_matches h' hid hfile hmatches)
    exact List.mem_map_of_mem ((hsame.entries file hwritten).mp hfile)
  · intro hname
    obtain ⟨file, hfile, rfl⟩ := List.mem_map.mp hname
    have hwritten := writtenBy_of_matches h hid hfile hmatches
    exact List.mem_map_of_mem ((hsame.entries file hwritten).mpr hfile)

theorem read?_of_untouched (h : Owned d) (hid : IsNumeral id) (hsame : Untouched id d d')
    {name : String} (hname : name ∈ d.matching id) : d'.read? name = d.read? name := by
  obtain ⟨hlisted, hmatches⟩ := (mem_matching hid).mp hname
  obtain ⟨file, hfile⟩ := Collection.mem_keys.mp hlisted
  obtain ⟨hdocs, rfl⟩ := Collection.find?_eq_some.mp hfile
  obtain ⟨inode, hinode, hwriter⟩ := writtenBy_of_matches h hid hdocs hmatches
  have hfile' : d'.dir.find? file.name = some file :=
    Collection.mem_docs_iff.mp ((hsame.entries file ⟨inode, hinode, hwriter⟩).mpr hdocs)
  have hinode' := (hsame.inodes file.inode inode hwriter).mpr hinode
  simp [Disk.read?, hfile, hfile', hinode, hinode']

theorem avatar?_of_untouched (h : Tidy d) (h' : Tidy d') (hid : IsNumeral id)
    (hsame : Untouched id d d') : d'.avatar? id = d.avatar? id := by
  have hmatching : d'.matching id = d.matching id := by
    apply eq_of_perm _ (h.one id hid)
    rw [List.perm_ext_iff_of_nodup (nodup_matching d' id) (nodup_matching d id)]
    exact mem_matching_of_untouched h.owned h'.owned hid hsame
  rw [Disk.avatar?, Disk.avatar?, hmatching]
  cases hfirst : d.matching id with
  | nil => rfl
  | cons name rest =>
      rw [List.head?_cons, Option.bind_some, Option.bind_some]
      apply read?_of_untouched h.owned hid hsame
      rw [hfirst]
      exact List.mem_cons_self

end Untouched

/-! ### What the user's own visits leave -/

section Own

variable {d : Disk} {jwt : AvatarUser}

theorem avatar?_of_no_match (hid : IsNumeral jwt.id) (h : ∀ name ∈ d.names, ¬Matches jwt.id name) :
    d.avatar? jwt.id = none := by
  have hnil : d.matching jwt.id = [] := by
    rw [List.eq_nil_iff_forall_not_mem]
    intro name hname
    obtain ⟨hlisted, hmatches⟩ := (mem_matching hid).mp hname
    exact h name hlisted hmatches
  rw [Disk.avatar?, hnil]
  rfl

theorem cleared_spec (h : AtMostOne d) {env : DiskEnv} (hlists : env.listingFails = false)
    (hremoves : ¬ RemovalFails d jwt env) :
    ∀ name ∈ (d.cleared jwt env).names, ¬Matches jwt.id name := by
  have hspec := (removeAvatar_spec h jwt hlists).2 true
  rw [removeAvatar_of_not_fails hremoves] at hspec
  exact hspec rfl

theorem matches_storedName_iff (jwt : AvatarUser) (filename : String) :
    Matches jwt.id (storedName jwt filename) ↔ splitext filename ≠ "" := by
  unfold Matches storedName
  rw [String.toList_append]
  obtain hnil | ⟨rest, hcons, -, -⟩ := splitext_cases filename
  · rw [hnil]
    refine iff_of_false ?_ (by simp)
    intro hstart
    rw [String.toList_empty, List.append_nil] at hstart
    exact jwt.numeral.dot_not_mem (hstart.subset (List.mem_append_right _ List.mem_cons_self))
  · rw [hcons]
    refine iff_of_true ⟨rest, by simp⟩ ?_
    intro hempty
    rw [hempty] at hcons
    cases hcons

/-- A file that was stored where no name matched is found exactly if it has an extension. -/
theorem avatar?_store (hlinked : Linked d) (hnone : ∀ name ∈ d.names, ¬Matches jwt.id name)
    (filename : String) (bytes : Bytes) :
    (d.store jwt.id (storedName jwt filename) bytes).avatar? jwt.id =
      if splitext filename = "" then none else some bytes := by
  have hnames : ∀ name ∈ (d.store jwt.id (storedName jwt filename) bytes).names,
      Matches jwt.id name → name = storedName jwt filename := by
    intro name hname hmatches
    exact (mem_names_store.mp hname).resolve_left fun hold => hnone name hold hmatches
  by_cases hextension : splitext filename = ""
  · rw [if_pos hextension]
    apply avatar?_of_no_match jwt.numeral
    intro name hname hmatches
    rw [hnames name hname hmatches, matches_storedName_iff] at hmatches
    exact hmatches hextension
  · have hmatching : (d.store jwt.id (storedName jwt filename) bytes).matching jwt.id =
        [storedName jwt filename] := by
      apply List.perm_singleton.mp
      rw [List.perm_ext_iff_of_nodup (nodup_matching _ _) (List.nodup_singleton _)]
      intro name
      rw [mem_matching jwt.numeral, List.mem_singleton]
      constructor
      · intro ⟨hname, hmatches⟩
        exact hnames name hname hmatches
      · rintro rfl
        exact ⟨mem_names_store.mpr (.inr rfl), (matches_storedName_iff jwt filename).mpr hextension⟩
    rw [if_neg hextension, Disk.avatar?, hmatching]
    exact read?_store hlinked

end Own

/-! ### One visit -/

section Step

variable {jwt : AvatarUser} {s : Watch} {visit : Visit}

/-- The state after a visit. -/
def Watch.after (jwt : AvatarUser) (s : Watch) (visit : Visit) : Watch :=
  ⟨((handler visit.request).eval exec visit.env s.disk).2,
    if visit.request.jwt.id = jwt.id then
      visit.nextLast s.last ((handler visit.request).eval exec visit.env s.disk).1
    else s.last⟩

theorem step_eq_after : (watch jwt).step s visit = some (s.after jwt visit) := rfl

/-- After an upload that succeeds, the user is answered exactly if the file name has an extension. -/
theorem readBack_after_upload (h : Tidy s.disk) (hlists : visit.Lists)
    (hid : visit.request.jwt.id = jwt.id) {filename : String}
    (hroute : visit.request.route = .upload (some filename))
    (hsucceeds : Succeeds s.disk visit.request.jwt (some filename) visit.env) :
    ReadBack jwt (s.after jwt visit) ↔ splitext filename ≠ "" := by
  obtain ⟨bytes, hbytes⟩ := Option.isSome_iff_exists.mp hsucceeds.reads
  have heval : (handler visit.request).eval exec visit.env s.disk =
      (.ok (.response (some ⟨storedName visit.request.jwt filename, "Success"⟩)),
        (s.disk.cleared visit.request.jwt (visit.env 0)).store visit.request.jwt.id
          (storedName visit.request.jwt filename) (visit.env 1).bytes) := by
    rw [handler, hroute]
    exact eval_upload_of_succeeds hsucceeds
  have hcontent : (visit.env 1).bytes = bytes := by
    rw [DiskEnv.bytes, hbytes, hsucceeds.writes]
    rfl
  have hlast : (s.after jwt visit).last = some (some bytes) := by
    simp only [Watch.after, if_pos hid, heval, Visit.nextLast, hbytes, Option.map_some]
  have hdisk : (s.after jwt visit).disk.avatar? jwt.id =
      if splitext filename = "" then none else some bytes := by
    rw [← hid]
    simp only [Watch.after, heval, hcontent]
    exact avatar?_store (linked_cleared h.owned.linked)
      (cleared_spec h.one hlists hsucceeds.removes) filename bytes
  rw [readBack_iff (s := s.after jwt visit) (tidy_eval h hlists), hlast, hdisk]
  by_cases hextension : splitext filename = ""
  · simp [hextension]
  · simp [hextension]

/-- Nothing is promised to a user whose last upload or removal has failed. -/
theorem readBack_of_last_none (h : s.last = none) : ReadBack jwt s := by
  intro expected hexpected
  rw [h] at hexpected
  cases hexpected

theorem nextLast_upload_error {last : Option (Option Bytes)} {filename : Option String}
    {err : MediaError} (hroute : visit.request.route = .upload filename) :
    visit.nextLast last (.error err) = none := by
  simp only [Visit.nextLast, hroute]

theorem readBack_after_remove (h : Tidy s.disk) (hlists : visit.Lists)
    (hid : visit.request.jwt.id = jwt.id) (hroute : visit.request.route = .remove) :
    ReadBack jwt (s.after jwt visit) := by
  have heval : (handler visit.request).eval exec visit.env s.disk =
      ((removeAvatar s.disk visit.request.jwt (visit.env 0)).1.map .removed,
        (removeAvatar s.disk visit.request.jwt (visit.env 0)).2) := by
    rw [handler, hroute]
    exact eval_remove _ _ _
  by_cases hfails : RemovalFails s.disk visit.request.jwt (visit.env 0)
  · apply readBack_of_last_none
    simp only [Watch.after, if_pos hid, heval, removeAvatar_of_fails hfails]
    simp only [Except.map, Visit.nextLast, hroute]
  · rw [readBack_iff (s := s.after jwt visit) (tidy_eval h hlists)]
    intro expected hexpected
    have hlast : (s.after jwt visit).last = some none := by
      simp only [Watch.after, if_pos hid, heval, removeAvatar_of_not_fails hfails]
      rfl
    have hdisk : (s.after jwt visit).disk = s.disk.cleared visit.request.jwt (visit.env 0) := by
      simp only [Watch.after, heval, removeAvatar_of_not_fails hfails]
    rw [hlast, Option.some_inj] at hexpected
    rw [← hexpected, hdisk, ← hid]
    exact avatar?_of_no_match visit.request.jwt.numeral (cleared_spec h.one hlists hfails)

/-- Asking changes neither the disk nor what is promised. -/
theorem after_get (hid : visit.request.jwt.id = jwt.id) (hroute : visit.request.route = .get) :
    s.after jwt visit = s := by
  have hdisk : (s.after jwt visit).disk = s.disk := by
    simp only [Watch.after, handler, hroute]
    exact eval_get_snd _ _ _
  have hlast : (s.after jwt visit).last = s.last := by
    simp only [Watch.after, if_pos hid, handler, hroute]
    rw [eval_get]
    split
    · simp only [Visit.nextLast, hroute]
    · split
      · simp only [Visit.nextLast, hroute]
      · rename_i fd _
        cases (exec s.disk (.readFile fd) (visit.env 2)).1 with
        | error err => simp only [Except.map, Visit.nextLast, hroute]
        | ok content => simp only [Except.map, Visit.nextLast, hroute]
  cases s
  exact Watch.mk.injEq .. |>.mpr ⟨hdisk, hlast⟩

/-- A visit of another user. -/
theorem readBack_after_other (h : Tidy s.disk) (hlists : visit.Lists)
    (hid : visit.request.jwt.id ≠ jwt.id) (hread : ReadBack jwt s) :
    ReadBack jwt (s.after jwt visit) := by
  have hafter := tidy_eval h hlists
  have hsame := (framed_eval h.owned visit).others jwt.id (Ne.symm hid)
  rw [readBack_iff h] at hread
  rw [readBack_iff (s := s.after jwt visit) hafter]
  intro expected hexpected
  rw [Watch.after, if_neg hid] at hexpected
  rw [← hread expected hexpected]
  exact avatar?_of_untouched h hafter jwt.numeral hsame

/-- A visit keeps what the user is answered exactly if it is no upload of the user that succeeds
without an extension. -/
theorem readBack_after_iff (h : Tidy s.disk) (hlists : visit.Lists) (hread : ReadBack jwt s) :
    ReadBack jwt (s.after jwt visit) ↔ HasExtension jwt s visit := by
  by_cases hid : visit.request.jwt.id = jwt.id
  · cases hroute : visit.request.route with
    | get =>
        rw [after_get hid hroute]
        refine iff_of_true hread ?_
        intro _ filename hupload
        rw [hroute] at hupload
        cases hupload
    | remove =>
        refine iff_of_true (readBack_after_remove h hlists hid hroute) ?_
        intro _ filename hupload
        rw [hroute] at hupload
        cases hupload
    | upload filename =>
        by_cases hsucceeds : Succeeds s.disk visit.request.jwt filename visit.env
        · obtain ⟨name, rfl⟩ := Option.isSome_iff_exists.mp hsucceeds.named
          rw [readBack_after_upload h hlists hid hroute hsucceeds]
          constructor
          · intro hextension _ filename hupload _
            rw [hroute] at hupload
            cases hupload
            exact hextension
          · intro hhas
            exact hhas hid name hroute hsucceeds
        · refine iff_of_true ?_ ?_
          · obtain ⟨err, herr⟩ := eval_upload_of_not_succeeds hsucceeds
            apply readBack_of_last_none
            simp only [Watch.after, if_pos hid, handler, hroute]
            rw [herr]
            exact nextLast_upload_error hroute
          · intro _ name hupload hname
            rw [hroute] at hupload
            cases hupload
            exact absurd hname hsucceeds
  · refine iff_of_true (readBack_after_other h hlists hid hread) ?_
    intro heq
    exact absurd heq hid

end Step

/-! ### All runs -/

theorem tidy_empty : Tidy Disk.empty where
  one _ _ := Nat.zero_le 1
  owned _ hfile := absurd hfile List.not_mem_nil

/-- Among the runs whose listings work, those in which the user is always answered with what was uploaded
last, or with nothing after a removal, are the ones in which each upload of the user that succeeds
has an extension. -/
theorem readBack_iff_hasExtension (jwt : AvatarUser) (visits : List Visit) :
    (∀ visit ∈ visits, visit.Lists) ∧ (watch jwt).Always (ReadBack jwt) .start visits ↔
      (watch jwt).Meets (fun s visit => visit.Lists ∧ HasExtension jwt s visit) .start visits := by
  have htotal : ∀ s visit, ((watch jwt).step s visit).isSome := fun _ _ => rfl
  rw [Machine.meets_and_iff, Machine.meets_label_iff htotal]
  refine and_congr_right fun hlists => ?_
  apply @Machine.always_iff_meets_of_good _ _ (watch jwt) _ _ (fun s => Tidy s.disk) (ReadBack jwt)
    _ _ _ _ _ hlists tidy_empty
  · exact readBack_of_last_none rfl
  · intro s visit s' hvisit htidy _ hstep
    cases hstep
    exact tidy_eval htidy hvisit
  · intro s visit s' hvisit htidy hread hstep
    rw [step_eq_after] at hstep
    cases hstep
    exact readBack_after_iff htidy hvisit hread
  · intro s visit hnone
    cases hnone

/-- A file name without a dot. -/
theorem not_readBack_without_extension :
    ∃ s, (watch ada).run .start [⟨⟨ada, .upload (some "avatar")⟩, fun _ =>
        ⟨[], false, false, false, some [1], none⟩⟩] = some s ∧ s.last = some (some [1]) ∧
      ((getAvatar ada).eval exec (fun _ => ⟨["7"], false, false, false, none, none⟩) s.disk).1 =
        .error (.http 404 "File not found") ∧ ¬ ReadBack ada s := by
  refine ⟨_, rfl, by rfl, by rfl, ?_⟩
  intro h
  obtain ⟨name, hname⟩ := h (some [1]) rfl (fun _ => ⟨["7"], false, false, false, none, none⟩) rfl rfl
  cases hname

end BookHub.MediaService
