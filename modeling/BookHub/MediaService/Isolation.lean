import BookHub.MediaService.Avatars

/-!
# Avatars of different users

Whose a file is can be told from its name: it is named after the user whose upload created it, and no
name is after two numerals. So what an operation finds by the pattern of its user, or creates under that
user's name, is that user's, and a descriptor is always of a file that its own thread has opened. The
files of everybody else are not touched, whatever is interleaved.
-/

namespace BookHub.MediaService

open Coroutine (Issues issues_done issues_bind)

/-! ### Whose a file is -/

def WrittenBy (d : Disk) (fd : Nat) (id : String) : Prop :=
  ∃ inode, d.inodes[fd]? = some inode ∧ inode.writer = id

/-- Every entry of the directory is a file that is named after its writer. -/
def Owned (d : Disk) : Prop :=
  ∀ file ∈ d.dir.docs, ∃ id, WrittenBy d file.inode id ∧ NamedAfter id file.name

/-- The files of a user are the same: no entry, no content is another, and none is new. -/
structure Untouched (id : String) (d d' : Disk) : Prop where
  inodes : ∀ (fd : Nat) (inode : Inode), inode.writer = id →
    (d'.inodes[fd]? = some inode ↔ d.inodes[fd]? = some inode)
  entries : ∀ file, WrittenBy d file.inode id → (file ∈ d'.dir.docs ↔ file ∈ d.dir.docs)

/-- What is answered from the disk is the user's own. -/
def ReturnsOwn (id : String) (d : Disk) :
    (op : MediaOp) → Except MediaError (mediaSig.Answer op) → Prop
  | .findAvatar _, .ok name => ∃ file ∈ d.dir.docs, file.name = name ∧ WrittenBy d file.inode id
  | .readFile fd, .ok content =>
      ∃ inode, d.inodes[fd]? = some inode ∧ inode.writer = id ∧ inode.content = content
  | _, _ => True

/-- A move of the schedule leaves the files of all other users alone and answers none of them. -/
def Isolated (p : MediaPool) (move : Move DiskEnv MediaRequest) (p' : MediaPool) : Prop :=
  match move with
  | .arrive _ => p'.store = p.store
  | .resume index env => ∀ t op resume, p.threads[index]? = some t → t.code = .await op resume →
      (∀ id, id ≠ t.request.jwt.id → Untouched id p.store p'.store) ∧
        ReturnsOwn t.request.jwt.id p.store op (exec p.store op env).1

/-- What a thread of a user may issue. -/
def Allowed (d : Disk) (id : String) : MediaOp → Prop
  | .beginUpload jwt _ => jwt.id = id
  | .finishUpload fd => WrittenBy d fd id
  | .removeAvatar jwt => jwt.id = id
  | .findAvatar jwt => jwt.id = id
  | .openFile name => IsNumeral id ∧ Matches id name
  | .readFile fd => WrittenBy d fd id

/-! ### The disk -/

theorem Untouched.refl (id : String) (d : Disk) : Untouched id d d :=
  ⟨fun _ _ _ => Iff.rfl, fun _ _ => Iff.rfl⟩

theorem Untouched.writtenBy {id : String} {d d' : Disk} (h : Untouched id d d') {fd : Nat} :
    WrittenBy d' fd id ↔ WrittenBy d fd id := by
  constructor
  · intro hwritten
    obtain ⟨inode, hinode, hwriter⟩ := hwritten
    exact ⟨inode, (h.inodes fd inode hwriter).mp hinode, hwriter⟩
  · intro hwritten
    obtain ⟨inode, hinode, hwriter⟩ := hwritten
    exact ⟨inode, (h.inodes fd inode hwriter).mpr hinode, hwriter⟩

theorem Untouched.trans {id : String} {d mid d' : Disk} (h : Untouched id d mid)
    (h' : Untouched id mid d') : Untouched id d d' where
  inodes fd inode hwriter := (h'.inodes fd inode hwriter).trans (h.inodes fd inode hwriter)
  entries file hfile := (h'.entries file (h.writtenBy.mpr hfile)).trans (h.entries file hfile)

theorem WrittenBy.unique {d : Disk} {fd : Nat} {id id' : String} (h : WrittenBy d fd id)
    (h' : WrittenBy d fd id') : id' = id := by
  obtain ⟨inode, hinode, rfl⟩ := h
  obtain ⟨inode', hinode', rfl⟩ := h'
  cases hinode.symm.trans hinode'
  rfl

/-- Changing the content of a file. -/
theorem writtenBy_modify {d : Disk} {fd fd' : Nat} {id : String} {f : Inode → Inode}
    (hf : ∀ inode, (f inode).writer = inode.writer) :
    WrittenBy { d with inodes := d.inodes.modify fd' f } fd id ↔ WrittenBy d fd id := by
  unfold WrittenBy
  rw [List.getElem?_modify]
  cases d.inodes[fd]? with
  | none => simp
  | some inode =>
      by_cases heq : fd' = fd
      · simp [heq, hf]
      · simp [heq]

theorem untouched_modify {d : Disk} {fd : Nat} {writer id : String} {f : Inode → Inode}
    (hf : ∀ inode, (f inode).writer = inode.writer) (hfd : WrittenBy d fd writer)
    (hne : id ≠ writer) : Untouched id d { d with inodes := d.inodes.modify fd f } where
  inodes fd' inode hwriter := by
    rw [List.getElem?_modify]
    by_cases heq : fd = fd'
    · subst heq
      obtain ⟨own, hown, hwriter'⟩ := hfd
      rw [hown]
      simp only [if_true, Option.map_eq_map, Option.map_some, Option.some.injEq]
      constructor
      · rintro rfl
        exact absurd (hwriter.symm.trans ((hf own).trans hwriter')) hne
      · rintro rfl
        exact absurd (hwriter.symm.trans hwriter') hne
    · simp [heq]
  entries _ _ := Iff.rfl

theorem owned_modify {d : Disk} (h : Owned d) {fd : Nat} {f : Inode → Inode}
    (hf : ∀ inode, (f inode).writer = inode.writer) :
    Owned { d with inodes := d.inodes.modify fd f } := by
  intro file hfile
  obtain ⟨id, hwritten, hnamed⟩ := h file hfile
  exact ⟨id, (writtenBy_modify hf).mpr hwritten, hnamed⟩

theorem mem_glob {d : Disk} {id name : String} {env : DiskEnv} (hid : IsNumeral id)
    (h : name ∈ d.glob id env) : name ∈ d.names ∧ Matches id name := by
  obtain ⟨hlisted, hmatch⟩ := List.mem_filter.mp h
  refine ⟨?_, (fnmatch_iff_matches hid name).mp hmatch⟩
  unfold Disk.listdir at hlisted
  split at hlisted
  · cases hlisted
  · split at hlisted
    · rename_i hperm
      exact hperm.mem_iff.mp hlisted
    · exact hlisted

/-- Removing what matches the pattern of a user takes none but that user's files. -/
theorem untouched_unlink {d : Disk} (h : Owned d) {id id' name : String} (hid : IsNumeral id)
    (hmatches : Matches id name) (hne : id' ≠ id) : Untouched id' d (d.unlink name) where
  inodes _ _ _ := Iff.rfl
  entries file hwritten := by
    rw [mem_unlink, and_iff_left_iff_imp]
    intro hfile
    rintro rfl
    obtain ⟨writer, hwriter, hnamed⟩ := h file hfile
    have hown : id = writer := hnamed.eq_of_matches hid hmatches
    exact hne ((WrittenBy.unique hwriter hwritten).trans hown.symm)

theorem owned_unlink {d : Disk} (h : Owned d) (name : String) : Owned (d.unlink name) :=
  fun file hfile => h file (mem_unlink.mp hfile).1

section OpenForWrite

variable {d : Disk} {writer name : String}

/-- A file that is there is truncated, and it is the user's. -/
theorem openForWrite_found (h : Owned d) (hnamed : NamedAfter writer name) {file : AvatarFile}
    (hfile : d.dir.find? name = some file) :
    WrittenBy d file.inode writer ∧ d.openForWrite writer name =
      (file.inode, { d with inodes := d.inodes.modify file.inode fun i => { i with content := [] } }) := by
  obtain ⟨hmem, rfl⟩ := Collection.find?_eq_some.mp hfile
  obtain ⟨id, hwritten, hid⟩ := h file hmem
  refine ⟨hid.unique hnamed ▸ hwritten, ?_⟩
  rw [Disk.openForWrite, hfile]

theorem openForWrite_new (hfile : d.dir.find? name = none) :
    d.openForWrite writer name = (d.inodes.length,
      ⟨d.dir.put ⟨name, d.inodes.length⟩, d.inodes ++ [⟨writer, []⟩]⟩) := by
  rw [Disk.openForWrite, hfile]

theorem getElem?_append_of_some {inodes : List Inode} {fd : Nat} {inode new : Inode}
    (h : inodes[fd]? = some inode) : (inodes ++ [new])[fd]? = some inode := by
  rw [List.getElem?_append_left (List.getElem?_eq_some_iff.mp h).1]
  exact h

theorem writtenBy_openForWrite (h : Owned d) (hnamed : NamedAfter writer name) :
    WrittenBy (d.openForWrite writer name).2 (d.openForWrite writer name).1 writer := by
  cases hfile : d.dir.find? name with
  | some file =>
      obtain ⟨hwritten, heq⟩ := openForWrite_found h hnamed hfile
      rw [heq]
      exact (writtenBy_modify (f := fun i => { i with content := [] }) fun _ => rfl).mpr hwritten
  | none =>
      rw [openForWrite_new hfile]
      exact ⟨⟨writer, []⟩, by simp, rfl⟩

theorem untouched_openForWrite (h : Owned d) (hnamed : NamedAfter writer name) {id : String}
    (hne : id ≠ writer) : Untouched id d (d.openForWrite writer name).2 := by
  cases hfile : d.dir.find? name with
  | some file =>
      obtain ⟨hwritten, heq⟩ := openForWrite_found h hnamed hfile
      rw [heq]
      exact untouched_modify (fun _ => rfl) hwritten hne
  | none =>
      rw [openForWrite_new hfile]
      constructor
      · intro fd inode hwriter
        constructor
        · intro hnew
          rw [List.getElem?_append] at hnew
          split at hnew
          · exact hnew
          · rw [List.getElem?_singleton] at hnew
            split at hnew
            · cases hnew
              exact absurd hwriter.symm hne
            · cases hnew
        · exact getElem?_append_of_some
      · intro file hwritten
        rw [Collection.mem_put]
        constructor
        · intro hmem
          obtain ⟨hold, -⟩ | rfl := hmem
          · exact hold
          · -- the new file is nobody's before
            obtain ⟨inode, hinode, -⟩ := hwritten
            rw [List.getElem?_eq_none (Nat.le_refl _)] at hinode
            cases hinode
        · intro hold
          exact Or.inl ⟨hold, Collection.find?_eq_none.mp hfile file hold⟩

theorem owned_openForWrite (h : Owned d) (hnamed : NamedAfter writer name) :
    Owned (d.openForWrite writer name).2 := by
  cases hfile : d.dir.find? name with
  | some file =>
      rw [(openForWrite_found h hnamed hfile).2]
      exact owned_modify h fun _ => rfl
  | none =>
      rw [openForWrite_new hfile]
      intro file hmem
      obtain ⟨hold, -⟩ | rfl := Collection.mem_put.mp hmem
      · obtain ⟨id, ⟨inode, hinode, hwriter⟩, hid⟩ := h file hold
        exact ⟨id, ⟨inode, getElem?_append_of_some hinode, hwriter⟩, hid⟩
      · exact ⟨writer, ⟨⟨writer, []⟩, by simp, rfl⟩, hnamed⟩

theorem kept_openForWrite {fd : Nat} {id : String} (h : WrittenBy d fd id) :
    WrittenBy (d.openForWrite writer name).2 fd id := by
  unfold Disk.openForWrite
  split
  · exact (writtenBy_modify (f := fun i => { i with content := [] }) fun _ => rfl).mpr h
  · obtain ⟨inode, hinode, hwriter⟩ := h
    exact ⟨inode, getElem?_append_of_some hinode, hwriter⟩

end OpenForWrite

/-! ### The operations -/

/-- What an operation of a user does to the disk: it stays owned, nobody else's files are touched, and
a file keeps its writer. -/
structure Framed (id : String) (d d' : Disk) : Prop where
  owned : Owned d'
  others : ∀ other, other ≠ id → Untouched other d d'
  kept : ∀ fd writer, WrittenBy d fd writer → WrittenBy d' fd writer

theorem Framed.refl {d : Disk} (h : Owned d) (id : String) : Framed id d d :=
  ⟨h, fun other _ => Untouched.refl other d, fun _ _ hwritten => hwritten⟩

theorem Framed.trans {id : String} {d mid d' : Disk} (h : Framed id d mid)
    (h' : Framed id mid d') : Framed id d d' where
  owned := h'.owned
  others other hne := (h.others other hne).trans (h'.others other hne)
  kept fd writer hwritten := h'.kept fd writer (h.kept fd writer hwritten)

theorem framed_write {d : Disk} (h : Owned d) {fd : Nat} {id : String} (hfd : WrittenBy d fd id)
    (bytes : Bytes) : Framed id d (d.write fd bytes) where
  owned := owned_modify h fun _ => rfl
  others _ hne := untouched_modify (fun _ => rfl) hfd hne
  kept _ _ hwritten :=
    (writtenBy_modify (f := fun i => { i with content := bytes ++ i.content.drop bytes.length })
      fun _ => rfl).mpr hwritten

theorem framed_openForWrite {d : Disk} (h : Owned d) {id name : String}
    (hnamed : NamedAfter id name) : Framed id d (d.openForWrite id name).2 where
  owned := owned_openForWrite h hnamed
  others _ hne := untouched_openForWrite h hnamed hne
  kept _ _ hwritten := kept_openForWrite hwritten

theorem framed_removeAvatar {d : Disk} (h : Owned d) (jwt : AvatarUser) (env : DiskEnv) :
    Framed jwt.id d (removeAvatar d jwt env).2 := by
  unfold removeAvatar
  cases hglob : d.glob jwt.id env with
  | nil => exact Framed.refl h jwt.id
  | cons first rest =>
      dsimp only
      split
      · exact Framed.refl h jwt.id
      · have hfirst : first ∈ d.glob jwt.id env := by
          rw [hglob]
          exact List.mem_cons_self
        have hmatches := (mem_glob jwt.numeral hfirst).2
        exact ⟨owned_unlink h first, fun _ hne => untouched_unlink h jwt.numeral hmatches hne,
          fun _ _ hwritten => hwritten⟩

theorem framed_beginUpload {d : Disk} (h : Owned d) (jwt : AvatarUser) (filename : Option String)
    (env : DiskEnv) :
    Framed jwt.id d (beginUpload d jwt filename env).2 ∧
      ∀ fd name, (beginUpload d jwt filename env).1 = .ok (some (fd, name)) →
        WrittenBy (beginUpload d jwt filename env).2 fd jwt.id := by
  have hremoved := framed_removeAvatar h jwt env
  unfold beginUpload
  cases hremove : removeAvatar d jwt env with
  | mk result mid =>
      rw [hremove] at hremoved
      cases result with
      | error err =>
          refine ⟨hremoved, ?_⟩
          intro fd name hopened
          cases hopened
      | ok removed =>
          cases removed with
          | false =>
              refine ⟨hremoved, ?_⟩
              intro fd name hopened
              cases hopened
          | true =>
              cases filename with
              | none =>
                  refine ⟨hremoved, ?_⟩
                  intro fd name hopened
                  cases hopened
              | some filename =>
                  dsimp only
                  have hnamed := namedAfter_splitext jwt.numeral filename
                  split
                  · refine ⟨hremoved, ?_⟩
                    intro fd name hopened
                    cases hopened
                  · refine ⟨hremoved.trans (framed_openForWrite hremoved.owned hnamed), ?_⟩
                    intro fd name hopened
                    cases hopened
                    exact writtenBy_openForWrite hremoved.owned hnamed

theorem framed_finishUpload {d : Disk} (h : Owned d) {fd : Nat} {id : String}
    (hfd : WrittenBy d fd id) (env : DiskEnv) : Framed id d (finishUpload d fd env).2 := by
  unfold finishUpload
  split
  · exact Framed.refl h id
  · split
    · exact framed_write h hfd _
    · exact framed_write h hfd _

/-- What is found by the pattern of a user is a file of that user. -/
theorem findAvatar_ok {d : Disk} (h : Owned d) {jwt : AvatarUser} {env : DiskEnv} {name : String}
    (hfound : findAvatar d jwt env = .ok name) :
    Matches jwt.id name ∧ ∃ file ∈ d.dir.docs, file.name = name ∧ WrittenBy d file.inode jwt.id := by
  unfold findAvatar at hfound
  split at hfound
  · cases hfound
  · rename_i first rest hglob
    cases hfound
    have hfirst : name ∈ d.glob jwt.id env := by
      rw [hglob]
      exact List.mem_cons_self
    obtain ⟨hlisted, hmatches⟩ := mem_glob jwt.numeral hfirst
    refine ⟨hmatches, ?_⟩
    obtain ⟨file, hfile, rfl⟩ := List.mem_map.mp hlisted
    obtain ⟨id, hwritten, hnamed⟩ := h file hfile
    exact ⟨file, hfile, rfl, hnamed.eq_of_matches jwt.numeral hmatches ▸ hwritten⟩

theorem exec_openFile (d : Disk) (name : String) (env : DiskEnv) :
    (exec d (.openFile name) env).2 = d ∧ ∀ fd, (exec d (.openFile name) env).1 = .ok fd →
      ∃ file ∈ d.dir.docs, file.name = name ∧ file.inode = fd := by
  simp only [exec]
  cases hfile : d.dir.find? name with
  | none =>
      refine ⟨rfl, ?_⟩
      intro fd hopened
      cases hopened
  | some file =>
      refine ⟨rfl, ?_⟩
      intro fd hopened
      obtain ⟨hmem, hname⟩ := Collection.find?_eq_some.mp hfile
      dsimp only at hopened
      split at hopened
      · cases hopened
      · exact ⟨file, hmem, hname, Except.ok.inj hopened⟩

/-- An operation that a thread of a user may issue. -/
theorem framed_exec {d : Disk} (h : Owned d) {id : String} {op : MediaOp} (hop : Allowed d id op)
    (env : DiskEnv) : Framed id d (exec d op env).2 ∧ ReturnsOwn id d op (exec d op env).1 := by
  cases op with
  | beginUpload jwt filename =>
      obtain rfl := hop
      exact ⟨(framed_beginUpload h jwt filename env).1, trivial⟩
  | finishUpload fd => exact ⟨framed_finishUpload h hop env, trivial⟩
  | removeAvatar jwt =>
      obtain rfl := hop
      exact ⟨framed_removeAvatar h jwt env, trivial⟩
  | findAvatar jwt =>
      obtain rfl := hop
      refine ⟨Framed.refl h jwt.id, ?_⟩
      show ReturnsOwn jwt.id d (.findAvatar jwt) (findAvatar d jwt env)
      cases hfound : findAvatar d jwt env with
      | error err => trivial
      | ok name => exact (findAvatar_ok h hfound).2
  | openFile name =>
      refine ⟨?_, trivial⟩
      rw [(exec_openFile d name env).1]
      exact Framed.refl h id
  | readFile fd =>
      obtain ⟨inode, hinode, hwriter⟩ := hop
      refine ⟨Framed.refl h id, ?_⟩
      show ReturnsOwn id d (.readFile fd) ((d.inodes[fd]?).elim _ _)
      rw [hinode]
      exact ⟨inode, hinode, hwriter, rfl⟩

/-! ### The threads -/

/-- What the answers that a thread has received say of the disk. -/
def Received (d : Disk) (id : String) : mediaSig.Event MediaError → Prop
  | ⟨.beginUpload _ _, .ok (some (fd, _))⟩ => WrittenBy d fd id
  | ⟨.findAvatar _, .ok name⟩ => Matches id name
  | ⟨.openFile _, .ok fd⟩ => WrittenBy d fd id
  | _ => True

/-- What a handler issues: its own user, and what it has received. -/
def Asks (request : MediaRequest) (trace : List (mediaSig.Event MediaError)) : MediaOp → Prop
  | .beginUpload jwt _ => jwt = request.jwt
  | .finishUpload fd => ∃ filename name,
      ⟨.beginUpload request.jwt filename, .ok (some (fd, name))⟩ ∈ trace
  | .removeAvatar jwt => jwt = request.jwt
  | .findAvatar jwt => jwt = request.jwt
  | .openFile name => ⟨.findAvatar request.jwt, .ok name⟩ ∈ trace
  | .readFile fd => ∃ name, ⟨.openFile name, .ok fd⟩ ∈ trace

theorem asks_handler (request : MediaRequest) :
    Issues (fun _ _ => True) (Asks request) [] (handler request) := by
  unfold handler
  cases request.route with
  | upload filename =>
      refine ⟨rfl, ?_⟩
      intro answer _
      cases answer with
      | error err => exact issues_done _
      | ok opened =>
          cases opened with
          | none => exact issues_done _
          | some opened =>
              obtain ⟨fd, name⟩ := opened
              refine ⟨⟨filename, name, by simp⟩, ?_⟩
              intro answer _
              cases answer <;> exact issues_done _
  | get =>
      refine ⟨rfl, ?_⟩
      intro answer _
      cases answer with
      | error err => exact issues_done _
      | ok name =>
          refine ⟨by simp [Asks], ?_⟩
          intro answer _
          cases answer with
          | error err => exact issues_done _
          | ok fd =>
              refine ⟨⟨name, by simp⟩, ?_⟩
              intro answer _
              cases answer <;> exact issues_done _
  | remove =>
      refine ⟨rfl, ?_⟩
      intro answer _
      cases answer <;> exact issues_done _

/-- What a thread asks, it may, if what it has received is so. -/
theorem allowed_of_asks {d : Disk} {request : MediaRequest}
    {trace : List (mediaSig.Event MediaError)} {op : MediaOp}
    (hreceived : ∀ event ∈ trace, Received d request.jwt.id event) (h : Asks request trace op) :
    Allowed d request.jwt.id op := by
  cases op with
  | beginUpload jwt filename => exact congrArg (fun jwt => jwt.id) h
  | finishUpload fd =>
      obtain ⟨filename, name, hmem⟩ := h
      exact hreceived _ hmem
  | removeAvatar jwt => exact congrArg (fun jwt => jwt.id) h
  | findAvatar jwt => exact congrArg (fun jwt => jwt.id) h
  | openFile name => exact ⟨request.jwt.numeral, hreceived _ h⟩
  | readFile fd =>
      obtain ⟨name, hmem⟩ := h
      exact hreceived _ hmem

/-- What one thread has received stays so when the disk changes. -/
theorem Received.mono {d d' : Disk}
    (hkept : ∀ fd writer, WrittenBy d fd writer → WrittenBy d' fd writer) {id : String}
    {event : mediaSig.Event MediaError} (h : Received d id event) : Received d' id event := by
  unfold Received at h ⊢
  split at h
  · exact hkept _ _ h
  · exact h
  · exact hkept _ _ h
  · trivial

/-- The answer to what a thread may ask. -/
theorem received_exec {d : Disk} (h : Owned d) {id : String} {op : MediaOp} (hop : Allowed d id op)
    (env : DiskEnv) : Received (exec d op env).2 id ⟨op, (exec d op env).1⟩ := by
  cases op with
  | beginUpload jwt filename =>
      obtain rfl := hop
      show Received (beginUpload d jwt filename env).2 jwt.id
        ⟨.beginUpload jwt filename, (beginUpload d jwt filename env).1⟩
      have hopened := (framed_beginUpload h jwt filename env).2
      cases hresult : (beginUpload d jwt filename env).1 with
      | error err => trivial
      | ok opened =>
          cases opened with
          | none => trivial
          | some opened => exact hopened opened.1 opened.2 hresult
  | finishUpload fd => trivial
  | removeAvatar jwt => trivial
  | findAvatar jwt =>
      obtain rfl := hop
      show Received d jwt.id ⟨.findAvatar jwt, findAvatar d jwt env⟩
      cases hfound : findAvatar d jwt env with
      | error err => trivial
      | ok name => exact (findAvatar_ok h hfound).1
  | openFile name =>
      obtain ⟨hid, hmatches⟩ := hop
      obtain ⟨hsame, hopened⟩ := exec_openFile d name env
      rw [hsame]
      cases hresult : (exec d (.openFile name) env).1 with
      | error err => trivial
      | ok fd =>
          obtain ⟨file, hfile, rfl, rfl⟩ := hopened fd hresult
          obtain ⟨writer, hwritten, hnamed⟩ := h file hfile
          exact hnamed.eq_of_matches hid hmatches ▸ hwritten
  | readFile fd => trivial

/-! ### Over all runs -/

/-- The files of the directory are named after their writers, each thread asks what it may, and what
it has received still holds of the disk. -/
structure MediaInv (p : MediaPool) : Prop where
  owned : Owned p.store
  asks : Service.Justified (fun _ _ => True) Asks p
  received : ∀ t ∈ p.threads, ∀ event ∈ t.trace, Received p.store t.request.jwt.id event

theorem MediaInv.allowed {p : MediaPool} (h : MediaInv p) {index : Nat}
    {t : Thread mediaSig MediaError MediaRequest MediaAnswer} {op : MediaOp}
    {resume : Except MediaError (mediaSig.Answer op) → MediaM MediaAnswer}
    (ht : p.threads[index]? = some t) (hcode : t.code = .await op resume) :
    Allowed p.store t.request.jwt.id op := by
  have hmem := List.mem_of_getElem? ht
  exact allowed_of_asks (h.received t hmem) (h.asks.issued_of_await hmem hcode)

theorem mediaInv_start : MediaInv (Service.start Disk.empty) where
  owned _ hfile := absurd hfile List.not_mem_nil
  asks := Service.justified_start Disk.empty
  received _ ht := absurd ht List.not_mem_nil

theorem mediaInv_step (p : MediaPool) (move : Move DiskEnv MediaRequest) (p' : MediaPool)
    (h : MediaInv p) (hstep : service.machine.step p move = some p') : MediaInv p' := by
  have hasks := service.justified_step (fun _ _ _ => trivial) asks_handler p move p' h.asks hstep
  cases move with
  | arrive request =>
      obtain ⟨-, rfl⟩ := service.step_arrive hstep
      refine ⟨h.owned, hasks, ?_⟩
      intro t ht
      obtain ht | ht := List.mem_append.mp ht
      · exact h.received t ht
      · rw [List.mem_singleton.mp ht]
        exact fun event hevent => absurd hevent List.not_mem_nil
  | resume index env =>
      obtain ⟨t, op, resume, ht, hcode, rfl⟩ := service.step_resume hstep
      have hallowed := h.allowed ht hcode
      obtain ⟨hframed, -⟩ := framed_exec h.owned hallowed env
      refine ⟨hframed.owned, hasks, ?_⟩
      intro u hu event hevent
      obtain hu | rfl := List.mem_or_eq_of_mem_set hu
      · exact (h.received u hu event hevent).mono hframed.kept
      · obtain hevent | hevent := List.mem_append.mp hevent
        · exact (h.received t (List.mem_of_getElem? ht) event hevent).mono hframed.kept
        · rw [List.mem_singleton.mp hevent]
          exact received_exec h.owned hallowed env

theorem isolated_step (p : MediaPool) (move : Move DiskEnv MediaRequest) (p' : MediaPool)
    (h : MediaInv p) (hstep : service.machine.step p move = some p') : Isolated p move p' := by
  cases move with
  | arrive request =>
      obtain ⟨-, rfl⟩ := service.step_arrive hstep
      rfl
  | resume index env =>
      intro t op resume ht hcode
      obtain ⟨t', op', resume', ht', hcode', rfl⟩ := service.step_resume hstep
      cases ht.symm.trans ht'
      cases hcode.symm.trans hcode'
      obtain ⟨hframed, hreturns⟩ := framed_exec h.owned (h.allowed ht hcode) env
      exact ⟨hframed.others, hreturns⟩

/-- However the requests of users are interleaved, and whatever fails, each step of a request leaves
the files of all other users as they are and answers none of them. -/
theorem each_isolated (moves : List (Move DiskEnv MediaRequest)) :
    service.machine.Each Isolated (Service.start Disk.empty) moves := by
  have hmeets := Machine.meets_of_forall (m := service.machine) (fun _ _ => trivial)
    (Service.start Disk.empty) moves
  apply Machine.each_of_meets _ _ mediaInv_start hmeets
  · intro p move p' h (_ : True) hstep
    exact mediaInv_step p move p' h hstep
  · intro p move p' h (_ : True) hstep
    exact isolated_step p move p' h hstep

end BookHub.MediaService
