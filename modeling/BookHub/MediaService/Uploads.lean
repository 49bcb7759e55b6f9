import BookHub.MediaService.Isolation

/-!
# An upload alone

What an upload does when nothing comes in between: it removes the old avatar, opens the new one and
writes what it has received, and each of these can fail when the one before it is done. The old avatar
is gone by then, and the new one may be there without its contents. So a failed upload changes nothing
only where there was nothing to remove and nothing was opened, or where what it left is by chance what
was there before: `failedUpload_unchanged_iff`.
-/

namespace BookHub.MediaService

/-! ### What the directory holds -/

/-- The bytes under a name. -/
def Disk.read? (d : Disk) (name : String) : Option Bytes :=
  (d.dir.find? name).map fun file => ((d.inodes[file.inode]?).map Inode.content).getD []

/-- Every entry is the entry of a file. -/
def Linked (d : Disk) : Prop := ∀ file ∈ d.dir.docs, file.inode < d.inodes.length

/-- A directory of avatars, whatever it holds. -/
structure AvatarDirectory extends Disk where
  linked : Linked toDisk

/-- The same names with the same bytes. -/
def SameFiles (d d' : Disk) : Prop := ∀ name, d'.read? name = d.read? name

/-- Open for writing, and write. -/
def Disk.store (d : Disk) (writer name : String) (bytes : Bytes) : Disk :=
  (d.openForWrite writer name).2.write (d.openForWrite writer name).1 bytes

theorem find?_unlink (d : Disk) (name name' : String) :
    (d.unlink name).dir.find? name' = if name' = name then none else d.dir.find? name' :=
  Collection.find?_deleteOne_key name name'

theorem read?_unlink (d : Disk) (name name' : String) :
    (d.unlink name).read? name' = if name' = name then none else d.read? name' := by
  rw [Disk.read?, find?_unlink]
  by_cases heq : name' = name
  · rw [if_pos heq, if_pos heq]
    rfl
  · rw [if_neg heq, if_neg heq]
    rfl

theorem read?_isSome_iff {d : Disk} {name : String} : (d.read? name).isSome ↔ name ∈ d.names := by
  rw [Disk.read?, Option.isSome_map, Disk.names, Collection.mem_keys, Option.isSome_iff_exists]

section Store

variable {d : Disk} {writer name : String} {bytes : Bytes}

/-- A file that is there is overwritten. -/
theorem store_found {file : AvatarFile} (hfile : d.dir.find? name = some file) :
    d.store writer name bytes =
      { d with inodes := d.inodes.modify file.inode fun i => { i with content := bytes } } := by
  simp only [Disk.store, Disk.openForWrite, hfile, Disk.write, List.modify_modify_eq]
  congr 2
  funext i
  simp

theorem store_new (hfile : d.dir.find? name = none) :
    d.store writer name bytes =
      ⟨d.dir.put ⟨name, d.inodes.length⟩, d.inodes ++ [⟨writer, bytes⟩]⟩ := by
  simp only [Disk.store, Disk.openForWrite, hfile, Disk.write]
  rw [modify_concat]
  simp

/-- What was stored is under its name. -/
theorem read?_store (h : Linked d) : (d.store writer name bytes).read? name = some bytes := by
  cases hfile : d.dir.find? name with
  | some file =>
      have hinode : file.inode < d.inodes.length := h file (Collection.find?_eq_some.mp hfile).1
      rw [store_found hfile]
      simp [Disk.read?, hfile, hinode]
  | none =>
      rw [store_new hfile]
      simp [Disk.read?, Collection.find?_put]

/-- A new name leaves the others as they are. -/
theorem read?_store_of_new (h : Linked d) (hfile : d.dir.find? name = none) {name' : String}
    (hne : name' ≠ name) : (d.store writer name bytes).read? name' = d.read? name' := by
  rw [store_new hfile]
  unfold Disk.read?
  dsimp only
  rw [Collection.find?_put, if_neg hne]
  cases hfound : d.dir.find? name' with
  | none => rfl
  | some file =>
      have hinode : file.inode < d.inodes.length := h file (Collection.find?_eq_some.mp hfound).1
      rw [Option.map_some, Option.map_some, List.getElem?_append_left hinode]

/-- Storing what is there changes nothing. -/
theorem store_same {file : AvatarFile} (hfile : d.dir.find? name = some file)
    (hread : d.read? name = some bytes) (h : Linked d) : d.store writer name bytes = d := by
  have hinode : file.inode < d.inodes.length := h file (Collection.find?_eq_some.mp hfile).1
  have hcontent : d.inodes[file.inode].content = bytes := by
    simpa [Disk.read?, hfile, hinode] using hread
  rw [store_found hfile]
  rw [modify_of_fixed]
  intro inode hfound
  rw [List.getElem?_eq_getElem hinode, Option.some_inj] at hfound
  rw [← hfound, ← hcontent]

end Store

theorem mem_names_store {d : Disk} {writer name name' : String} {bytes : Bytes} :
    name' ∈ (d.store writer name bytes).names ↔ name' ∈ d.names ∨ name' = name := by
  cases hfile : d.dir.find? name with
  | some file =>
      have hname : name ∈ d.names := Collection.mem_keys.mpr ⟨file, hfile⟩
      rw [store_found hfile]
      exact (or_iff_left_of_imp fun heq => heq ▸ hname).symm
  | none =>
      rw [store_new hfile]
      exact Collection.mem_keys_put

theorem linked_unlink {d : Disk} (h : Linked d) (name : String) : Linked (d.unlink name) :=
  fun file hfile => h file (mem_unlink.mp hfile).1

/-! ### The steps of an upload -/

/-- What is left once the old avatar is removed, if there is one. -/
def Disk.cleared (d : Disk) (jwt : AvatarUser) (env : DiskEnv) : Disk :=
  match d.glob jwt.id env with
  | [] => d
  | first :: _ => d.unlink first

def RemovalFails (d : Disk) (jwt : AvatarUser) (env : DiskEnv) : Prop :=
  d.glob jwt.id env ≠ [] ∧ env.removeFails = true

/-- What is in the file when the writing has come to its end. -/
def DiskEnv.bytes (env : DiskEnv) : Bytes :=
  let content := env.content.getD []
  (env.written.map fun count => content.take count).getD content

/-- The name that an upload is stored under. -/
def storedName (jwt : AvatarUser) (filename : String) : String := jwt.id ++ splitext filename

/-- Nothing fails: not the removal, not the file name, not the opening, reading or writing. -/
structure Succeeds (d : Disk) (jwt : AvatarUser) (filename : Option String) (env : Nat → DiskEnv) :
    Prop where
  removes : ¬ RemovalFails d jwt (env 0)
  named : filename.isSome
  opens : (env 0).openFails = false
  reads : (env 1).content.isSome
  writes : (env 1).written = none

theorem removeAvatar_of_fails {d : Disk} {jwt : AvatarUser} {env : DiskEnv}
    (h : RemovalFails d jwt env) :
    removeAvatar d jwt env = (.error (.http 400 s!"Remove avatar for user {jwt.email} failed"), d) := by
  obtain ⟨hglob, hfails⟩ := h
  unfold removeAvatar
  split
  · rename_i hnil
    exact absurd hnil hglob
  · rw [if_pos hfails]

theorem removeAvatar_of_not_fails {d : Disk} {jwt : AvatarUser} {env : DiskEnv}
    (h : ¬ RemovalFails d jwt env) : removeAvatar d jwt env = (.ok true, d.cleared jwt env) := by
  unfold removeAvatar Disk.cleared
  cases hglob : d.glob jwt.id env with
  | nil => rfl
  | cons first rest =>
      have hfails : ¬ env.removeFails = true := fun hfails => h ⟨by simp [hglob], hfails⟩
      dsimp only
      rw [if_neg hfails]

theorem write_nil (d : Disk) (fd : Nat) : d.write fd [] = d := by
  unfold Disk.write
  rw [modify_of_fixed]
  intro inode _
  rfl

theorem finishUpload_snd (d : Disk) (fd : Nat) (env : DiskEnv) :
    (finishUpload d fd env).2 = d.write fd env.bytes := by
  unfold finishUpload DiskEnv.bytes
  cases env.content with
  | none =>
      cases env.written with
      | none => exact (write_nil d fd).symm
      | some count =>
          show d = d.write fd (List.take count [])
          rw [List.take_nil, write_nil]
  | some content => cases env.written <;> rfl

/-! ### The whole upload -/

section Upload

variable {d : Disk} {jwt : AvatarUser} {env : Nat → DiskEnv}

theorem eval_upload (filename : Option String) :
    (uploadAvatar filename jwt).eval exec env d =
      match beginUpload d jwt filename (env 0) with
      | (.error err, mid) => (.error err, mid)
      | (.ok none, mid) => (.ok (.response none), mid)
      | (.ok (some (fd, name)), mid) =>
          ((finishUpload mid fd (env 1)).1.map fun _ => .response (some ⟨name, "Success"⟩),
            (finishUpload mid fd (env 1)).2) := by
  simp only [uploadAvatar, call, Coroutine.perform, Coroutine.await_bind, Coroutine.eval_await, exec]
  cases beginUpload d jwt filename (env 0) with
  | mk result mid =>
      cases result with
      | error err => rfl
      | ok opened =>
          cases opened with
          | none => rfl
          | some opened =>
              obtain ⟨fd, name⟩ := opened
              simp only [Coroutine.ok_bind, Coroutine.eval_await, exec]
              cases finishUpload mid fd (env 1) with
              | mk result after => cases result <;> rfl

theorem eval_upload_of_removalFails (filename : Option String) (h : RemovalFails d jwt (env 0)) :
    (uploadAvatar filename jwt).eval exec env d =
      (.error (.http 400 s!"Remove avatar for user {jwt.email} failed"), d) := by
  rw [eval_upload, beginUpload, removeAvatar_of_fails h]

theorem eval_upload_of_unnamed (h : ¬ RemovalFails d jwt (env 0)) :
    (uploadAvatar none jwt).eval exec env d = (.error .typeError, d.cleared jwt (env 0)) := by
  rw [eval_upload, beginUpload, removeAvatar_of_not_fails h]

theorem eval_upload_of_unopened (filename : String) (h : ¬ RemovalFails d jwt (env 0))
    (hopens : (env 0).openFails = true) :
    (uploadAvatar (some filename) jwt).eval exec env d =
      (.error (.http 422 "Unable to save media file"), d.cleared jwt (env 0)) := by
  rw [eval_upload, beginUpload, removeAvatar_of_not_fails h]
  simp only [hopens, if_true]

theorem eval_upload_of_opened (filename : String) (h : ¬ RemovalFails d jwt (env 0))
    (hopens : (env 0).openFails = false) :
    (uploadAvatar (some filename) jwt).eval exec env d =
      (if (env 1).content.isSome ∧ (env 1).written = none then
          .ok (.response (some ⟨storedName jwt filename, "Success"⟩))
        else .error (.http 422 "Unable to save media file"),
        (d.cleared jwt (env 0)).store jwt.id (storedName jwt filename) (env 1).bytes) := by
  rw [eval_upload, beginUpload, removeAvatar_of_not_fails h]
  simp only [hopens, Bool.false_eq_true, if_false]
  rw [finishUpload_snd]
  unfold finishUpload
  cases (env 1).content with
  | none => rfl
  | some content => cases (env 1).written <;> rfl

theorem eval_upload_of_succeeds {filename : String} (h : Succeeds d jwt (some filename) env) :
    (uploadAvatar (some filename) jwt).eval exec env d =
      (.ok (.response (some ⟨storedName jwt filename, "Success"⟩)),
        (d.cleared jwt (env 0)).store jwt.id (storedName jwt filename) (env 1).bytes) := by
  rw [eval_upload_of_opened filename h.removes h.opens, if_pos ⟨h.reads, h.writes⟩]

/-- An upload that is not so ends with an error. -/
theorem eval_upload_of_not_succeeds {filename : Option String} (h : ¬ Succeeds d jwt filename env) :
    ∃ err, ((uploadAvatar filename jwt).eval exec env d).1 = .error err := by
  by_cases hremoves : RemovalFails d jwt (env 0)
  · exact ⟨_, congrArg Prod.fst (eval_upload_of_removalFails filename hremoves)⟩
  · cases filename with
    | none => exact ⟨_, congrArg Prod.fst (eval_upload_of_unnamed hremoves)⟩
    | some filename =>
        cases hopens : (env 0).openFails with
        | true => exact ⟨_, congrArg Prod.fst (eval_upload_of_unopened filename hremoves hopens)⟩
        | false =>
            have hwrites : ¬ ((env 1).content.isSome ∧ (env 1).written = none) :=
              fun hboth => h ⟨hremoves, rfl, hopens, hboth.1, hboth.2⟩
            rw [eval_upload_of_opened filename hremoves hopens, if_neg hwrites]
            exact ⟨_, rfl⟩

end Upload

/-! ### What a failed upload leaves -/

section Failed

variable {d : Disk} {jwt : AvatarUser} {env : DiskEnv}

theorem linked_cleared (h : Linked d) : Linked (d.cleared jwt env) := by
  unfold Disk.cleared
  split
  · exact h
  · exact linked_unlink h _

theorem cleared_of_nil (h : d.glob jwt.id env = []) : d.cleared jwt env = d := by
  rw [Disk.cleared, h]

theorem cleared_of_cons {first : String} {rest : List String} (h : d.glob jwt.id env = first :: rest) :
    d.cleared jwt env = d.unlink first := by
  rw [Disk.cleared, h]

/-- What is removed was there. -/
theorem read?_of_glob {first : String} {rest : List String} (h : d.glob jwt.id env = first :: rest) :
    (d.read? first).isSome := by
  have hfirst : first ∈ d.glob jwt.id env := by
    rw [h]
    exact List.mem_cons_self
  exact read?_isSome_iff.mpr (mem_glob jwt.numeral hfirst).1

theorem sameFiles_cleared_iff : SameFiles d (d.cleared jwt env) ↔ d.glob jwt.id env = [] := by
  cases hglob : d.glob jwt.id env with
  | nil =>
      rw [cleared_of_nil hglob]
      exact iff_of_true (fun _ => rfl) rfl
  | cons first rest =>
      refine iff_of_false ?_ (List.cons_ne_nil first rest)
      intro h
      have hthere := read?_of_glob hglob
      rw [← h first, cleared_of_cons hglob, read?_unlink, if_pos rfl] at hthere
      cases hthere

/-- A file that was opened is the same again if it had these bytes, and if no other was removed. -/
theorem sameFiles_store_iff (hlinked : Linked d) {name : String} {bytes : Bytes} :
    SameFiles d ((d.cleared jwt env).store jwt.id name bytes) ↔
      d.read? name = some bytes ∧ ∀ first rest, d.glob jwt.id env = first :: rest → first = name := by
  constructor
  · intro h
    refine ⟨?_, ?_⟩
    · rw [← h name, read?_store (linked_cleared hlinked)]
    · intro first rest hglob
      have hthere := read?_of_glob hglob
      rw [← h first, read?_isSome_iff, mem_names_store, ← read?_isSome_iff, cleared_of_cons hglob,
        read?_unlink, if_pos rfl] at hthere
      exact hthere.resolve_left Bool.false_ne_true
  · intro ⟨hread, hfirst⟩
    cases hglob : d.glob jwt.id env with
    | nil =>
        rw [cleared_of_nil hglob]
        cases hfile : d.dir.find? name with
        | none =>
            rw [Disk.read?, hfile] at hread
            cases hread
        | some file =>
            rw [store_same hfile hread hlinked]
            exact fun _ => rfl
    | cons first rest =>
        obtain rfl := hfirst first rest hglob
        rw [cleared_of_cons hglob]
        intro name'
        by_cases hname : name' = first
        · rw [hname, read?_store (linked_unlink hlinked first), hread]
        · have hgone : (d.unlink first).dir.find? first = none := by rw [find?_unlink, if_pos rfl]
          rw [read?_store_of_new (linked_unlink hlinked first) hgone hname, read?_unlink,
            if_neg hname]

end Failed

/-- What a failed upload leaves is what was there: the removal itself failed, or there was nothing to
remove and nothing was opened, or the name that was opened had those very bytes and no other name was
removed. -/
def LeavesSame (d : Disk) (jwt : AvatarUser) (filename : Option String) (env : Nat → DiskEnv) : Prop :=
  RemovalFails d jwt (env 0) ∨
  (d.glob jwt.id (env 0) = [] ∧ (filename = none ∨ (env 0).openFails = true)) ∨
  ∃ name, filename.map (storedName jwt) = some name ∧ (env 0).openFails = false ∧
    d.read? name = some (env 1).bytes ∧
    ∀ first rest, d.glob jwt.id (env 0) = first :: rest → first = name

/-- For every directory, file and point of failure: an upload that ends with an error leaves the files
as they were exactly in these cases. -/
theorem failedUpload_unchanged_iff (d : AvatarDirectory) (jwt : AvatarUser) (filename : Option String)
    (env : Nat → DiskEnv) :
    (∀ err, ((uploadAvatar filename jwt).eval exec env d.toDisk).1 = .error err →
      SameFiles d.toDisk ((uploadAvatar filename jwt).eval exec env d.toDisk).2) ↔
      Succeeds d.toDisk jwt filename env ∨ LeavesSame d.toDisk jwt filename env := by
  by_cases hsucceeds : Succeeds d.toDisk jwt filename env
  · refine iff_of_true ?_ (.inl hsucceeds)
    obtain ⟨name, rfl⟩ := Option.isSome_iff_exists.mp hsucceeds.named
    rw [eval_upload_of_succeeds hsucceeds]
    intro err herr
    cases herr
  · obtain ⟨err, herr⟩ := eval_upload_of_not_succeeds hsucceeds
    rw [or_iff_right hsucceeds]
    have hfails : (∀ err, ((uploadAvatar filename jwt).eval exec env d.toDisk).1 = .error err →
        SameFiles d.toDisk ((uploadAvatar filename jwt).eval exec env d.toDisk).2) ↔
        SameFiles d.toDisk ((uploadAvatar filename jwt).eval exec env d.toDisk).2 :=
      ⟨fun h => h err herr, fun h _ _ => h⟩
    rw [hfails, LeavesSame]
    by_cases hremoves : RemovalFails d.toDisk jwt (env 0)
    · rw [eval_upload_of_removalFails filename hremoves]
      exact iff_of_true (fun _ => rfl) (.inl hremoves)
    · rw [or_iff_right hremoves]
      cases filename with
      | none =>
          rw [eval_upload_of_unnamed hremoves, sameFiles_cleared_iff]
          simp
      | some filename =>
          cases hopens : (env 0).openFails with
          | true =>
              rw [eval_upload_of_unopened filename hremoves hopens, sameFiles_cleared_iff]
              simp
          | false =>
              rw [eval_upload_of_opened filename hremoves hopens, sameFiles_store_iff d.linked]
              simp

/-- A directory with the avatar of one user. -/
def oneAvatar : AvatarDirectory :=
  ⟨⟨Collection.empty.put ⟨"7.png", 0⟩, [⟨"7", [1]⟩]⟩, by
    intro file hfile
    obtain ⟨hold, -⟩ | rfl := Collection.mem_put.mp hfile
    · cases hold
    · exact Nat.zero_lt_one⟩

theorem isNumeral_seven : IsNumeral "7" := by decide

def ada : AvatarUser := ⟨⟨"7", "Ada", "ada@b.c", "user"⟩, isNumeral_seven⟩

/-- The new file cannot be opened, and the old one is gone. -/
theorem failedUpload_loses_old :
    ∃ err d', (uploadAvatar (some "me.jpg") ada).eval exec
        (fun _ => ⟨["7.png"], false, false, true, none, none⟩) oneAvatar.toDisk = (.error err, d') ∧
      oneAvatar.read? "7.png" = some [1] ∧ d'.read? "7.png" = none ∧
      ¬ SameFiles oneAvatar.toDisk d' := by
  refine ⟨_, _, rfl, by rfl, by rfl, ?_⟩
  intro h
  cases h "7.png"

end BookHub.MediaService
