import BookHub.Base.Collection
import BookHub.Base.Pool
import BookHub.Base.PosixPath
import BookHub.BookService.Handlers

/-!
# The avatars of the media service

A directory with one file for each user who has an avatar: its name is the id of the user and the
extension of the file that was uploaded, and it is found again by the pattern `id.*`. The handlers are
`async` functions of one event loop, so what a handler does between two points where it waits is one
operation here: an upload removes the old file and opens the new one, waits for the contents, and writes
them through the descriptor it has, whatever has become of the name in the meantime.

A file that is answered is opened and read after the handler has returned. Which of several names the
directory lists first, and whether a call fails, is up to the environment.
-/

namespace BookHub.MediaService

open BookService (JwtUser)

/-- A text of decimal digits. -/
def IsNumeral (id : String) : Prop := id ≠ "" ∧ id.toList.all Char.isDigit = true

instance (id : String) : Decidable (IsNumeral id) := inferInstanceAs (Decidable (_ ∧ _))

/-- A user whose id is a decimal numeral. -/
structure AvatarUser extends JwtUser where
  numeral : IsNumeral id

abbrev Bytes : Type := List UInt8

/-- An entry of the directory. -/
structure AvatarFile where
  name : String
  inode : Nat
  deriving DecidableEq, Repr

/-- A file, with the id of the user whose upload created it. -/
structure Inode where
  writer : String
  content : Bytes
  deriving DecidableEq, Repr

/-- The directory, and the files that have ever been in it; a descriptor is the number of one. -/
structure Disk where
  dir : Collection AvatarFile.name
  inodes : List Inode

/-- What is raised. -/
inductive MediaError where
  | http (status : Nat) (detail : String)
  | typeError
  | runtimeError
  deriving DecidableEq, Repr

/-- What one operation meets. -/
structure DiskEnv where
  /-- The names of the directory, in the order of its listing. -/
  listing : List String
  listingFails : Bool
  removeFails : Bool
  openFails : Bool
  /-- The contents of the upload; `none` is a read that raises. -/
  content : Option Bytes
  /-- The bytes after which writing raises, if it does. -/
  written : Option Nat

namespace Disk

def empty : Disk := ⟨Collection.empty, []⟩

def names (d : Disk) : List String := d.dir.keys

/-- The listing of the directory, in the order that the environment names if that is an order of the
names; where it fails, `glob` takes the directory for an empty one. -/
def listdir (d : Disk) (env : DiskEnv) : List String :=
  if env.listingFails then []
  else if env.listing.Perm d.names then env.listing else d.names

/-- `glob.glob(f"{file_path}.*")`, for the names below the directory. -/
def glob (d : Disk) (id : String) (env : DiskEnv) : List String :=
  (d.listdir env).filter fun name => fnmatch (id.toList ++ ['.', '*']) name.toList

def unlink (d : Disk) (name : String) : Disk :=
  { d with dir := d.dir.deleteOne fun file => file.name == name }

/-- `open(path, "wb")`: a file that is there is truncated. -/
def openForWrite (d : Disk) (writer name : String) : Nat × Disk :=
  match d.dir.find? name with
  | some file =>
      (file.inode, { d with inodes := d.inodes.modify file.inode fun i => { i with content := [] } })
  | none =>
      (d.inodes.length,
        ⟨d.dir.put ⟨name, d.inodes.length⟩, d.inodes ++ [⟨writer, []⟩]⟩)

/-- Write at the start of a file. -/
def write (d : Disk) (fd : Nat) (bytes : Bytes) : Disk :=
  { d with inodes := d.inodes.modify fd fun i =>
      { i with content := bytes ++ i.content.drop bytes.length } }

end Disk

/-! ### What the handlers do without waiting -/

def removeAvatar (d : Disk) (jwt : AvatarUser) (env : DiskEnv) : Except MediaError Bool × Disk :=
  match d.glob jwt.id env with
  | [] => (.ok true, d)
  | first :: _ =>
      if env.removeFails then (.error (.http 400 s!"Remove avatar for user {jwt.email} failed"), d)
      else (.ok true, d.unlink first)

/-- `upload_avatar` until it waits for the contents: the descriptor and the name, or `none` where it
returns before. -/
def beginUpload (d : Disk) (jwt : AvatarUser) (filename : Option String) (env : DiskEnv) :
    Except MediaError (Option (Nat × String)) × Disk :=
  match removeAvatar d jwt env with
  | (.error err, d) => (.error err, d)
  | (.ok false, d) => (.ok none, d)
  | (.ok true, d) =>
      match filename with
      | none => (.error .typeError, d)
      | some filename =>
          let name := jwt.id ++ splitext filename
          if env.openFails then (.error (.http 422 "Unable to save media file"), d)
          else
            let (fd, d) := d.openForWrite jwt.id name
            (.ok (some (fd, name)), d)

/-- `upload_avatar` from there on; a `try` without a class catches everything. -/
def finishUpload (d : Disk) (fd : Nat) (env : DiskEnv) : Except MediaError Unit × Disk :=
  match env.content with
  | none => (.error (.http 422 "Unable to save media file"), d)
  | some content =>
      match env.written with
      | none => (.ok (), d.write fd content)
      | some count => (.error (.http 422 "Unable to save media file"), d.write fd (content.take count))

def findAvatar (d : Disk) (jwt : AvatarUser) (env : DiskEnv) : Except MediaError String :=
  match d.glob jwt.id env with
  | [] => .error (.http 404 "File not found")
  | first :: _ => .ok first

/-! ### The handlers -/

inductive MediaOp where
  | beginUpload (jwt : AvatarUser) (filename : Option String)
  | finishUpload (fd : Nat)
  | removeAvatar (jwt : AvatarUser)
  | findAvatar (jwt : AvatarUser)
  | openFile (name : String)
  | readFile (fd : Nat)

abbrev mediaSig : Signature where
  Op := MediaOp
  Answer
    | .beginUpload _ _ => Option (Nat × String)
    | .finishUpload _ => Unit
    | .removeAvatar _ => Bool
    | .findAvatar _ => String
    | .openFile _ => Nat
    | .readFile _ => Bytes

def exec (d : Disk) : (op : MediaOp) → DiskEnv → Except MediaError (mediaSig.Answer op) × Disk
  | .beginUpload jwt filename, env => beginUpload d jwt filename env
  | .finishUpload fd, env => finishUpload d fd env
  | .removeAvatar jwt, env => removeAvatar d jwt env
  | .findAvatar jwt, env => (findAvatar d jwt env, d)
  | .openFile name, env =>
      match d.dir.find? name with
      | some file => (if env.openFails then .error .runtimeError else .ok file.inode, d)
      | none => (.error .runtimeError, d)
  | .readFile fd, _ => ((d.inodes[fd]?).elim (.error .runtimeError) fun i => .ok i.content, d)

abbrev MediaM : Type → Type := Coroutine mediaSig MediaError

def call (op : MediaOp) : MediaM (mediaSig.Answer op) := @Coroutine.perform mediaSig MediaError op

structure ServiceResponse where
  data : String
  message : String
  deriving DecidableEq, Repr

/-- What a request is answered. -/
inductive MediaAnswer where
  | response (response : Option ServiceResponse)
  | file (name : String) (content : Bytes)
  | removed (result : Bool)
  deriving DecidableEq, Repr

def uploadAvatar (filename : Option String) (jwt : AvatarUser) : MediaM MediaAnswer := do
  match ← call (.beginUpload jwt filename) with
  | none => return .response none
  | some (fd, name) =>
      call (.finishUpload fd)
      return .response (some ⟨name, "Success"⟩)

/-- The name is found, and then the `FileResponse` is sent. -/
def getAvatar (jwt : AvatarUser) : MediaM MediaAnswer := do
  let name ← call (.findAvatar jwt)
  let fd ← call (.openFile name)
  let content ← call (.readFile fd)
  return .file name content

def deleteAvatar (jwt : AvatarUser) : MediaM MediaAnswer := do
  return .removed (← call (.removeAvatar jwt))

inductive MediaRoute where
  | upload (filename : Option String)
  | get
  | remove
  deriving DecidableEq, Repr

structure MediaRequest where
  jwt : AvatarUser
  route : MediaRoute

def handler (request : MediaRequest) : MediaM MediaAnswer :=
  match request.route with
  | .upload filename => uploadAvatar filename request.jwt
  | .get => getAvatar request.jwt
  | .remove => deleteAvatar request.jwt

def service : Service mediaSig MediaError Disk DiskEnv MediaRequest MediaAnswer where
  handler := handler
  exec := exec

abbrev MediaPool : Type := Pool mediaSig MediaError Disk MediaRequest MediaAnswer

theorem mem_unlink {d : Disk} {name : String} {file : AvatarFile} :
    file ∈ (d.unlink name).dir.docs ↔ file ∈ d.dir.docs ∧ file.name ≠ name := by
  rw [Disk.unlink, Collection.mem_deleteOne (k := name) (fun file hfile => by simpa using hfile)]
  simp

/-! ### Names -/

/-- The name matches `id.*`. -/
def Matches (id name : String) : Prop := id.toList ++ ['.'] <+: name.toList

theorem IsNumeral.ne_of_mem {id : String} (h : IsNumeral id) {c : Char} (hc : c ∈ id.toList) :
    c ≠ '.' ∧ c ≠ '*' ∧ c ≠ '?' ∧ c ≠ '[' := by
  have hdigit := List.all_eq_true.mp h.2 c hc
  refine ⟨?_, ?_, ?_, ?_⟩
  all_goals
    intro heq
    rw [heq] at hdigit
    revert hdigit
    decide

/-- The pattern of a numeral has no wildcard but the star. -/
theorem fnmatch_iff_matches {id : String} (h : IsNumeral id) (name : String) :
    fnmatch (id.toList ++ ['.', '*']) name.toList = true ↔ Matches id name := by
  have hliteral : Literal (id.toList ++ ['.']) := by
    intro c hc
    obtain hc | hc := List.mem_append.mp hc
    · exact (h.ne_of_mem hc).2
    · rw [List.mem_singleton.mp hc]
      decide
  have hsplit : id.toList ++ ['.', '*'] = (id.toList ++ ['.']) ++ ['*'] := by simp
  rw [hsplit, fnmatch_literal_star hliteral]
  rfl

/-- The name is the id, or the id with an extension. -/
def NamedAfter (id name : String) : Prop :=
  IsNumeral id ∧ ∃ extension, name = id ++ extension ∧
    (extension = "" ∨ ∃ tail, extension.toList = '.' :: tail)

theorem namedAfter_splitext {id : String} (h : IsNumeral id) (filename : String) :
    NamedAfter id (id ++ splitext filename) := by
  refine ⟨h, splitext filename, rfl, ?_⟩
  obtain hnil | ⟨tail, hcons, -, -⟩ := splitext_cases filename
  · exact Or.inl hnil
  · exact Or.inr ⟨tail, hcons⟩

theorem IsNumeral.dot_not_mem {id : String} (h : IsNumeral id) : '.' ∉ id.toList :=
  fun hdot => (h.ne_of_mem hdot).1 rfl

/-- A name after one numeral matches the pattern of no other. -/
theorem NamedAfter.eq_of_matches {id id' name : String} (h : NamedAfter id name)
    (h' : IsNumeral id') (hmatches : Matches id' name) : id' = id := by
  obtain ⟨hid, extension, rfl, hextension⟩ := h
  unfold Matches at hmatches
  rw [String.toList_append] at hmatches
  obtain rfl | ⟨tail, htail⟩ := hextension
  · -- an id alone has no dot to match
    rw [String.toList_empty, List.append_nil] at hmatches
    exact absurd (hmatches.subset (List.mem_append_right _ List.mem_cons_self)) hid.dot_not_mem
  · rw [htail] at hmatches
    exact String.toList_inj.mp (stem_unique hid.dot_not_mem h'.dot_not_mem hmatches)

/-- A name is after one numeral only. -/
theorem NamedAfter.unique {id id' name : String} (h : NamedAfter id name) (h' : NamedAfter id' name) :
    id' = id := by
  obtain ⟨hid, extension, rfl, hextension⟩ := h
  obtain ⟨hid', extension', heq, hextension'⟩ := h'
  obtain rfl | ⟨tail', htail'⟩ := hextension'
  · obtain rfl | ⟨tail, htail⟩ := hextension
    · simpa using heq.symm
    · have hdot : '.' ∈ id'.toList := by
        have hlist := congrArg String.toList heq
        rw [String.append_empty, String.toList_append, htail] at hlist
        rw [← hlist]
        exact List.mem_append_right _ List.mem_cons_self
      exact absurd hdot hid'.dot_not_mem
  · have hnamed : NamedAfter id (id ++ extension) := ⟨hid, extension, rfl, hextension⟩
    apply hnamed.eq_of_matches hid'
    unfold Matches
    rw [heq, String.toList_append, htail']
    exact ⟨tail', by simp⟩

end BookHub.MediaService
