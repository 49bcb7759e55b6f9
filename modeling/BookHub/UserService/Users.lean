import BookHub.Base.JsValue
import BookHub.Base.Pool
import BookHub.Base.Table

/-!
# The users of the user service

The `Users` table, and the operations that the handlers of the service wait for: the calls of the
model and `bcrypt.hash`.

An instance keeps the row as it was loaded. `update` writes the fields in which the given values
differ from the loaded row, and nothing else of it, whatever the row has become in the meantime.
-/

namespace BookHub.UserService

/-! ### The table -/

inductive Role where
  | admin
  | user
  | moderator
  deriving DecidableEq, Repr

namespace Role

def label : Role → String
  | admin => "admin"
  | user => "user"
  | moderator => "moderator"

/-- The labels of the enum type of the column. -/
def ofLabel? (label : String) : Option Role := [admin, user, moderator].find? fun r => r.label == label

end Role

/-- A row of the `Users` table. -/
structure User where
  id : Nat
  name : String
  email : String
  password : String
  role : Role
  createdAt : Int
  updatedAt : Int
  deriving DecidableEq, Repr

abbrev UsersTable : Type := Table User.id

/-! ### Libraries -/

/-- The libraries under the service: the integer parser and the filters of the database, dates, and
bcrypt with the texts of its refusals of what is not a string. -/
structure Runtime extends JsRuntime where
  int4In : String → Option Int
  emailFilter : JsValue → Option (String → Bool)
  isoString : Int → String
  bcryptHash : String → Nat → String
  compareSync : String → String → Bool
  hashRefusal : JsValue → String
  compareRefusal : JsValue → String

/-- An error with its message. -/
structure JsError where
  message : String
  deriving DecidableEq, Repr

/-- What a `varchar(255)` column stores: blanks beyond the limit are cut off, no other text is. -/
def varchar (s : String) : Option String :=
  if s.toList.contains (Char.ofNat 0) then none
  else if s.toList.length ≤ 255 then some s
  else if (s.toList.drop 255).all (· == ' ') then some (String.ofList (s.toList.take 255))
  else none

/-- What a `STRING` attribute stores for a value. -/
def Runtime.column (rt : Runtime) : JsValue → Option String
  | .string value => varchar value
  | .number value => some (rt.numberText value)
  | .bool value => some (toString value)
  | _ => none

def roleColumn : JsValue → Option Role
  | .string value => Role.ofLabel? value
  | _ => none

/-- The role of a row that is created; the column has a default. -/
def newRole : JsValue → Option Role
  | .undefined => some .user
  | value => roleColumn value

/-! ### The operations -/

/-- The values of a `create`. -/
structure NewUser where
  name : JsValue
  email : JsValue
  password : String
  role : JsValue

/-- The values of an `update`; `undefined` leaves a field out. -/
structure UserValues where
  name : JsValue := .undefined
  password : JsValue := .undefined
  role : JsValue := .undefined

inductive UserOp where
  | findOneByEmail (email : JsValue)
  | findByPk (param : JsValue)
  | findAll
  | hash (data : JsValue)
  | create (values : NewUser)
  | update (user : User) (values : UserValues)
  | destroy (id : Nat)

abbrev userSig : Signature where
  Op := UserOp
  Answer
    | .findOneByEmail _ => Option User
    | .findByPk _ => Option User
    | .findAll => List User
    | .hash _ => String
    | .create _ => User
    | .update _ _ => Unit
    | .destroy _ => Unit

/-- What the environment decides for one operation: whether the database raises, the text of the error
if the operation fails, whether an insert that fails has drawn its key, the salt of a hash and the
time. -/
structure UserEnv where
  raises : Bool
  errorText : String
  drawsKey : Bool
  salt : Nat
  millis : Int

/-- The value differs from what was loaded; `undefined` never does. -/
def differs : JsValue → String → Bool
  | .undefined, _ => false
  | .string value, loaded => value != loaded
  | _, _ => true

/-- What an `update` writes to a field, if it writes it, and `none` if the value is refused. -/
def written {τ : Type} (column : JsValue → Option τ) (loaded : String) (value : JsValue) :
    Option (Option τ) :=
  if differs value loaded then (column value).map some else some none

/-- `SET` of the fields that are written. -/
def User.set (name password : Option String) (role : Option Role) (updatedAt : Int) (user : User) :
    User :=
  { user with
    name := name.getD user.name
    password := password.getD user.password
    role := role.getD user.role
    updatedAt }

@[simp] theorem User.id_set (name password : Option String) (role : Option Role) (updatedAt : Int)
    (user : User) : (user.set name password role updatedAt).id = user.id := rfl

variable (rt : Runtime)

/-- The rows with this value as their key. -/
def findByPk (users : UsersTable) : JsValue → Option (Option User)
  | .undefined => some none
  | .null => some none
  | .number (.finite value) => some (users.rows.find? fun user => (user.id : Rat) == value)
  | .string value => (rt.int4In value).map fun id => users.rows.find? fun user => (user.id : Int) == id
  | _ => none

def findOneByEmail (users : UsersTable) : JsValue → Option (Option User)
  | .string value => some (users.rows.find? fun user => user.email == value)
  | filter => (rt.emailFilter filter).map fun selects => users.rows.find? fun user => selects user.email

/-- The table after an insert that fails. -/
def notCreated (users : UsersTable) (env : UserEnv) : UsersTable :=
  if hdrawn : env.drawsKey ∧ users.nextId < 2 ^ 31 then users.skip hdrawn.2 else users

/-- `INSERT` of a row with a free email. -/
def create (users : UsersTable) (values : NewUser) (env : UserEnv) :
    Except JsError User × UsersTable :=
  match rt.column values.name, rt.column values.email, varchar values.password,
      newRole values.role with
  | some name, some email, some password, some role =>
      if hroom : users.nextId < 2 ^ 31 then
        if env.raises || users.rows.any fun user => user.email == email then
          (.error ⟨env.errorText⟩, notCreated users env)
        else
          (.ok ⟨users.nextId, name, email, password, role, env.millis, env.millis⟩,
            users.insert (fun id => ⟨id, name, email, password, role, env.millis, env.millis⟩)
              (fun _ => rfl) hroom)
      else (.error ⟨env.errorText⟩, users)
  | _, _, _, _ => (.error ⟨env.errorText⟩, notCreated users env)

/-- `UPDATE` of the row with the key of the instance, if a field is written; none may have it. -/
def update (users : UsersTable) (user : User) (values : UserValues) (env : UserEnv) :
    Except JsError Unit × UsersTable :=
  match written rt.column user.name values.name, written rt.column user.password values.password,
      written roleColumn user.role.label values.role with
  | some none, some none, some none => (.ok (), users)
  | some name, some password, some role =>
      if env.raises then (.error ⟨env.errorText⟩, users)
      else (.ok (), users.modify user.id (User.set name password role env.millis)
        (User.id_set name password role env.millis))
  | _, _, _ => (.error ⟨env.errorText⟩, users)

def orRaise {τ : Type} (env : UserEnv) (answer : Option τ) : Except JsError τ :=
  answer.elim (.error ⟨env.errorText⟩) .ok

/-- How the database and bcrypt execute an operation. -/
def exec (users : UsersTable) (op : UserOp) (env : UserEnv) :
    Except JsError (userSig.Answer op) × UsersTable :=
  match op with
  | .findOneByEmail email =>
      (if env.raises then .error ⟨env.errorText⟩ else orRaise env (findOneByEmail rt users email), users)
  | .findByPk param =>
      (if env.raises && !param.isNullish then .error ⟨env.errorText⟩
        else orRaise env (findByPk rt users param), users)
  | .findAll => (if env.raises then .error ⟨env.errorText⟩ else .ok users.rows, users)
  | .hash (.string data) => (.ok (rt.bcryptHash data env.salt), users)
  | .hash data => (.error ⟨rt.hashRefusal data⟩, users)
  | .create values => create rt users values env
  | .update user values => update rt users user values env
  | .destroy id => if env.raises then (.error ⟨env.errorText⟩, users) else (.ok (), users.erase id)

/-! ### What an operation does to the table -/

/-- The operations that leave the table. -/
def UserOp.reads : UserOp → Bool
  | create _ => false
  | update _ _ => false
  | destroy _ => false
  | _ => true

section Lemmas

variable {rt}

theorem exec_of_reads {op : UserOp} (h : op.reads = true) (users : UsersTable) (env : UserEnv) :
    (exec rt users op env).2 = users := by
  cases op with
  | findOneByEmail email => rfl
  | findByPk param => rfl
  | findAll => rfl
  | hash data => cases data <;> rfl
  | create values => cases h
  | update user values => cases h
  | destroy id => cases h

theorem rows_notCreated (users : UsersTable) (env : UserEnv) :
    (notCreated users env).rows = users.rows := by
  unfold notCreated
  split <;> rfl

theorem exec_create (users : UsersTable) (values : NewUser) (env : UserEnv) :
    (exec rt users (.create values) env).2.rows = users.rows ∨
      ∃ row, row.id = users.nextId ∧ newRole values.role = some row.role ∧
        (exec rt users (.create values) env).2.rows = users.rows ++ [row] := by
  simp only [exec, create]
  split
  · rename_i name email password role hname hemail hpassword hrole
    split
    · split
      · exact .inl (rows_notCreated users env)
      · exact .inr ⟨_, rfl, hrole, rfl⟩
    · exact .inl rfl
  · exact .inl (rows_notCreated users env)

theorem exec_update (users : UsersTable) (user : User) (values : UserValues) (env : UserEnv) :
    (exec rt users (.update user values) env).2 = users ∨
      ∃ name password role, written rt.column user.name values.name = some name ∧
        written rt.column user.password values.password = some password ∧
        written roleColumn user.role.label values.role = some role ∧
        (exec rt users (.update user values) env).2 =
          users.modify user.id (User.set name password role env.millis)
            (User.id_set name password role env.millis) := by
  simp only [exec, update]
  split
  · exact .inl rfl
  · rename_i name password role _ hname hpassword hrole
    split
    · exact .inl rfl
    · exact .inr ⟨name, password, role, hname, hpassword, hrole, rfl⟩
  · exact .inl rfl

/-- An `update` whose values are all stored: nothing is sent if nothing is written. -/
theorem update_of_written {users : UsersTable} {user : User} {values : UserValues} {name password : Option String} {role : Option Role}
    (hname : written rt.column user.name values.name = some name)
    (hpassword : written rt.column user.password values.password = some password)
    (hrole : written roleColumn user.role.label values.role = some role) (env : UserEnv) :
    update rt users user values env =
      if name = none ∧ password = none ∧ role = none then (.ok (), users)
      else if env.raises then (.error ⟨env.errorText⟩, users)
      else (.ok (), users.modify user.id (User.set name password role env.millis)
        (User.id_set name password role env.millis)) := by
  unfold update
  rw [hname, hpassword, hrole]
  cases name <;> cases password <;> cases role <;> rfl

/-- An `update` with a value that is refused. -/
theorem update_of_refused {users : UsersTable} {user : User} {values : UserValues}
    (h : written rt.column user.name values.name = none ∨
      written rt.column user.password values.password = none ∨
      written roleColumn user.role.label values.role = none) (env : UserEnv) :
    update rt users user values env = (.error ⟨env.errorText⟩, users) := by
  unfold update
  split
  · simp_all
  · simp_all
  · rfl

theorem exec_destroy (users : UsersTable) (id : Nat) (env : UserEnv) :
    (exec rt users (.destroy id) env).2 = users ∨
      (exec rt users (.destroy id) env).2 = users.erase id := by
  simp only [exec]
  split
  · exact .inl rfl
  · exact .inr rfl

/-- A row after an operation was there before, or has been created, or is the update of a row. -/
theorem mem_exec {users : UsersTable} {op : UserOp} {env : UserEnv} {row' : User}
    (h : row' ∈ (exec rt users op env).2.rows) :
    row' ∈ users.rows ∨
      (∃ values, op = .create values ∧ row'.id = users.nextId ∧
        newRole values.role = some row'.role) ∨
      ∃ user values name password role, op = .update user values ∧
        written rt.column user.password values.password = some password ∧
        written roleColumn user.role.label values.role = some role ∧
        ∃ row ∈ users.rows, row.id = user.id ∧ row.set name password role env.millis = row' := by
  cases op with
  | findOneByEmail email => exact .inl h
  | findByPk param => exact .inl h
  | findAll => exact .inl h
  | hash data =>
      rw [exec_of_reads rfl] at h
      exact .inl h
  | create values =>
      obtain hsame | ⟨row, hid, hrole, hrows⟩ := @exec_create rt users values env
      · exact .inl (hsame ▸ h)
      · rw [hrows, List.mem_append, List.mem_singleton] at h
        obtain h | rfl := h
        · exact .inl h
        · exact .inr (.inl ⟨values, rfl, hid, hrole⟩)
  | update user values =>
      rcases @exec_update rt users user values env with
        hsame | ⟨name, password, role, -, hpassword, hrole, hmodify⟩
      · exact .inl (hsame ▸ h)
      · rw [hmodify, Table.mem_modify] at h
        obtain ⟨h, -⟩ | ⟨row, hrow, hid, hset⟩ := h
        · exact .inl h
        · exact .inr (.inr ⟨user, values, name, password, role, rfl, hpassword, hrole, row, hrow, hid,
            hset⟩)
  | destroy id =>
      obtain hsame | herase := @exec_destroy rt users id env
      · exact .inl (hsame ▸ h)
      · rw [herase, Table.mem_erase] at h
        exact .inl h.1

end Lemmas

end BookHub.UserService
