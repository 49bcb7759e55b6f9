import BookHub.UserService.Roles

/-!
# The page of the users

Admins change users on a page of the browser. The page loads the users once; its dialog edits a copy of
one of them, and a save sends that copy to the user service. When the response comes the page puts the
copy into its list, as it is by then: it does not load the user again, and the dialog may have gone on
changing the copy.

The page and the service run interleaved, with any other requests to the service. As long as nothing is
typed into a copy that is being saved, whatever the page lists of a user has been in the table at some
time, field by field, unless the user has been deleted.
-/

namespace BookHub.UserService

/-! ### The page -/

/-- An object of the page with the fields of the interface `User`. -/
structure UserModel where
  id : JsValue
  name : JsValue
  email : JsValue
  role : JsValue

namespace UserModel

def ofValue (value : JsValue) : UserModel :=
  ⟨value.property "id", value.property "name", value.property "email", value.property "role"⟩

def toValue (user : UserModel) : JsValue :=
  .object [("id", user.id), ("name", user.name), ("email", user.email), ("role", user.role)]

end UserModel

/-- `x === y`, for values that are not objects. -/
def strictEq : JsValue → JsValue → Bool
  | .undefined, .undefined => true
  | .null, .null => true
  | .bool x, .bool y => x == y
  | .number x, .number y => x == y
  | .string x, .string y => x == y
  | _, _ => false

/-- The state of the component. Its objects are referred to by their places: an object of the list and
the one in the dialog may be the same. -/
structure AdminUsers where
  objects : List UserModel
  users : List Nat
  selectedUser : Option Nat
  displayDialog : Bool
  loading : Bool

/-- What a response is awaited for. -/
inductive Subscription where
  | getAllUsers
  | updateUserById (updatedUser : Nat)
  | passwordReset
  deriving DecidableEq

namespace AdminUsers

def roles : List String := ["admin", "moderator", "user"]

/-- The component when it is made. -/
def new : AdminUsers := ⟨[], [], none, false, true⟩

/-- What the table shows. -/
def shown (page : AdminUsers) : List UserModel := page.users.filterMap (page.objects[·]?)

def editUser (page : AdminUsers) (index : Nat) : Option AdminUsers :=
  ((page.users[index]?).bind (page.objects[·]?)).map fun user =>
    { page with
      objects := page.objects ++ [user]
      selectedUser := some page.objects.length
      displayDialog := true }

/-- The object in the dialog, while that is open. -/
def edited (page : AdminUsers) : Option Nat := if page.displayDialog then page.selectedUser else none

/-- The dialog binds its fields to the object itself. -/
def input (page : AdminUsers) (change : UserModel → UserModel) : Option AdminUsers :=
  page.edited.map fun selectedUser => { page with objects := page.objects.modify selectedUser change }

/-- `u.id`, of the object at this place. -/
def idAt (page : AdminUsers) (place : Nat) : JsValue :=
  (page.objects[place]?).elim .undefined UserModel.id

/-- The response is a success. -/
def next (page : AdminUsers) (body : JsValue) : Subscription → AdminUsers
  | .getAllUsers =>
      match body.property "data" with
      | .array items =>
          { page with
            objects := page.objects ++ items.map UserModel.ofValue
            users := List.range' page.objects.length items.length
            loading := false }
      | _ => { page with users := [], loading := false }
  | .updateUserById updatedUser =>
      { page with
        users := page.users.map fun u =>
          if strictEq (page.idAt u) (page.idAt updatedUser) then updatedUser else u
        displayDialog := false }
  | .passwordReset => page

/-- The response is an error, or there is none. -/
def error (page : AdminUsers) : Subscription → AdminUsers
  | .getAllUsers => { page with loading := false }
  | _ => page

end AdminUsers

/-! ### The page and the service -/

/-- A request of the page, and its place at the service once it has come there. -/
structure Flight where
  subscription : Subscription
  request : Request
  thread : Option Nat

structure UsersSystem where
  service : UserPool
  page : AdminUsers
  flights : List Flight

/-- `service` are the steps of the user service and the requests of others; `deliver`, `respond` and
`fail` are those of the network. -/
inductive UsersMove where
  | service (move : UserMove)
  | ngOnInit (token : Token)
  | editUser (index : Nat)
  | inputName (name : String)
  | selectRole (role : String)
  | hide
  | saveUser (token : Token)
  | passwordReset (index : Nat) (token : Token)
  | deliver (index : Nat)
  | respond (index : Nat)
  | fail (index : Nat)

/-- The body of a response that the client takes for a success. -/
def success? : Except JsError Response → Option JsValue
  | .ok response => if 200 ≤ response.status ∧ response.status < 300 then some response.body else none
  | .error _ => none

namespace UsersSystem

def start (users : UsersTable) : UsersSystem := ⟨Service.start users, .new, []⟩

/-- Send a request; it is written as it is now. -/
def send (s : UsersSystem) (subscription : Subscription) (request : Request) : UsersSystem :=
  { s with flights := s.flights ++ [⟨subscription, request, none⟩] }

def saveUser (s : UsersSystem) (token : Token) : Option UsersSystem :=
  s.page.edited.bind fun updatedUser => (s.page.objects[updatedUser]?).map fun user =>
    s.send (.updateUserById updatedUser) ⟨.updateById, token, user.toValue⟩

def passwordReset (s : UsersSystem) (index : Nat) (token : Token) : Option UsersSystem :=
  ((s.page.users[index]?).bind (s.page.objects[·]?)).map fun item =>
    s.send .passwordReset ⟨.passwordReset, token, .object [("id", item.id)]⟩

/-- A flight ends with this result. -/
def land (s : UsersSystem) (index : Nat) (flight : Flight) (body : Option JsValue) : UsersSystem :=
  { s with
    page := body.elim (s.page.error flight.subscription) fun body =>
      s.page.next body flight.subscription
    flights := s.flights.eraseIdx index }

def respond (s : UsersSystem) (index : Nat) : Option UsersSystem := do
  let flight ← s.flights[index]?
  let thread ← flight.thread
  let t ← s.service.threads[thread]?
  match t.code with
  | .done result => some (s.land index flight (success? result))
  | .await _ _ => none

variable (rt : Runtime)

def deliver (s : UsersSystem) (index : Nat) : Option UsersSystem := do
  let flight ← s.flights[index]?
  if flight.thread.isSome then none
  let service' ← (UserService.service rt).machine.step s.service (.arrive flight.request)
  return { s with
    service := service'
    flights := s.flights.set index { flight with thread := some s.service.threads.length } }

def machine : Machine UsersSystem UsersMove where
  step
    | s, .service move =>
        ((UserService.service rt).machine.step s.service move).map fun service => { s with service }
    | s, .ngOnInit token =>
        some { s with page := .new, flights := [⟨.getAllUsers, ⟨.getAll, token, .undefined⟩, none⟩] }
    | s, .editUser index => (s.page.editUser index).map fun page => { s with page }
    | s, .inputName name =>
        (s.page.input fun user => { user with name := .string name }).map fun page => { s with page }
    | s, .selectRole role =>
        if role ∈ AdminUsers.roles then
          (s.page.input fun user => { user with role := .string role }).map fun page => { s with page }
        else none
    | s, .hide => some { s with page := { s.page with displayDialog := false } }
    | s, .saveUser token => s.saveUser token
    | s, .passwordReset index token => s.passwordReset index token
    | s, .deliver index => s.deliver rt index
    | s, .respond index => s.respond index
    | s, .fail index => (s.flights[index]?).map fun flight => s.land index flight none

end UsersSystem

/-! ### What the page has been told -/

/-- There was such a user once, and there is none any more. -/
def Deleted (users : UsersTable) (id : Nat) : Prop :=
  id < users.nextId ∧ ∀ row ∈ users.rows, row.id ≠ id

/-- A row of this user, in one of the tables, has the property. -/
def Held (tables : List UsersTable) (id : Nat) (prop : User → Prop) : Prop :=
  ∃ table ∈ tables, ∃ row ∈ table.rows, row.id = id ∧ prop row

/-- The name, as the column stores it, has been in the table, and so has the role. -/
def Saved (tables : List UsersTable) (id : Nat) (name role : String) : Prop :=
  Held tables id (fun row => row.name = name ∨ varchar name = some row.name) ∧
    Held tables id fun row => row.role.label = role

/-- What is known of a user comes from the tables so far, the last of which is `now`. -/
def Stored (tables : List UsersTable) (now : UsersTable) (user : UserModel) : Prop :=
  ∃ id name email role, user = ⟨.ofNat id, .string name, .string email, .string role⟩ ∧
    Held tables id (fun row => row.email = email) ∧ (Deleted now id ∨ Saved tables id name role)

/-- The tables that the service has had. -/
def tablesOf (past : List (UsersSystem × UsersMove)) (s : UsersSystem) : List UsersTable :=
  past.map (fun step => step.1.service.store) ++ [s.service.store]

/-- What the page lists after the step comes from the tables. -/
def ListsStored (past : List (UsersSystem × UsersMove)) (s : UsersSystem) (move : UsersMove)
    (s' : UsersSystem) : Prop :=
  ∀ user ∈ s'.page.shown, Stored (tablesOf (past ++ [(s, move)]) s') s'.service.store user

/-- Nothing is changed in an object while it is being saved. -/
def NotInputInFlight (s : UsersSystem) : UsersMove → Prop
  | .inputName _ => ∀ flight ∈ s.flights, ∀ place ∈ s.page.edited,
      flight.subscription ≠ .updateUserById place
  | .selectRole _ => ∀ flight ∈ s.flights, ∀ place ∈ s.page.edited,
      flight.subscription ≠ .updateUserById place
  | _ => True

/-! ### What the answers of the table say -/

/-- The row has been in the table. -/
def Known (tables : List UsersTable) (now : UsersTable) (user : User) : Prop :=
  user.id < now.nextId ∧ ∃ table ∈ tables, user ∈ table.rows

variable (rt : Runtime)

/-- What an answer says about the tables up to now. -/
def Executed (tables : List UsersTable) (now : UsersTable) :
    (op : UserOp) → Except JsError (userSig.Answer op) → Prop
  | .findByPk param, .ok (some user) => Denotes rt param user.id ∧ Known tables now user
  | .findAll, .ok users => ∀ user ∈ users, Known tables now user
  | .update user values, .ok _ => ∀ name role, values.name = .string name →
      values.role = .string role → Deleted now user.id ∨ Saved tables user.id name role
  | _, _ => True

/-- The tables go on, and what was deleted does not come back. -/
structure Later (tables : List UsersTable) (now : UsersTable) (tables' : List UsersTable)
    (now' : UsersTable) : Prop where
  subset : tables ⊆ tables'
  nextId : now.nextId ≤ now'.nextId
  deleted : ∀ id, Deleted now id → Deleted now' id

section Lemmas

variable {rt} {tables tables' : List UsersTable} {now now' : UsersTable}

theorem nextId_le_exec (now : UsersTable) (op : UserOp) (env : UserEnv) :
    now.nextId ≤ (exec rt now op env).2.nextId := by
  cases hreads : op.reads with
  | true => exact Nat.le_of_eq (congrArg Table.nextId (exec_of_reads hreads now env)).symm
  | false =>
      cases op with
      | create values =>
          have hskip : now.nextId ≤ (notCreated now env).nextId := by
            unfold notCreated
            split
            · exact Nat.le_succ _
            · exact Nat.le_refl _
          simp only [exec, create]
          split
          · split
            · split
              · exact hskip
              · exact Nat.le_succ _
            · exact Nat.le_refl _
          · exact hskip
      | update user values =>
          obtain hsame | ⟨name, password, role, -, -, -, hmodify⟩ := @exec_update rt now user values env
          · exact Nat.le_of_eq (congrArg Table.nextId hsame).symm
          · exact Nat.le_of_eq (congrArg Table.nextId hmodify).symm
      | destroy id =>
          obtain hsame | herase := @exec_destroy rt now id env
          · exact Nat.le_of_eq (congrArg Table.nextId hsame).symm
          · exact Nat.le_of_eq (congrArg Table.nextId herase).symm
      | _ => cases hreads

/-- A key is drawn once. -/
theorem Deleted.exec {id : Nat} (h : Deleted now id) (op : UserOp) (env : UserEnv) :
    Deleted (exec rt now op env).2 id := by
  refine ⟨Nat.lt_of_lt_of_le h.1 (nextId_le_exec now op env), fun row hrow hid => ?_⟩
  rcases mem_exec hrow with hold | ⟨values, -, hnew, -⟩ |
    ⟨user, values, name, password, role, -, -, -, row', hrow', -, rfl⟩
  · exact h.2 row hold hid
  · exact absurd h.1 (Nat.not_lt_of_le (Nat.le_of_eq (hnew.symm.trans hid)))
  · exact h.2 row' hrow' hid

theorem later_exec (tables : List UsersTable) (now : UsersTable) (op : UserOp) (env : UserEnv) :
    Later tables now (tables ++ [(exec rt now op env).2]) (exec rt now op env).2 :=
  ⟨List.subset_append_left _ _, nextId_le_exec now op env, fun _ h => h.exec op env⟩

theorem Held.mono {id : Nat} {prop : User → Prop} (h : Held tables id prop)
    (hsubset : tables ⊆ tables') : Held tables' id prop := by
  obtain ⟨table, htable, hrow⟩ := h
  exact ⟨table, hsubset htable, hrow⟩

theorem Saved.mono {id : Nat} {name role : String} (h : Saved tables id name role)
    (hsubset : tables ⊆ tables') : Saved tables' id name role :=
  ⟨h.1.mono hsubset, h.2.mono hsubset⟩

theorem Stored.mono {user : UserModel} (h : Stored tables now user)
    (hlater : Later tables now tables' now') : Stored tables' now' user := by
  obtain ⟨id, name, email, role, rfl, hemail, hsaved⟩ := h
  refine ⟨id, name, email, role, rfl, hemail.mono hlater.subset, ?_⟩
  exact hsaved.imp (hlater.deleted id) fun hsaved => hsaved.mono hlater.subset

theorem Known.mono {user : User} (h : Known tables now user) (hlater : Later tables now tables' now') :
    Known tables' now' user := by
  obtain ⟨hid, table, htable, hrow⟩ := h
  exact ⟨Nat.lt_of_lt_of_le hid hlater.nextId, table, hlater.subset htable, hrow⟩

theorem Executed.mono {op : UserOp} {answer : Except JsError (userSig.Answer op)}
    (h : Executed rt tables now op answer) (hlater : Later tables now tables' now') :
    Executed rt tables' now' op answer := by
  cases answer with
  | error err => cases op <;> trivial
  | ok value =>
      cases op with
      | findByPk param =>
          cases value with
          | none => trivial
          | some user => exact ⟨h.1, h.2.mono hlater⟩
      | findAll => exact fun user huser => (h user huser).mono hlater
      | update user values =>
          intro name role hname hrole
          exact (h name role hname hrole).imp (hlater.deleted user.id) fun hsaved =>
            hsaved.mono hlater.subset
      | _ => trivial

theorem known_of_mem (hnow : now ∈ tables) {user : User} (huser : user ∈ now.rows) :
    Known tables now user := ⟨now.fresh user huser, now, hnow, huser⟩

theorem mem_of_findByPk {param : JsValue} {user : User}
    (h : findByPk rt now param = some (some user)) : user ∈ now.rows := by
  unfold findByPk at h
  split at h
  · cases h
  · cases h
  · exact List.mem_of_find?_eq_some (Option.some.inj h)
  · obtain ⟨id, -, hfind⟩ := Option.map_eq_some_iff.mp h
    exact List.mem_of_find?_eq_some hfind
  · cases h

theorem written_string {τ : Type} {column : JsValue → Option τ} {loaded text : String}
    {new : Option τ} (h : written column loaded (.string text) = some new) :
    (new = none ∧ loaded = text) ∨ ∃ value, new = some value ∧ column (.string text) = some value := by
  unfold written at h
  split at h
  · obtain ⟨value, hvalue, rfl⟩ := Option.map_eq_some_iff.mp h
    exact .inr ⟨value, rfl, hvalue⟩
  · rename_i hsame
    cases h
    have heq : (text != loaded) = false := Bool.eq_false_iff.mpr hsame
    exact .inl ⟨rfl, (bne_eq_false_iff_eq.mp heq).symm⟩

/-- An update that succeeds has nothing to write, or has written it. -/
theorem update_ok {user : User} {values : UserValues} {env : UserEnv}
    (hok : (update rt now user values env).1 = .ok ()) :
    ∃ name password role, written rt.column user.name values.name = some name ∧
      written roleColumn user.role.label values.role = some role ∧
      ((name = none ∧ role = none) ∨ (update rt now user values env).2 =
        now.modify user.id (User.set name password role env.millis)
          (User.id_set name password role env.millis)) := by
  cases hname : written rt.column user.name values.name with
  | none =>
      rw [update_of_refused (.inl hname)] at hok
      cases hok
  | some name =>
  cases hpassword : written rt.column user.password values.password with
  | none =>
      rw [update_of_refused (.inr (.inl hpassword))] at hok
      cases hok
  | some password =>
  cases hrole : written roleColumn user.role.label values.role with
  | none =>
      rw [update_of_refused (.inr (.inr hrole))] at hok
      cases hok
  | some role =>
  refine ⟨name, password, role, rfl, rfl, ?_⟩
  rw [update_of_written hname hpassword hrole] at hok ⊢
  by_cases hnothing : name = none ∧ password = none ∧ role = none
  · exact .inl ⟨hnothing.1, hnothing.2.2⟩
  · rw [if_neg hnothing] at hok ⊢
    cases hraises : env.raises with
    | true =>
        rw [if_pos hraises] at hok
        cases hok
    | false => exact .inr rfl

/-- An update that succeeds stores what it is given, or finds what it is given in the row that was
loaded, or there is no row any more. -/
theorem saved_of_update {user : User} {values : UserValues} {env : UserEnv} {name role : String}
    (hok : (update rt now user values env).1 = .ok ()) (hknown : Known tables now user)
    (hname : values.name = .string name) (hrole : values.role = .string role) :
    Deleted (update rt now user values env).2 user.id ∨
      Saved (tables ++ [(update rt now user values env).2]) user.id name role := by
  obtain ⟨newName, newPassword, newRole, hnewName, hnewRole, hstored⟩ := update_ok hok
  rw [hname] at hnewName
  rw [hrole] at hnewRole
  have hloaded : ∀ prop : User → Prop, prop user →
      Held (tables ++ [(update rt now user values env).2]) user.id prop := by
    intro prop hprop
    obtain ⟨-, table, htable, hrow⟩ := hknown
    exact ⟨table, List.mem_append_left _ htable, user, hrow, rfl, hprop⟩
  by_cases hrow : ∃ row ∈ now.rows, row.id = user.id
  · right
    obtain ⟨row, hrow, hid⟩ := hrow
    have hwritten : ¬(newName = none ∧ newRole = none) → ∀ prop : User → Prop,
        prop (row.set newName newPassword newRole env.millis) →
          Held (tables ++ [(update rt now user values env).2]) user.id prop := by
      intro hsome prop hprop
      obtain hnone | hstored := hstored
      · exact absurd hnone hsome
      · rw [hstored]
        exact ⟨_, List.mem_append_right _ (List.mem_singleton_self _), _,
          Table.mem_modify.mpr (.inr ⟨row, hrow, hid, rfl⟩), hid, hprop⟩
    constructor
    · obtain ⟨-, hsame⟩ | ⟨value, rfl, hvalue⟩ := written_string hnewName
      · exact hloaded _ (.inl hsame)
      · exact hwritten nofun _ (.inr hvalue)
    · obtain ⟨-, hsame⟩ | ⟨value, rfl, hvalue⟩ := written_string hnewRole
      · exact hloaded _ hsame
      · exact hwritten nofun _ (JsValue.string.inj (roleColumn_eq_some hvalue)).symm
  · left
    -- a row that is not there is not deleted by the update, so it was gone before
    have hgone : Deleted now user.id := ⟨hknown.1, fun row hmem hid => hrow ⟨row, hmem, hid⟩⟩
    exact @Deleted.exec rt now user.id hgone (.update user values) env

/-! ### What has been executed -/

/-- What is updated has been loaded before. -/
theorem Issued.loaded {request : Request} {trace : List UserEvent} {user : User} {values : UserValues}
    (h : Issued rt request trace (.update user values)) :
    ∃ param, ⟨.findByPk param, .ok (some user)⟩ ∈ trace := by
  cases h with
  | read trace op hreads => cases hreads
  | _ => exact ⟨_, List.mem_cons_self⟩

/-- What is executed says what it should, where what the thread has received before does. -/
theorem executed_exec {request : Request} {trace : List UserEvent} {op : UserOp} (env : UserEnv)
    (hnow : now ∈ tables) (hissued : Issued rt request trace op)
    (htrace : ∀ event ∈ trace, Executed rt tables now event.1 event.2) :
    Executed rt (tables ++ [(exec rt now op env).2]) (exec rt now op env).2 op
      (exec rt now op env).1 := by
  have hlater := @later_exec rt tables now op env
  have hhonest := honest_exec rt now op env
  cases op with
  | findByPk param =>
      cases hanswer : (exec rt now (.findByPk param) env).1 with
      | error err => trivial
      | ok found =>
          cases found with
          | none => trivial
          | some user =>
              rw [hanswer] at hhonest
              refine ⟨hhonest, Known.mono (known_of_mem hnow ?_) hlater⟩
              simp only [exec] at hanswer
              split at hanswer
              · cases hanswer
              · cases hfind : findByPk rt now param with
                | none =>
                    rw [hfind] at hanswer
                    cases hanswer
                | some found =>
                    rw [hfind] at hanswer
                    cases hanswer
                    exact mem_of_findByPk hfind
  | findAll =>
      cases hanswer : (exec rt now .findAll env).1 with
      | error err => trivial
      | ok users =>
          intro user huser
          simp only [exec] at hanswer
          split at hanswer
          · cases hanswer
          · cases hanswer
            exact Known.mono (known_of_mem hnow huser) hlater
  | update user values =>
      cases hanswer : (exec rt now (.update user values) env).1 with
      | error err => trivial
      | ok _ =>
          intro name role hname hrole
          obtain ⟨param, hloaded⟩ := hissued.loaded
          exact saved_of_update hanswer (htrace _ hloaded).2 hname hrole
  | _ => trivial

/-! ### What a success says -/

/-- The users in the response to `getAll` are those that were found, and an update that is answered with
a success has been executed. -/
def Answered (request : Request) (trace : List UserEvent) (result : Except JsError Response) : Prop :=
  ∀ body, success? result = some body →
    (request.route = .getAll → ∃ users listed : List User, ⟨.findAll, .ok users⟩ ∈ trace ∧
      (∀ user ∈ listed, user ∈ users) ∧ body = ServiceResponse.success
        (.array (listed.map fun user => toUserDto user.instance))) ∧
    (request.route = .updateById → ∃ user,
      ⟨.findByPk (request.body.property "id"), .ok (some user)⟩ ∈ trace ∧
      ⟨.update user { name := request.body.property "name", role := request.body.property "role" },
        .ok ()⟩ ∈ trace)

theorem answered_error {request : Request} {trace : List UserEvent} (err : JsError) :
    Answered request trace (.error err) := nofun

theorem answered_refusal {request : Request} {trace : List UserEvent} {status : Nat} {body : JsValue}
    (h : 400 ≤ status) : Answered request trace (.ok ⟨status, body⟩) := by
  intro body' hbody
  obtain ⟨hstatus, -⟩ := Option.ite_none_right_eq_some.mp hbody
  exact absurd (Nat.lt_of_lt_of_le hstatus.2 (by decide)) (Nat.not_lt_of_le h)

/-- A route that the page does not read the answers of. -/
theorem answered_other {request : Request} (hgetAll : request.route ≠ .getAll)
    (hupdate : request.route ≠ .updateById) {trace : List UserEvent} (c : UserM Response) :
    Coroutine.Ends (Honest rt) (Answered request) trace c := by
  induction c generalizing trace with
  | done result => exact fun body _ => ⟨fun h => absurd h hgetAll, fun h => absurd h hupdate⟩
  | await op resume ih => exact fun answer _ => ih answer

theorem answered_getAll {request : Request} (hroute : request.route = .getAll) :
    Coroutine.Ends (Honest rt) (Answered request) [] getAll := by
  intro (answer : Except JsError (List User)) _
  cases answer with
  | error err => exact answered_error err
  | ok users =>
      intro body hbody
      cases hbody
      refine ⟨fun _ => ⟨users, users.mergeSort fun x y => x.id ≤ y.id, List.mem_singleton_self _, ?_,
        rfl⟩, fun h => ?_⟩
      · exact fun user huser => List.mem_mergeSort.mp huser
      · rw [hroute] at h
        cases h

theorem answered_updateById {request : Request} (hroute : request.route = .updateById) :
    Coroutine.Ends (Honest rt) (Answered request) [] (updateById request.body) := by
  unfold updateById
  obtain ⟨err, herr⟩ | hok := destructure_cases "id" request.body
  · rw [herr]
    exact answered_error err
  rw [hok]
  intro (answer : Except JsError (Option User)) _
  cases answer with
  | error err => exact answered_error err
  | ok found =>
  cases found with
  | none => exact answered_refusal (by decide)
  | some user =>
      intro (answer : Except JsError Unit) _
      cases answer with
      | error err => exact answered_refusal (by decide)
      | ok _ =>
          intro body _
          refine ⟨fun h => ?_, fun _ => ⟨user, List.mem_cons_self, ?_⟩⟩
          · rw [hroute] at h
            cases h
          · exact List.mem_cons_of_mem _ List.mem_cons_self

theorem answered_handler (request : Request) :
    Coroutine.Ends (Honest rt) (Answered request) [] ((service rt).handler request) := by
  show Coroutine.Ends _ _ _ (handler rt request)
  by_cases hgetAll : request.route = .getAll
  · unfold handler
    rw [hgetAll]
    cases request.token with
    | missing => exact answered_refusal (by decide)
    | invalid => exact answered_refusal (by decide)
    | verified claims =>
        show Coroutine.Ends _ _ _ (if _ then _ else _)
        split
        · exact answered_refusal (by decide)
        · exact answered_getAll hgetAll
  by_cases hupdate : request.route = .updateById
  · unfold handler
    rw [hupdate]
    cases request.token with
    | missing => exact answered_refusal (by decide)
    | invalid => exact answered_refusal (by decide)
    | verified claims =>
        show Coroutine.Ends _ _ _ (if _ then _ else _)
        split
        · exact answered_refusal (by decide)
        · exact answered_updateById hupdate
  exact answered_other hgetAll hupdate _

end Lemmas

/-! ### What stays true -/

/-- What the threads of the service have been told is so. -/
structure ServiceInv (tables : List UsersTable) (p : UserPool) : Prop where
  now : p.store ∈ tables
  issued : Service.Justified (Honest rt) (Issued rt) p
  answered : Service.Ended (Honest rt) Answered p
  executed : ∀ t ∈ p.threads, ∀ event ∈ t.trace, Executed rt tables p.store event.1 event.2

/-- The object has the fields of a user; its email comes from the tables, its key is in use or was. -/
def Formed (tables : List UsersTable) (user : UserModel) : Prop :=
  ∃ id name email role, user = ⟨.ofNat id, .string name, .string email, .string role⟩ ∧
    Held tables id (fun row => row.email = email)

/-- What the flight carries, and what it is for. -/
structure FlightInv (objects : List UserModel) (threads : List UserThread) (flight : Flight) :
    Prop where
  loading : flight.subscription = .getAllUsers → flight.request.route = .getAll
  saving : ∀ place, flight.subscription = .updateUserById place → flight.request.route = .updateById ∧
    ∃ user, objects[place]? = some user ∧ flight.request.body = user.toValue
  placed : ∀ index, flight.thread = some index →
    ∃ t, threads[index]? = some t ∧ t.request = flight.request

/-- The objects of the page, and those of them that are listed. While the dialog is open, its object is
not listed: a save that lists it closes the dialog. -/
structure PageInv (tables : List UsersTable) (s : UsersSystem) : Prop where
  formed : ∀ user ∈ s.page.objects, Formed tables user
  listed : ∀ place ∈ s.page.users, ∃ user, s.page.objects[place]? = some user ∧
    Stored tables s.service.store user
  edited : ∀ place ∈ s.page.edited, place < s.page.objects.length ∧ place ∉ s.page.users
  flights : ∀ flight ∈ s.flights, FlightInv s.page.objects s.service.threads flight

section Steps

variable {rt} {tables : List UsersTable}

theorem serviceInv_start (users : UsersTable) : ServiceInv rt [users] (Service.start users) where
  now := List.mem_singleton_self _
  issued := Service.justified_start _
  answered := Service.ended_start _
  executed _ ht := absurd ht List.not_mem_nil

theorem later_refl (now : UsersTable) (tables : List UsersTable) :
    Later tables now (tables ++ [now]) now :=
  ⟨List.subset_append_left _ _, Nat.le_refl _, fun _ h => h⟩

theorem later_step {p p' : UserPool} {move : UserMove}
    (hstep : (service rt).machine.step p move = some p') :
    Later tables p.store (tables ++ [p'.store]) p'.store := by
  cases move with
  | arrive request =>
      obtain ⟨-, rfl⟩ := (service rt).step_arrive hstep
      exact later_refl p.store tables
  | resume index env =>
      obtain ⟨t, op, resume, -, -, rfl⟩ := (service rt).step_resume hstep
      exact later_exec tables p.store op env

theorem serviceInv_step {p p' : UserPool} {move : UserMove} (h : ServiceInv rt tables p)
    (hstep : (service rt).machine.step p move = some p') :
    ServiceInv rt (tables ++ [p'.store]) p' where
  now := List.mem_append_right _ (List.mem_singleton_self _)
  issued := (service rt).justified_step (honest_exec rt) (issues_handler rt) p move p' h.issued hstep
  answered := (service rt).ended_step (honest_exec rt) answered_handler p move p' h.answered hstep
  executed := by
    have hmono := fun (event : UserEvent) (h : Executed rt tables p.store event.1 event.2) =>
      h.mono (later_step hstep)
    apply (service rt).events_step h.executed hmono _ hstep
    intro t ht op resume env hcode hstore
    rw [hstore]
    exact executed_exec env h.now (h.issued.issued_of_await ht hcode) (h.executed t ht)

/-- A step that leaves the service. -/
theorem ServiceInv.again {p : UserPool} (h : ServiceInv rt tables p) :
    ServiceInv rt (tables ++ [p.store]) p where
  now := List.mem_append_right _ (List.mem_singleton_self _)
  issued := h.issued
  answered := h.answered
  executed t ht event hevent := (h.executed t ht event hevent).mono (later_refl p.store tables)

/-- The service has gone on, and the page has not. -/
theorem PageInv.mono {s : UsersSystem} (h : PageInv tables s) {p : UserPool} {tables' : List UsersTable}
    (hlater : Later tables s.service.store tables' p.store)
    (hthreads : ∀ (index : Nat) t, s.service.threads[index]? = some t →
      ∃ t', p.threads[index]? = some t' ∧ t'.request = t.request) :
    PageInv tables' { s with service := p } where
  formed user huser := by
    obtain ⟨id, name, email, role, heq, hemail⟩ := h.formed user huser
    exact ⟨id, name, email, role, heq, hemail.mono hlater.subset⟩
  listed place hplace := by
    obtain ⟨user, huser, hstored⟩ := h.listed place hplace
    exact ⟨user, huser, hstored.mono hlater⟩
  edited := h.edited
  flights flight hflight := by
    obtain ⟨hloading, hsaving, hplaced⟩ := h.flights flight hflight
    refine ⟨hloading, hsaving, fun index hindex => ?_⟩
    obtain ⟨t, ht, hrequest⟩ := hplaced index hindex
    obtain ⟨t', ht', hsame⟩ := hthreads index t ht
    exact ⟨t', ht', hsame.trans hrequest⟩

/-! ### The steps of the page -/

variable {s : UsersSystem}

/-- The objects that were there stay as they are. -/
theorem FlightInv.objects {objects objects' : List UserModel} {threads : List UserThread}
    {flight : Flight} (h : FlightInv objects threads flight)
    (hobjects : ∀ (place : Nat) user, objects[place]? = some user → objects'[place]? = some user) :
    FlightInv objects' threads flight where
  loading := h.loading
  saving place hplace := by
    obtain ⟨hroute, user, huser, hbody⟩ := h.saving place hplace
    exact ⟨hroute, user, hobjects place user huser, hbody⟩
  placed := h.placed

theorem getElem?_append_of_some {τ : Type} {items new : List τ} {place : Nat} {item : τ}
    (h : items[place]? = some item) : (items ++ new)[place]? = some item :=
  (List.getElem?_append_left (List.getElem?_eq_some_iff.mp h).1).trans h

theorem pageInv_ngOnInit (s : UsersSystem) (token : Token) : PageInv tables
    { s with page := .new, flights := [⟨.getAllUsers, ⟨.getAll, token, .undefined⟩, none⟩] } where
  formed _ huser := absurd huser List.not_mem_nil
  listed _ hplace := absurd hplace List.not_mem_nil
  edited := nofun
  flights flight hflight := by
    rw [List.mem_singleton.mp hflight]
    exact ⟨fun _ => rfl, nofun, nofun⟩

theorem pageInv_editUser (h : PageInv tables s) {index : Nat} {page : AdminUsers}
    (hstep : s.page.editUser index = some page) : PageInv tables { s with page } := by
  obtain ⟨user, huser, rfl⟩ := Option.map_eq_some_iff.mp hstep
  obtain ⟨place, -, hobject⟩ := Option.bind_eq_some_iff.mp huser
  refine ⟨?_, ?_, ?_, fun flight hflight => ?_⟩
  · intro object hobject'
    obtain hold | hnew := List.mem_append.mp hobject'
    · exact h.formed object hold
    · rw [List.mem_singleton.mp hnew]
      exact h.formed user (List.mem_of_getElem? hobject)
  · intro listed hlisted
    obtain ⟨object, hobject, hstored⟩ := h.listed listed hlisted
    exact ⟨object, getElem?_append_of_some hobject, hstored⟩
  · rintro edited ⟨⟩
    refine ⟨?_, fun hlisted => ?_⟩
    · rw [List.length_append]
      exact Nat.lt_succ_self _
    · obtain ⟨object, hobject, -⟩ := h.listed _ hlisted
      exact absurd (List.getElem?_eq_some_iff.mp hobject).1 (Nat.lt_irrefl _)
  · exact (h.flights flight hflight).objects fun _ _ => getElem?_append_of_some

theorem pageInv_input (h : PageInv tables s) {change : UserModel → UserModel}
    (hchange : ∀ user, Formed tables user → Formed tables (change user))
    (hnot : ∀ flight ∈ s.flights, ∀ place ∈ s.page.edited,
      flight.subscription ≠ .updateUserById place) {page : AdminUsers}
    (hstep : s.page.input change = some page) : PageInv tables { s with page } := by
  obtain ⟨edited, hedited, rfl⟩ := Option.map_eq_some_iff.mp hstep
  have hother : ∀ (place : Nat) user, place ≠ edited → s.page.objects[place]? = some user →
      (s.page.objects.modify edited change)[place]? = some user := by
    intro place user hne huser
    rw [List.getElem?_modify, huser]
    exact congrArg some (if_neg (Ne.symm hne))
  refine ⟨?_, ?_, ?_, fun flight hflight => ?_⟩
  · intro user huser
    obtain ⟨place, hplace⟩ := List.getElem?_of_mem huser
    rw [List.getElem?_modify] at hplace
    obtain ⟨object, hobject, rfl⟩ := Option.map_eq_some_iff.mp hplace
    have hformed := h.formed object (List.mem_of_getElem? hobject)
    split
    · exact hchange object hformed
    · exact hformed
  · intro place hplace
    obtain ⟨user, huser, hstored⟩ := h.listed place hplace
    refine ⟨user, hother place user ?_ huser, hstored⟩
    rintro rfl
    exact (h.edited place hedited).2 hplace
  · intro place hplace
    obtain ⟨hlt, hnotListed⟩ := h.edited place hplace
    refine ⟨?_, hnotListed⟩
    rw [List.length_modify]
    exact hlt
  · obtain ⟨hloading, hsaving, hplaced⟩ := h.flights flight hflight
    refine ⟨hloading, fun place hplace => ?_, hplaced⟩
    obtain ⟨hroute, user, huser, hbody⟩ := hsaving place hplace
    refine ⟨hroute, user, hother place user ?_ huser, hbody⟩
    rintro rfl
    exact hnot flight hflight place hedited hplace

theorem pageInv_send (h : PageInv tables s) {subscription : Subscription} {request : Request}
    (hsent : FlightInv s.page.objects s.service.threads ⟨subscription, request, none⟩) :
    PageInv tables (s.send subscription request) where
  formed := h.formed
  listed := h.listed
  edited := h.edited
  flights flight hflight := by
    obtain hold | hnew := List.mem_append.mp hflight
    · exact h.flights flight hold
    · exact List.mem_singleton.mp hnew ▸ hsent

/-- The flights that are left are some of those that there were. -/
theorem pageInv_land (h : PageInv tables s) {page : AdminUsers} {index : Nat}
    (hformed : ∀ user ∈ page.objects, Formed tables user)
    (hobjects : ∀ (place : Nat) user, s.page.objects[place]? = some user →
      page.objects[place]? = some user)
    (hlisted : ∀ place ∈ page.users, ∃ user, page.objects[place]? = some user ∧
      Stored tables s.service.store user)
    (hedited : ∀ place ∈ page.edited, place < page.objects.length ∧ place ∉ page.users) :
    PageInv tables { s with page, flights := s.flights.eraseIdx index } where
  formed := hformed
  listed := hlisted
  edited := hedited
  flights flight hflight := (h.flights flight (List.mem_of_mem_eraseIdx hflight)).objects hobjects

theorem stored_of_known {now : UsersTable} {user : User} (h : Known tables now user) :
    Stored tables now (UserModel.ofValue (toUserDto user.instance)) := by
  obtain ⟨-, table, htable, hrow⟩ := h
  have hheld : ∀ prop : User → Prop, prop user → Held tables user.id prop :=
    fun prop hprop => ⟨table, htable, user, hrow, rfl, hprop⟩
  exact ⟨user.id, user.name, user.email, user.role.label, rfl, hheld _ rfl,
    .inr ⟨hheld _ (.inl rfl), hheld _ rfl⟩⟩

theorem Stored.formed {now : UsersTable} {user : UserModel} (h : Stored tables now user) :
    Formed tables user := by
  obtain ⟨id, name, email, role, heq, hemail, -⟩ := h
  exact ⟨id, name, email, role, heq, hemail⟩

/-- The users have come. -/
theorem pageInv_loaded (h : PageInv tables s) {items : List JsValue} (index : Nat)
    (hitems : ∀ item ∈ items, Stored tables s.service.store (UserModel.ofValue item)) :
    PageInv tables { s with
      page := s.page.next (ServiceResponse.success (.array items)) .getAllUsers
      flights := s.flights.eraseIdx index } := by
  apply pageInv_land h
  · intro user huser
    obtain hold | hnew := List.mem_append.mp huser
    · exact h.formed user hold
    · obtain ⟨item, hitem, rfl⟩ := List.mem_map.mp hnew
      exact (hitems item hitem).formed
  · exact fun _ _ => getElem?_append_of_some
  · intro place (hplace : place ∈ List.range' s.page.objects.length items.length)
    obtain ⟨i, hi, rfl⟩ := List.mem_range'.mp hplace
    refine ⟨UserModel.ofValue items[i], ?_, hitems _ (List.getElem_mem hi)⟩
    show (s.page.objects ++ items.map UserModel.ofValue)[s.page.objects.length + 1 * i]? = _
    rw [List.getElem?_append_right (by omega), Nat.one_mul, Nat.add_sub_cancel_left, List.getElem?_map,
      List.getElem?_eq_getElem hi]
    rfl
  · intro place hplace
    have hlt := (h.edited place hplace).1
    constructor
    · show place < (s.page.objects ++ items.map UserModel.ofValue).length
      rw [List.length_append]
      exact Nat.lt_of_lt_of_le hlt (Nat.le_add_right _ _)
    · intro hlisted
      obtain ⟨i, -, rfl⟩ := List.mem_range'.mp hlisted
      omega

/-- A save has succeeded. -/
theorem pageInv_saved (h : PageInv tables s) {updatedUser : Nat} {user : UserModel} (body : JsValue)
    (index : Nat) (huser : s.page.objects[updatedUser]? = some user)
    (hstored : Stored tables s.service.store user) :
    PageInv tables { s with
      page := s.page.next body (.updateUserById updatedUser)
      flights := s.flights.eraseIdx index } := by
  refine @pageInv_land tables s h (s.page.next body (.updateUserById updatedUser)) index h.formed
    (fun _ _ h => h) ?_ nofun
  · intro place hplace
    obtain ⟨old, hold, rfl⟩ := List.mem_map.mp hplace
    split
    · exact ⟨user, huser, hstored⟩
    · exact h.listed old hold

theorem pageInv_error (h : PageInv tables s) (subscription : Subscription) (index : Nat) :
    PageInv tables { s with
      page := s.page.error subscription
      flights := s.flights.eraseIdx index } := by
  cases subscription <;> exact pageInv_land h h.formed (fun _ _ h => h) h.listed h.edited

/-- The object of a save that was answered with a success has been stored. -/
theorem stored_of_saved (hservice : ServiceInv rt tables s.service) {user : UserModel}
    (hformed : Formed tables user) {t : UserThread} (ht : t ∈ s.service.threads)
    (hbody : t.request.body = user.toValue) {row : User}
    (hfound : ⟨.findByPk (t.request.body.property "id"), .ok (some row)⟩ ∈ t.trace)
    (hupdated : ⟨.update row ⟨t.request.body.property "name", .undefined,
      t.request.body.property "role"⟩, .ok ()⟩ ∈ t.trace) :
    Stored tables s.service.store user := by
  obtain ⟨id, name, email, role, rfl, hemail⟩ := hformed
  have hdenotes := (hservice.executed t ht _ hfound).1
  have hsaved := hservice.executed t ht _ hupdated
  rw [hbody] at hdenotes hsaved
  have hid : row.id = id := Rat.natCast_inj.mp hdenotes
  refine ⟨id, name, email, role, rfl, hemail, ?_⟩
  rw [← hid]
  exact hsaved name role rfl rfl

/-- The flight that a response ends has a request that the service has answered. -/
theorem respond_cases {index : Nat} {s' : UsersSystem} (hstep : s.respond index = some s') :
    ∃ flight thread t result, s.flights[index]? = some flight ∧ flight.thread = some thread ∧
      s.service.threads[thread]? = some t ∧ t.code = .done result ∧
      s' = s.land index flight (success? result) := by
  obtain ⟨flight, hflight, hrest⟩ := Option.bind_eq_some_iff.mp hstep
  obtain ⟨thread, hthread, hrest⟩ := Option.bind_eq_some_iff.mp hrest
  obtain ⟨t, ht, hrest⟩ := Option.bind_eq_some_iff.mp hrest
  split at hrest
  · rename_i result hcode
    cases hrest
    exact ⟨flight, thread, t, result, hflight, hthread, ht, hcode, rfl⟩
  · cases hrest

/-- What the service has answered with a success is as the page takes it. -/
theorem pageInv_next (hservice : ServiceInv rt tables s.service) (h : PageInv tables s)
    {flight : Flight} (hflight : FlightInv s.page.objects s.service.threads flight) {t : UserThread}
    (ht : t ∈ s.service.threads) (hrequest : t.request = flight.request)
    {result : Except JsError Response} (hcode : t.code = .done result) {body : JsValue}
    (hbody : success? result = some body) (index : Nat) :
    PageInv tables { s with
      page := s.page.next body flight.subscription
      flights := s.flights.eraseIdx index } := by
  have hanswered := hservice.answered t ht
  rw [hcode] at hanswered
  obtain ⟨hgetAll, hupdate⟩ := hanswered body hbody
  cases hsubscription : flight.subscription with
  | getAllUsers =>
      have hroute := hflight.loading hsubscription
      rw [← hrequest] at hroute
      obtain ⟨users, listed, hfound, hlisted, rfl⟩ := hgetAll hroute
      apply pageInv_loaded h
      intro item hitem
      obtain ⟨user, huser, rfl⟩ := List.mem_map.mp hitem
      exact stored_of_known (hservice.executed t ht _ hfound user (hlisted user huser))
  | updateUserById updatedUser =>
      obtain ⟨hroute, user, huser, hsent⟩ := hflight.saving updatedUser hsubscription
      rw [← hrequest] at hroute hsent
      obtain ⟨row, hfound, hupdated⟩ := hupdate hroute
      have hformed := h.formed user (List.mem_of_getElem? huser)
      exact pageInv_saved h body index huser
        (stored_of_saved hservice hformed ht hsent hfound hupdated)
  | passwordReset => exact pageInv_land h h.formed (fun _ _ h => h) h.listed h.edited

theorem pageInv_respond (hservice : ServiceInv rt tables s.service) (h : PageInv tables s)
    {index : Nat} {s' : UsersSystem} (hstep : s.respond index = some s') :
    s'.service = s.service ∧ PageInv tables s' := by
  obtain ⟨flight, thread, t, result, hflight, hthread, ht, hcode, rfl⟩ := respond_cases hstep
  refine ⟨rfl, ?_⟩
  have hinv := h.flights flight (List.mem_of_getElem? hflight)
  obtain ⟨t', ht', hrequest⟩ := hinv.placed thread hthread
  cases ht.symm.trans ht'
  cases hbody : success? result with
  | none => exact pageInv_error h flight.subscription index
  | some body => exact pageInv_next hservice h hinv (List.mem_of_getElem? ht) hrequest hcode hbody index

end Steps

/-! ### All runs -/

structure UsersInv (tables : List UsersTable) (s : UsersSystem) : Prop where
  told : ServiceInv rt tables s.service
  page : PageInv tables s

section Runs

variable {rt} {tables : List UsersTable} {s s' : UsersSystem}

theorem inv_start (users : UsersTable) : UsersInv rt [users] (UsersSystem.start users) where
  told := serviceInv_start users
  page := ⟨fun _ h => absurd h List.not_mem_nil, fun _ h => absurd h List.not_mem_nil, nofun,
    fun _ h => absurd h List.not_mem_nil⟩

theorem UsersInv.serviceStep (h : UsersInv rt tables s) {move : UserMove} {p : UserPool}
    (hstep : (service rt).machine.step s.service move = some p) :
    UsersInv rt (tables ++ [p.store]) { s with service := p } where
  told := serviceInv_step h.told hstep
  page := h.page.mono (later_step hstep) fun _ _ ht => by
    obtain ⟨t', ht', hrequest, -⟩ := (service rt).thread_step hstep ht
    exact ⟨t', ht', hrequest⟩

/-- A step of the page, judged by the tables it has started from. -/
theorem UsersInv.pageStep (h : UsersInv rt tables s) (hservice : s'.service = s.service)
    (hpage : PageInv tables s → PageInv tables s') : UsersInv rt (tables ++ [s'.service.store]) s' where
  told := by
    rw [hservice]
    exact h.told.again
  page := (hpage h.page).mono (later_refl _ _) fun _ t ht => ⟨t, ht, rfl⟩

theorem inv_deliver (h : UsersInv rt tables s) {index : Nat} (hstep : s.deliver rt index = some s') :
    UsersInv rt (tables ++ [s'.service.store]) s' := by
  obtain ⟨flight, hflight, hrest⟩ := Option.bind_eq_some_iff.mp hstep
  split at hrest
  · cases hrest
  · obtain ⟨p, hp, hrest⟩ := Option.bind_eq_some_iff.mp hrest
    cases hrest
    obtain ⟨hservice, hpage⟩ := h.serviceStep hp
    refine ⟨hservice, hpage.formed, hpage.listed, hpage.edited, fun other hother => ?_⟩
    obtain hold | rfl := List.mem_or_eq_of_mem_set hother
    · exact hpage.flights other hold
    · obtain ⟨hloading, hsaving, -⟩ := hpage.flights flight (List.mem_of_getElem? hflight)
      refine ⟨hloading, hsaving, ?_⟩
      rintro thread ⟨⟩
      obtain ⟨-, rfl⟩ := (service rt).step_arrive hp
      exact ⟨_, List.getElem?_concat_length, rfl⟩

theorem tablesOf_append (past : List (UsersSystem × UsersMove)) (s : UsersSystem) (move : UsersMove)
    (s' : UsersSystem) : tablesOf (past ++ [(s, move)]) s' = tablesOf past s ++ [s'.service.store] := by
  rw [tablesOf, List.map_append]
  rfl

theorem inv_step {past : List (UsersSystem × UsersMove)} {move : UsersMove}
    (h : UsersInv rt (tablesOf past s) s) (hnot : NotInputInFlight s move)
    (hstep : (UsersSystem.machine rt).step s move = some s') :
    UsersInv rt (tablesOf (past ++ [(s, move)]) s') s' := by
  rw [tablesOf_append]
  cases move with
  | service move =>
      obtain ⟨p, hp, rfl⟩ := Option.map_eq_some_iff.mp hstep
      exact h.serviceStep hp
  | ngOnInit token =>
      cases hstep
      exact h.pageStep rfl fun _ => pageInv_ngOnInit s token
  | editUser index =>
      obtain ⟨page, hpage, rfl⟩ := Option.map_eq_some_iff.mp hstep
      exact h.pageStep rfl fun h => pageInv_editUser h hpage
  | inputName text =>
      obtain ⟨page, hpage, rfl⟩ := Option.map_eq_some_iff.mp hstep
      refine h.pageStep rfl fun h => pageInv_input h ?_ hnot hpage
      rintro user ⟨id, name, email, role, rfl, hemail⟩
      exact ⟨id, text, email, role, rfl, hemail⟩
  | selectRole label =>
      obtain ⟨-, hstep⟩ := Option.ite_none_right_eq_some.mp hstep
      obtain ⟨page, hpage, rfl⟩ := Option.map_eq_some_iff.mp hstep
      refine h.pageStep rfl fun h => pageInv_input h ?_ hnot hpage
      rintro user ⟨id, name, email, role, rfl, hemail⟩
      exact ⟨id, name, email, label, rfl, hemail⟩
  | hide =>
      cases hstep
      exact h.pageStep rfl fun h => ⟨h.formed, h.listed, nofun, h.flights⟩
  | saveUser token =>
      obtain ⟨place, -, hrest⟩ := Option.bind_eq_some_iff.mp hstep
      obtain ⟨user, huser, rfl⟩ := Option.map_eq_some_iff.mp hrest
      refine h.pageStep rfl fun h => pageInv_send h ⟨nofun, ?_, nofun⟩
      rintro updatedUser ⟨⟩
      exact ⟨rfl, user, huser, rfl⟩
  | passwordReset index token =>
      obtain ⟨item, -, rfl⟩ := Option.map_eq_some_iff.mp hstep
      exact h.pageStep rfl fun h => pageInv_send h ⟨nofun, nofun, nofun⟩
  | deliver index => exact inv_deliver h hstep
  | respond index =>
      obtain ⟨hservice, -⟩ := pageInv_respond h.told h.page hstep
      exact h.pageStep hservice fun hpage => (pageInv_respond h.told hpage hstep).2
  | fail index =>
      obtain ⟨flight, -, rfl⟩ := Option.map_eq_some_iff.mp hstep
      exact h.pageStep rfl fun h => pageInv_error h flight.subscription index

theorem listsStored_step {past : List (UsersSystem × UsersMove)} {move : UsersMove}
    (h : UsersInv rt (tablesOf past s) s) (hnot : NotInputInFlight s move)
    (hstep : (UsersSystem.machine rt).step s move = some s') : ListsStored past s move s' := by
  intro user huser
  obtain ⟨place, hplace, huser⟩ := List.mem_filterMap.mp huser
  obtain ⟨user', huser', hstored⟩ := (inv_step h hnot hstep).page.listed place hplace
  cases huser.symm.trans huser'
  exact hstored

/-- In every run in which no object is changed while it is being saved, in any order with the requests
of others: after each step, what the page lists of a user is of one who has been deleted, or each field
of it has been in the table. -/
theorem users_listedAsStored (users : UsersTable) {moves : List UsersMove}
    (hnot : (UsersSystem.machine rt).Meets NotInputInFlight (.start users) moves) :
    (UsersSystem.machine rt).EachPast ListsStored [] (.start users) moves :=
  @Machine.eachPast_of_meets _ _ _ NotInputInFlight (fun past s => UsersInv rt (tablesOf past s) s) _
    (fun _ _ _ _ => inv_step) (fun _ _ _ _ => listsStored_step) [] (.start users) (inv_start users)
    moves hnot

end Runs

/-! ### A run of the page -/

instance (s : UsersSystem) : (move : UsersMove) → Decidable (NotInputInFlight s move)
  | .inputName _ => inferInstanceAs (Decidable (∀ flight ∈ _, ∀ place ∈ _, _))
  | .selectRole _ => inferInstanceAs (Decidable (∀ flight ∈ _, ∀ place ∈ _, _))
  | .service _ => .isTrue trivial
  | .ngOnInit _ => .isTrue trivial
  | .editUser _ => .isTrue trivial
  | .hide => .isTrue trivial
  | .saveUser _ => .isTrue trivial
  | .passwordReset _ _ => .isTrue trivial
  | .deliver _ => .isTrue trivial
  | .respond _ => .isTrue trivial
  | .fail _ => .isTrue trivial

/-- Ada's page is about to get these users. -/
def answeredUsers (users : List User) : UsersSystem :=
  let body := ServiceResponse.success (.array (users.map fun user => toUserDto user.instance))
  ⟨⟨adaAndEve, [⟨⟨.getAll, ada.token, .undefined⟩, [⟨.findAll, .ok [ada, eve]⟩],
    .done (.ok (.json body))⟩]⟩, .new, [⟨.getAllUsers, ⟨.getAll, ada.token, .undefined⟩, some 0⟩]⟩

def askForUsers : List UsersMove := [.ngOnInit ada.token, .deliver 0, .service (.resume 0 .calm)]

/-- Ada renames Eve. -/
def renameEveOnPage : List UsersMove :=
  [.respond 0, .editUser 1, .inputName "Eva", .saveUser ada.token, .deliver 0,
    .service (.resume 1 .calm), .service (.resume 1 .calm), .respond 0]

theorem mergeSort_adaAndEve : [ada, eve].mergeSort (fun x y => x.id ≤ y.id) = [ada, eve] :=
  List.mergeSort_of_pairwise (by decide)

theorem run_askForUsers : (UsersSystem.machine plain).run (.start adaAndEve) askForUsers =
    some (answeredUsers [ada, eve]) := by
  have hanswered : (UsersSystem.machine plain).run (.start adaAndEve) askForUsers =
      some (answeredUsers ([ada, eve].mergeSort fun x y => x.id ≤ y.id)) := rfl
  rwa [mergeSort_adaAndEve] at hanswered

/-- The page lists a user of this name, and the table has Eve under that name. -/
def UsersSystem.calls (s : UsersSystem) (shown stored : String) : Bool :=
  s.page.shown.any (fun user => decide (user.name = .string shown)) &&
    s.service.store.rows.any fun row => row.id == eve.id && row.name == stored

theorem run_of_answered {moves : List UsersMove} {shown stored : String}
    (h : ((UsersSystem.machine plain).run (answeredUsers [ada, eve]) moves).map
      (·.calls shown stored) = some true) :
    ∃ s, (UsersSystem.machine plain).run (.start adaAndEve) (askForUsers ++ moves) = some s ∧
      s.calls shown stored := by
  obtain ⟨s, hrun, hcalls⟩ := Option.map_eq_some_iff.mp h
  refine ⟨s, ?_, hcalls⟩
  rw [Machine.run_append, run_askForUsers]
  exact hrun

theorem meets_renameEveOnPage : (UsersSystem.machine plain).Meets NotInputInFlight (.start adaAndEve)
    (askForUsers ++ renameEveOnPage) := by
  have hrest : (UsersSystem.machine plain).Meets NotInputInFlight (answeredUsers [ada, eve])
      renameEveOnPage := by decide +kernel
  rw [← mergeSort_adaAndEve] at hrest
  refine (Machine.meets_cons_of_step _ rfl).mpr ⟨trivial, ?_⟩
  refine (Machine.meets_cons_of_step _ rfl).mpr ⟨trivial, ?_⟩
  exact (Machine.meets_cons_of_step _ rfl).mpr ⟨trivial, hrest⟩

theorem users_listedAsStored_renameEveOnPage :
    (∃ s, (UsersSystem.machine plain).run (.start adaAndEve) (askForUsers ++ renameEveOnPage) = some s ∧
      s.calls "Eva" "Eva") ∧
    (UsersSystem.machine plain).EachPast ListsStored [] (.start adaAndEve)
      (askForUsers ++ renameEveOnPage) :=
  ⟨run_of_answered (by decide +kernel), users_listedAsStored adaAndEve meets_renameEveOnPage⟩

/-- Ada goes on typing while the save is under way. -/
def typeInFlight : List UsersMove :=
  [.respond 0, .editUser 1, .inputName "Eva", .saveUser ada.token, .inputName "Evelyn", .deliver 0,
    .service (.resume 1 .calm), .service (.resume 1 .calm), .respond 0]

/-- What was typed meanwhile is listed, and was not saved. -/
theorem unsaved_listed : ∃ s,
    (UsersSystem.machine plain).run (.start adaAndEve) (askForUsers ++ typeInFlight) = some s ∧
      s.calls "Evelyn" "Eva" :=
  run_of_answered (by decide +kernel)

end BookHub.UserService
