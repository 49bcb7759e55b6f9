import BookHub.UserService.Issued

/-!
# The credentials of a row

The email of a row is given when the row is created, and its hash then and by the writes of a
password. What `POST /register` and `POST /user/passwordChange` have stored when they report a success
is read off the trace of the request: the hash that bcrypt made for it and the operation that wrote
it.
-/

namespace BookHub.UserService

variable {rt : Runtime}

/-! ### Emails -/

/-- The unique index on the emails. -/
def EmailsUnique (users : UsersTable) : Prop := (users.rows.map User.email).Nodup

/-- An insert leaves the rows, or appends a row with a new email and answers with it. -/
theorem create_cases (users : UsersTable) (values : NewUser) (env : UserEnv) :
    (∃ err, (create rt users values env).1 = .error err ∧
        (create rt users values env).2.rows = users.rows) ∨
      ∃ user, (create rt users values env).1 = .ok user ∧
        (create rt users values env).2.rows = users.rows ++ [user] ∧
        rt.column values.email = some user.email ∧ varchar values.password = some user.password ∧
        ∀ row ∈ users.rows, row.email ≠ user.email := by
  unfold create
  split
  · rename_i name email password role hname hemail hpassword hrole
    split
    · split
      · exact .inl ⟨_, rfl, rows_notCreated users env⟩
      · rename_i hfree
        refine .inr ⟨_, rfl, rfl, hemail, hpassword, fun row hrow heq => hfree ?_⟩
        rw [Bool.or_eq_true, List.any_eq_true]
        exact .inr ⟨row, hrow, beq_iff_eq.mpr heq⟩
    · exact .inl ⟨_, rfl, rfl⟩
  · exact .inl ⟨_, rfl, rows_notCreated users env⟩

theorem emailsUnique_exec {users : UsersTable} (h : EmailsUnique users) (op : UserOp) (env : UserEnv) :
    EmailsUnique (exec rt users op env).2 := by
  cases op with
  | findOneByEmail email => exact h
  | findByPk param => exact h
  | findAll => exact h
  | hash data =>
      rw [exec_of_reads rfl]
      exact h
  | create values =>
      show ((create rt users values env).2.rows.map User.email).Nodup
      obtain ⟨_, -, hsame⟩ | ⟨user, -, hrows, -, -, hfree⟩ := @create_cases rt users values env
      · rw [hsame]
        exact h
      · rw [hrows, List.map_append, List.nodup_append]
        refine ⟨h, List.nodup_singleton _, ?_⟩
        intro email hemail other hother
        obtain ⟨row, hrow, rfl⟩ := List.mem_map.mp hemail
        rw [List.mem_singleton.mp hother]
        exact hfree row hrow
  | update user values =>
      rcases @exec_update rt users user values env with
        hsame | ⟨name, password, role, -, -, -, hmodify⟩
      · rw [hsame]
        exact h
      · have hemail : User.email ∘ (fun row : User => if row.id = user.id then
            row.set name password role env.millis else row) = User.email := by
          funext row
          simp only [Function.comp_apply]
          split <;> rfl
        rw [hmodify, EmailsUnique, Table.modify, List.map_map, hemail]
        exact h
  | destroy id =>
      obtain hsame | herase := @exec_destroy rt users id env
      · rw [hsame]
        exact h
      · rw [herase]
        exact h.sublist (List.filter_sublist.map User.email)

theorem emailsUnique_step (p : UserPool) (move : UserMove) (p' : UserPool)
    (h : EmailsUnique p.store) (hstep : (service rt).machine.step p move = some p') :
    EmailsUnique p'.store := by
  cases move with
  | arrive request =>
      obtain ⟨-, rfl⟩ := (service rt).step_arrive hstep
      exact h
  | resume index env =>
      obtain ⟨t, op, resume, -, -, rfl⟩ := (service rt).step_resume hstep
      exact emailsUnique_exec h op env

theorem emailsUnique_run {p p' : UserPool} (h : EmailsUnique p.store) {moves : List UserMove}
    (hrun : (service rt).machine.run p moves = some p') : EmailsUnique p'.store := by
  apply @Machine.invariant _ _ (service rt).machine (fun p => EmailsUnique p.store) _ _ _ _ h hrun
  exact emailsUnique_step

/-! ### What a success reports -/

/-- A hash that bcrypt answers is one it has made of the data. -/
def HonestHash (rt : Runtime) : (op : UserOp) → Except JsError (userSig.Answer op) → Prop
  | .hash data, .ok hash => ∃ password salt, data = .string password ∧
      hash = rt.bcryptHash password salt
  | _, _ => True

theorem honestHash_exec (users : UsersTable) (op : UserOp) (env : UserEnv) :
    HonestHash rt op (exec rt users op env).1 := by
  cases op with
  | hash data =>
      cases data with
      | string password => exact ⟨password, env.salt, rfl, rfl⟩
      | _ => trivial
  | _ => trivial

/-- The trace of a registration that answers 201. -/
structure Registered (rt : Runtime) (request : Request) (trace : List UserEvent)
    (response : Response) (password : String) (salt : Nat) (user : User) : Prop where
  given : request.body.property "password" = .string password
  trace : trace = [⟨.hash (.string password), .ok (rt.bcryptHash password salt)⟩] ++
    [⟨.create ⟨request.body.property "name", request.body.property "email",
      rt.bcryptHash password salt, request.body.property "role"⟩, .ok user⟩]
  response : response.body = user.toJSON rt

/-- The trace of a password change that reports a success. -/
structure PasswordChanged (rt : Runtime) (request : Request) (trace : List UserEvent)
    (response : Response) (password : String) (salt : Nat) (user : User) : Prop where
  given : request.body.property "newPassword" = .string password
  trace : ∃ sub, trace = [⟨.findByPk sub, .ok (some user)⟩,
      ⟨.hash (.string password), .ok (rt.bcryptHash password salt)⟩] ++
    [⟨.update user { password := .string (rt.bcryptHash password salt) }, .ok ()⟩]
  response : response.body = ServiceResponse.success (.ofNat user.id) "Password changed successfully."

/-- What a registration, or a password change, has done when it reports a success. -/
def GivesCredentials (rt : Runtime) (request : Request) (trace : List UserEvent)
    (result : Except JsError Response) : Prop :=
  ∀ response, result = .ok response →
    (request.route = .registerUser → response.status = 201 →
      ∃ password salt user, Registered rt request trace response password salt user) ∧
    (request.route = .passwordChangeMine → response.status = 200 →
      ∃ password salt user, PasswordChanged rt request trace response password salt user)

section Ends

variable {request : Request} {trace : List UserEvent}

abbrev EndsWell (rt : Runtime) (request : Request) (trace : List UserEvent) (c : UserM Response) :
    Prop :=
  Coroutine.Ends (HonestHash rt) (GivesCredentials rt request) trace c

theorem endsWell_error (err : JsError) : EndsWell rt request trace (.done (.error err)) := by
  intro response hresponse
  cases hresponse

/-- A response that is no success. -/
theorem endsWell_refusal {status : Nat} {body : JsValue} (h : 400 ≤ status) :
    EndsWell rt request trace (.done (.ok ⟨status, body⟩)) := by
  intro response hresponse
  cases hresponse
  constructor
  · intro _ (hstatus : status = 201)
    omega
  · intro _ (hstatus : status = 200)
    omega

/-- A route that gives no credentials. -/
theorem endsWell_other (hregister : request.route ≠ .registerUser)
    (hchange : request.route ≠ .passwordChangeMine) (c : UserM Response) :
    EndsWell rt request trace c := by
  induction c generalizing trace with
  | done result => exact fun response _ => ⟨fun h => absurd h hregister, fun h => absurd h hchange⟩
  | await op resume ih => exact fun answer _ => ih answer

theorem endsWell_registerUser (hroute : request.route = .registerUser) :
    EndsWell rt request [] (registerUser rt request.body) := by
  unfold registerUser
  obtain ⟨err, herr⟩ | hok := destructure_cases "name" request.body
  · rw [herr]
    exact endsWell_refusal (by decide)
  rw [hok]
  intro (answer : Except JsError String) hhonest
  cases answer with
  | error err => exact endsWell_refusal (by decide)
  | ok hash =>
      obtain ⟨password, salt, hpassword, rfl⟩ := hhonest
      intro (answer : Except JsError User) _
      cases answer with
      | error err => exact endsWell_refusal (by decide)
      | ok user =>
          intro response hresponse
          cases hresponse
          refine ⟨fun _ _ => ⟨password, salt, user, hpassword, ?_, rfl⟩, fun h => ?_⟩
          · rw [hpassword]
            rfl
          · rw [hroute] at h
            cases h

theorem endsWell_passwordChangeMine (hroute : request.route = .passwordChangeMine)
    (claims : Claims) :
    EndsWell rt request [] (passwordChangeMine rt claims request.body) := by
  intro (answer : Except JsError (Option User)) _
  cases answer with
  | error err => exact endsWell_error err
  | ok found =>
  cases found with
  | none => exact endsWell_refusal (by decide)
  | some user =>
  show Coroutine.Ends _ _ _ (destructure "password" request.body >>= _)
  obtain ⟨err, herr⟩ | hok := destructure_cases "password" request.body
  · rw [herr]
    exact endsWell_error err
  rw [hok, Coroutine.ok_bind]
  rcases looseEq_cases rt (request.body.property "newPassword")
    (request.body.property "newPasswordRepeat") with ⟨err, herr⟩ | hfalse | ⟨-, htrue⟩
  · rw [herr]
    exact endsWell_error err
  · rw [hfalse]
    exact endsWell_refusal (by decide)
  rw [htrue, Coroutine.ok_bind]
  rcases compareSync_cases rt (request.body.property "password") user.password with
    ⟨err, herr⟩ | hfalse | ⟨current, -, -, htrue⟩
  · rw [herr]
    exact endsWell_refusal (by decide)
  · rw [hfalse]
    exact endsWell_refusal (by decide)
  rw [htrue]
  intro (answer : Except JsError String) hhonest
  cases answer with
  | error err => exact endsWell_refusal (by decide)
  | ok hash =>
      obtain ⟨password, salt, hpassword, rfl⟩ := hhonest
      intro (answer : Except JsError Unit) _
      cases answer with
      | error err => exact endsWell_refusal (by decide)
      | ok _ =>
          intro response hresponse
          cases hresponse
          refine ⟨fun h => ?_, fun _ _ => ⟨password, salt, user, hpassword,
            ⟨claims.subValue, ?_⟩, rfl⟩⟩
          · rw [hroute] at h
            cases h
          · rw [hpassword]
            rfl

theorem endsWell_handler (rt : Runtime) (request : Request) :
    EndsWell rt request [] ((service rt).handler request) := by
  show EndsWell rt request [] (handler rt request)
  by_cases hregister : request.route = .registerUser
  · unfold handler
    rw [hregister]
    exact endsWell_registerUser hregister
  by_cases hchange : request.route = .passwordChangeMine
  · unfold handler
    rw [hchange]
    cases request.token with
    | missing => exact endsWell_refusal (by decide)
    | invalid => exact endsWell_refusal (by decide)
    | verified claims =>
        show Coroutine.Ends _ _ _ (if _ then _ else _)
        split
        · exact endsWell_refusal (by decide)
        · exact endsWell_passwordChangeMine hchange claims
  · exact endsWell_other hregister hchange _

end Ends

/-- A response that is given in a step of a run. -/
theorem givesCredentials_of_step {users : UsersTable} {moves : List UserMove} {p p' : UserPool}
    (hrun : (service rt).machine.run (Service.start users) moves = some p) {move : UserMove}
    (hstep : (service rt).machine.step p move = some p') {t : UserThread} (ht : t ∈ p'.threads)
    {response : Response} (hcode : t.code = .done (.ok response)) :
    GivesCredentials rt t.request t.trace (.ok response) := by
  have hended : Service.Ended (HonestHash rt) (GivesCredentials rt) p :=
    Machine.invariant ((service rt).ended_step honestHash_exec (endsWell_handler rt))
      (Service.ended_start users) hrun
  have hends := (service rt).ended_step honestHash_exec (endsWell_handler rt) p move p' hended hstep
    t ht
  rw [hcode] at hends
  exact hends

/-! ### What is stored then -/

/-- The email and the hash of the row with this id. -/
def credentials (users : UsersTable) (id : Nat) : Option (String × String) :=
  (users.find? id).map fun row => (row.email, row.password)

/-- The step neither changes the email or the hash of the row nor deletes it. -/
def KeepsCredentials (id : Nat) (p : UserPool) (_ : UserMove) (p' : UserPool) : Prop :=
  credentials p'.store id = credentials p.store id

instance (id : Nat) (p : UserPool) (move : UserMove) (p' : UserPool) :
    Decidable (KeepsCredentials id p move p') :=
  inferInstanceAs (Decidable (_ = _))

section Stored

variable {p p' : UserPool} {index : Nat} {env : UserEnv} {t : UserThread} {response : Response}
  {password : String} {salt : Nat} {user : User}

theorem Registered.stored (h : Registered rt t.request t.trace response password salt user)
    (hstep : (service rt).machine.step p (.resume index env) = some p')
    (ht : p'.threads[index]? = some t) :
    rt.column (t.request.body.property "email") = some user.email ∧
      varchar (rt.bcryptHash password salt) = some user.password ∧
      credentials p'.store user.id = some (user.email, user.password) := by
  have hexec := ((service rt).exec_of_resume hstep ht h.trace).1
  have hanswer := congrArg Prod.fst hexec
  have hstore : (create rt p.store _ env).2 = p'.store := congrArg Prod.snd hexec
  rcases @create_cases rt p.store ⟨t.request.body.property "name", t.request.body.property "email",
      rt.bcryptHash password salt, t.request.body.property "role"⟩ env with
    ⟨err, herr, -⟩ | ⟨row, hrow, hrows, hemail, hpassword, -⟩
  · cases herr.symm.trans hanswer
  · cases hrow.symm.trans hanswer
    refine ⟨hemail, hpassword, ?_⟩
    have hmem : user ∈ p'.store.rows := by
      rw [← hstore, hrows]
      exact List.mem_append_right _ (List.mem_singleton_self user)
    rw [credentials, Table.find?_eq_some.mpr ⟨hmem, rfl⟩]
    rfl

/-- A hash that is the loaded one is not written again. -/
theorem PasswordChanged.stored (h : PasswordChanged rt t.request t.trace response password salt user)
    (hfits : varchar (rt.bcryptHash password salt) = some (rt.bcryptHash password salt))
    (hstep : (service rt).machine.step p (.resume index env) = some p')
    (ht : p'.threads[index]? = some t) :
    credentials p'.store user.id = (p.store.find? user.id).map fun row => (row.email,
      if rt.bcryptHash password salt = user.password then row.password
      else rt.bcryptHash password salt) := by
  obtain ⟨sub, htrace⟩ := h.trace
  have hexec : update rt p.store user { password := .string (rt.bcryptHash password salt) } env =
      (.ok (), p'.store) := ((service rt).exec_of_resume hstep ht htrace).1
  by_cases hsame : rt.bcryptHash password salt = user.password
  · have hwritten : written rt.column user.password (.string (rt.bcryptHash password salt)) =
        some none := by
      simp [written, differs, hsame]
    rw [update_of_written rfl hwritten rfl, if_pos ⟨rfl, rfl, rfl⟩] at hexec
    rw [← (Prod.mk.inj hexec).2]
    simp only [if_pos hsame]
    rfl
  · have hwritten : written rt.column user.password (.string (rt.bcryptHash password salt)) =
        some (some (rt.bcryptHash password salt)) := by
      have hcolumn : rt.column (.string (rt.bcryptHash password salt)) =
        some (rt.bcryptHash password salt) := hfits
      simp [written, differs, hsame, hcolumn]
    rw [update_of_written rfl hwritten rfl, if_neg (by simp)] at hexec
    split at hexec
    · cases (Prod.mk.inj hexec).1
    · rw [← (Prod.mk.inj hexec).2]
      simp only [if_neg hsame]
      rw [credentials, Table.find?_modify, Option.map_map]
      rfl

end Stored

end BookHub.UserService
