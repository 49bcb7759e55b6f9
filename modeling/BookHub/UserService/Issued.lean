import BookHub.UserService.Handlers

/-!
# What the user service issues

Every operation that a handler issues, with the answers received before it and what the middleware
and the handler have checked by then. `Issued` is the one place where the handlers are run
symbolically: what the service guarantees about roles, rows and passwords is read off it.
-/

namespace BookHub.UserService

variable (rt : Runtime)

/-- The value, as a key, names this row. -/
def Denotes (param : JsValue) (id : Nat) : Prop :=
  match param with
  | .number (.finite value) => (id : Rat) = value
  | .string value => rt.int4In value = some (id : Int)
  | _ => False

/-- What is found by a key is what the key names. -/
def Honest : (op : UserOp) → Except JsError (userSig.Answer op) → Prop
  | .findByPk param, .ok (some user) => Denotes rt param user.id
  | _, _ => True

theorem findByPk_denotes {users : UsersTable} {param : JsValue} {user : User}
    (h : findByPk rt users param = some (some user)) : Denotes rt param user.id := by
  unfold findByPk at h
  split at h
  · cases h
  · cases h
  · have hfind := List.find?_some (Option.some.inj h)
    exact beq_iff_eq.mp hfind
  · obtain ⟨id, hid, hfind⟩ := Option.map_eq_some_iff.mp h
    have heq := List.find?_some hfind
    show rt.int4In _ = some (user.id : Int)
    rw [hid, beq_iff_eq.mp heq]
  · cases h

theorem honest_exec (users : UsersTable) (op : UserOp) (env : UserEnv) :
    Honest rt op (exec rt users op env).1 := by
  cases op with
  | findByPk param =>
      simp only [exec]
      split
      · trivial
      · cases hfind : findByPk rt users param with
        | none => trivial
        | some found =>
            cases found with
            | none => trivial
            | some user => exact findByPk_denotes rt hfind
  | _ => trivial

/-! ### The operations of a request -/

/-- The token of the request carries the claims, and one of the roles. -/
structure Authorized (request : Request) (claims : Claims) (roles : List Role) : Prop where
  token : request.token = .verified claims
  role : ∃ r ∈ roles, claims.role = some r.label

/-- The operations of a request, each with the answers received before. -/
inductive Issued : Request → List UserEvent → UserOp → Prop where
  | read (request : Request) (trace : List UserEvent) (op : UserOp) (hreads : op.reads = true) :
      Issued request trace op
  | create (request : Request) (hash : String) (hroute : request.route = .registerUser) :
      Issued request [⟨.hash (request.body.property "password"), .ok hash⟩]
        (.create ⟨request.body.property "name", request.body.property "email", hash,
          request.body.property "role"⟩)
  | updateMine (request : Request) (claims : Claims) (user : User)
      (hroute : request.route = .updateMine) (hauth : Authorized request claims [.admin, .user])
      (hfound : Denotes rt claims.subValue user.id) :
      Issued request [⟨.findByPk claims.subValue, .ok (some user)⟩]
        (.update user
          { name := request.body.property "name", role := request.body.property "role" })
  | updateById (request : Request) (claims : Claims) (user : User)
      (hroute : request.route = .updateById) (hauth : Authorized request claims [.admin])
      (hfound : Denotes rt (request.body.property "id") user.id) :
      Issued request [⟨.findByPk (request.body.property "id"), .ok (some user)⟩]
        (.update user
          { name := request.body.property "name", role := request.body.property "role" })
  | passwordChangeMine (request : Request) (claims : Claims) (user : User) (password hash : String)
      (hroute : request.route = .passwordChangeMine)
      (hauth : Authorized request claims [.admin, .moderator, .user])
      (hfound : Denotes rt claims.subValue user.id)
      (hrepeated : rt.looseEq? (request.body.property "newPassword")
        (request.body.property "newPasswordRepeat") = some true)
      (hpassword : request.body.property "password" = .string password)
      (hverified : rt.compareSync password user.password = true) :
      Issued request [⟨.findByPk claims.subValue, .ok (some user)⟩,
          ⟨.hash (request.body.property "newPassword"), .ok hash⟩]
        (.update user { password := .string hash })
  | passwordReset (request : Request) (claims : Claims) (user : User) (hash : String)
      (hroute : request.route = .passwordReset) (hauth : Authorized request claims [.admin])
      (hfound : Denotes rt (request.body.property "id") user.id) :
      Issued request [⟨.findByPk (request.body.property "id"), .ok (some user)⟩,
          ⟨.hash (.string "1234"), .ok hash⟩]
        (.update user { password := .string hash })
  | destroy (request : Request) (claims : Claims) (id : PathId) (user : User)
      (hroute : request.route = .deleteUser id)
      (hauth : Authorized request claims [.admin, .user])
      (hown : claims.role = some Role.user.label → claims.sub = some id.value)
      (hfound : Denotes rt (.string id.value) user.id) :
      Issued request [⟨.findByPk (.string id.value), .ok (some user)⟩] (.destroy user.id)

/-! ### The synchronous steps of a handler -/

theorem destructure_cases (first : String) (body : JsValue) :
    (∃ err, destructure first body = .done (.error err)) ∨
      destructure first body = .done (.ok body.property) := by
  cases body with
  | undefined => exact .inl ⟨_, rfl⟩
  | null => exact .inl ⟨_, rfl⟩
  | _ => exact .inr rfl

theorem compareSync_cases (data : JsValue) (hash : String) :
    (∃ err, compareSync rt data hash = .done (.error err)) ∨
      compareSync rt data hash = .done (.ok false) ∨
      ∃ password, data = .string password ∧ rt.compareSync password hash = true ∧
        compareSync rt data hash = .done (.ok true) := by
  cases data with
  | string password =>
      right
      cases hcompare : rt.compareSync password hash with
      | false => exact .inl (congrArg (fun b => Coroutine.done (Except.ok b)) hcompare)
      | true => exact .inr ⟨password, rfl, hcompare,
          congrArg (fun b => Coroutine.done (Except.ok b)) hcompare⟩
  | _ => exact .inl ⟨_, rfl⟩

theorem looseEq_cases (x y : JsValue) :
    (∃ err, looseEq rt x y = .done (.error err)) ∨ looseEq rt x y = .done (.ok false) ∨
      (rt.looseEq? x y = some true ∧ looseEq rt x y = .done (.ok true)) := by
  unfold looseEq
  cases hresult : rt.looseEq? x y with
  | none => exact .inl ⟨_, rfl⟩
  | some result =>
      right
      cases result with
      | false => exact .inl rfl
      | true => exact .inr ⟨rfl, rfl⟩

/-! ### The handlers -/

section Handlers

variable {rt} {request : Request} {claims : Claims}

theorem issues_updateAndAnswer {trace : List UserEvent} {user : User} {values : UserValues}
    (h : Issued rt request trace (.update user values)) (response : JsValue) :
    Coroutine.Issues (Honest rt) (Issued rt request) trace
      (updateAndAnswer user values response) := by
  refine ⟨h, fun answer _ => ?_⟩
  cases answer <;> trivial

theorem issues_withUser {param : JsValue} {next : User → UserM Response}
    (hnext : ∀ user, Denotes rt param user.id →
      Coroutine.Issues (Honest rt) (Issued rt request) [⟨.findByPk param, .ok (some user)⟩]
        (next user)) :
    Coroutine.Issues (Honest rt) (Issued rt request) [] (withUser param next) := by
  refine ⟨.read request [] _ rfl, fun (answer : Except JsError (Option User)) hhonest => ?_⟩
  cases answer with
  | error err => trivial
  | ok found =>
      cases found with
      | none => trivial
      | some user => exact hnext user hhonest

theorem issues_verifyCredentials (body : JsValue) :
    Coroutine.Issues (Honest rt) (Issued rt request) [] (verifyCredentials rt body) := by
  unfold verifyCredentials
  obtain ⟨err, herr⟩ | hok := destructure_cases "email" body
  · rw [herr]
    trivial
  · rw [hok]
    refine ⟨.read request [] _ rfl, fun (answer : Except JsError (Option User)) _ => ?_⟩
    cases answer with
    | error err => trivial
    | ok found =>
        cases found with
        | none => trivial
        | some user =>
            show Coroutine.Issues _ _ _ (compareSync rt _ user.password >>= _)
            rcases compareSync_cases rt (body.property "password") user.password with
              ⟨err, herr⟩ | hfalse | ⟨password, -, -, htrue⟩
            · rw [herr]
              trivial
            · rw [hfalse]
              trivial
            · rw [htrue]
              trivial

theorem issues_registerUser (hroute : request.route = .registerUser) :
    Coroutine.Issues (Honest rt) (Issued rt request) [] (registerUser rt request.body) := by
  unfold registerUser
  obtain ⟨err, herr⟩ | hok := destructure_cases "name" request.body
  · rw [herr]
    trivial
  · rw [hok]
    refine ⟨.read request [] _ rfl, fun (answer : Except JsError String) _ => ?_⟩
    cases answer with
    | error err => trivial
    | ok hash =>
        refine ⟨.create request hash hroute, fun answer _ => ?_⟩
        cases answer <;> trivial

theorem issues_getAll : Coroutine.Issues (Honest rt) (Issued rt request) [] getAll := by
  refine ⟨.read request [] _ rfl, fun answer _ => ?_⟩
  cases answer <;> trivial

theorem issues_getMine : Coroutine.Issues (Honest rt) (Issued rt request) [] (getMine claims) := by
  apply issues_withUser
  intro user _
  trivial

theorem issues_updateMine (hroute : request.route = .updateMine)
    (hauth : Authorized request claims [.admin, .user]) :
    Coroutine.Issues (Honest rt) (Issued rt request) [] (updateMine claims request.body) := by
  apply issues_withUser
  intro user hfound
  obtain ⟨err, herr⟩ | hok := destructure_cases "name" request.body
  · rw [herr]
    trivial
  · rw [hok]
    apply issues_updateAndAnswer
    exact .updateMine request claims user hroute hauth hfound

theorem issues_updateById (hroute : request.route = .updateById)
    (hauth : Authorized request claims [.admin]) :
    Coroutine.Issues (Honest rt) (Issued rt request) [] (updateById request.body) := by
  unfold updateById
  obtain ⟨err, herr⟩ | hok := destructure_cases "id" request.body
  · rw [herr]
    trivial
  · rw [hok]
    apply issues_withUser
    intro user hfound
    apply issues_updateAndAnswer
    exact .updateById request claims user hroute hauth hfound

theorem issues_passwordChangeMine (hroute : request.route = .passwordChangeMine)
    (hauth : Authorized request claims [.admin, .moderator, .user]) :
    Coroutine.Issues (Honest rt) (Issued rt request) []
      (passwordChangeMine rt claims request.body) := by
  apply issues_withUser
  intro user hfound
  obtain ⟨err, herr⟩ | hok := destructure_cases "password" request.body
  · rw [herr]
    trivial
  rw [hok, Coroutine.ok_bind]
  rcases looseEq_cases rt (request.body.property "newPassword")
    (request.body.property "newPasswordRepeat") with ⟨err, herr⟩ | hfalse | ⟨hrepeated, htrue⟩
  · rw [herr]
    trivial
  · rw [hfalse]
    trivial
  rw [htrue, Coroutine.ok_bind]
  rcases compareSync_cases rt (request.body.property "password") user.password with
    ⟨err, herr⟩ | hfalse | ⟨password, hpassword, hverified, htrue⟩
  · rw [herr]
    trivial
  · rw [hfalse]
    trivial
  rw [htrue]
  refine ⟨.read request _ _ rfl, fun (answer : Except JsError String) _ => ?_⟩
  cases answer with
  | error err => trivial
  | ok hash =>
      refine ⟨.passwordChangeMine request claims user password hash hroute hauth hfound hrepeated
        hpassword hverified, fun answer _ => ?_⟩
      cases answer <;> trivial

theorem issues_passwordReset (hroute : request.route = .passwordReset)
    (hauth : Authorized request claims [.admin]) :
    Coroutine.Issues (Honest rt) (Issued rt request) [] (passwordReset request.body) := by
  unfold passwordReset
  obtain ⟨err, herr⟩ | hok := destructure_cases "id" request.body
  · rw [herr]
    trivial
  rw [hok]
  apply issues_withUser
  intro user hfound
  refine ⟨.read request _ _ rfl, fun (answer : Except JsError String) _ => ?_⟩
  cases answer with
  | error err => trivial
  | ok hash =>
      apply issues_updateAndAnswer
      exact .passwordReset request claims user hash hroute hauth hfound

theorem issues_deleteUser {id : PathId} (hroute : request.route = .deleteUser id)
    (hauth : Authorized request claims [.admin, .user])
    (hown : claims.role = some Role.user.label → claims.sub = some id.value) :
    Coroutine.Issues (Honest rt) (Issued rt request) [] (deleteUser id) := by
  apply issues_withUser
  intro user hfound
  refine ⟨.destroy request claims id user hroute hauth hown hfound, fun answer _ => ?_⟩
  cases answer <;> trivial

end Handlers

/-! ### The routes -/

section Routes

variable {rt} {request : Request}

theorem authorized_of_admitted {claims : Claims} {roles : List Role} {pathId : Option PathId}
    (htoken : request.token = .verified claims) (h : claims.admitted roles pathId = true) :
    Authorized request claims roles ∧
      ∀ id ∈ pathId, claims.role = some Role.user.label → claims.sub = some id.value := by
  rw [Claims.admitted, Bool.and_eq_true, List.any_eq_true] at h
  obtain ⟨⟨r, hr, hrole⟩, hown⟩ := h
  refine ⟨⟨htoken, r, hr, beq_iff_eq.mp hrole⟩, fun id hid huser => ?_⟩
  rw [Option.mem_def.mp hid, huser] at hown
  have hsame : (some id.value != claims.sub) = false := by
    simpa only [Option.any_some, beq_self_eq_true, Bool.true_and, Bool.not_eq_true'] using hown
  exact (bne_eq_false_iff_eq.mp hsame).symm

/-- A route with a list of roles reaches its handler with an authorized token. -/
theorem issues_protected {roles : List Role} (hroles : request.route.roles = some roles)
    (h : ∀ claims, Authorized request claims roles →
      (∀ id ∈ request.route.pathId, claims.role = some Role.user.label → claims.sub = some id.value) →
      Coroutine.Issues (Honest rt) (Issued rt request) []
        (routeHandler rt claims request.body request.route)) :
    Coroutine.Issues (Honest rt) (Issued rt request) [] (handler rt request) := by
  unfold handler
  rw [hroles]
  cases htoken : request.token with
  | missing => trivial
  | invalid => trivial
  | verified claims =>
      show Coroutine.Issues _ _ _ (if (!claims.admitted roles request.route.pathId) = true
        then _ else _)
      split
      · trivial
      · rename_i hadmitted
        rw [Bool.not_eq_true, Bool.not_eq_false'] at hadmitted
        obtain ⟨hauth, hown⟩ := authorized_of_admitted htoken hadmitted
        exact h claims hauth hown

theorem issues_handler (rt : Runtime) (request : Request) :
    Coroutine.Issues (Honest rt) (Issued rt request) [] ((service rt).handler request) := by
  show Coroutine.Issues _ _ _ (handler rt request)
  cases hroute : request.route with
  | verifyCredentials =>
      unfold handler
      rw [hroute]
      exact issues_verifyCredentials request.body
  | registerUser =>
      unfold handler
      rw [hroute]
      exact issues_registerUser hroute
  | getAll =>
      apply issues_protected (congrArg Route.roles hroute)
      intro claims _ _
      rw [hroute]
      exact issues_getAll
  | updateById =>
      apply issues_protected (congrArg Route.roles hroute)
      intro claims hauth _
      rw [hroute]
      exact issues_updateById hroute hauth
  | passwordReset =>
      apply issues_protected (congrArg Route.roles hroute)
      intro claims hauth _
      rw [hroute]
      exact issues_passwordReset hroute hauth
  | getMine =>
      apply issues_protected (congrArg Route.roles hroute)
      intro claims _ _
      rw [hroute]
      exact issues_getMine
  | updateMine =>
      apply issues_protected (congrArg Route.roles hroute)
      intro claims hauth _
      rw [hroute]
      exact issues_updateMine hroute hauth
  | passwordChangeMine =>
      apply issues_protected (congrArg Route.roles hroute)
      intro claims hauth _
      rw [hroute]
      exact issues_passwordChangeMine hroute hauth
  | deleteUser id =>
      apply issues_protected (congrArg Route.roles hroute)
      intro claims hauth hown
      rw [hroute] at hown ⊢
      exact issues_deleteUser hroute hauth (hown id rfl)

end Routes

end BookHub.UserService
