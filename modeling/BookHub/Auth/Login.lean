import BookHub.Auth.Tokens
import BookHub.Base.DotNet
import BookHub.UserService.Credentials

/-!
# Logging in

`POST /login` of the auth service. It refuses blank credentials by itself; all others it posts to
`/internal/verify` of the user service, which finds the row by the email and compares the hash, and
the token is made of the row it answers with.
-/

namespace BookHub.Auth

open UserService (Response)

/-! ### The login -/

structure LoginRequest where
  email : String
  password : String

/-- `[FromBody] LoginRequest`: the two fields of the body; both are required, and are strings. -/
def LoginRequest.bind : JsValue → JsValue → Option LoginRequest
  | .string email, .string password => some ⟨email, password⟩
  | _, _ => none

/-- A `User` as it is read from JSON: what is left out is null, and the id is 0. -/
structure ReadUser where
  id : Int
  name : Option String
  email : Option String
  role : Option String

def readString : JsValue → Option (Option String)
  | .undefined => some none
  | .null => some none
  | .string value => some (some value)
  | _ => none

def readInt : JsValue → Option Int
  | .undefined => some 0
  | .number (.finite value) =>
      if value.den = 1 ∧ -2 ^ 31 ≤ value.num ∧ value.num < 2 ^ 31 then some value.num else none
  | _ => none

/-- `JsonSerializer.Deserialize<User>`; `some none` is null. -/
def deserializeUser : JsValue → Option (Option ReadUser)
  | .null => some none
  | .object fields => do
      let id ← readInt (JsValue.property (.object fields) "id")
      let name ← readString (JsValue.property (.object fields) "name")
      let email ← readString (JsValue.property (.object fields) "email")
      let role ← readString (JsValue.property (.object fields) "role")
      return some ⟨id, name, email, role⟩
  | _ => none

/-- `(success, message, user)` -/
structure Verification where
  success : Bool
  message : Option String
  user : Option ReadUser

/-- `UserService.Verify`. A post that does not come through, and a status that is no success, are
`HttpRequestException`s. -/
def verify (statusText : Nat → String) (postAsync : JsValue → Except String Response)
    (request : LoginRequest) : Except CsException Verification :=
  match postAsync (.object [("email", .string request.email), ("password", .string request.password)])
    with
  | .error message => .ok ⟨false, some ("Request error: " ++ message), none⟩
  | .ok response =>
      if response.status = 401 then .ok ⟨false, some "Invalid credentials", none⟩
      else if response.status < 200 ∨ 299 < response.status then
        .ok ⟨false, some ("Request error: " ++ statusText response.status), none⟩
      else
        match deserializeUser response.body with
        | none => .error .jsonException
        | some user => .ok ⟨true, none, user⟩

/-- `GenerateUserToken`; a claim has no null value. -/
def generateUserToken (service : TokenService) (now : Int) : Option ReadUser → Except CsException Jwt
  | none => .error .nullReferenceException
  | some ⟨id, some name, some email, some role⟩ =>
      .ok (service.generateUserToken now ⟨id, name, email, role⟩)
  | some _ => .error .argumentNullException

inductive LoginAnswer where
  | badRequest
  | unauthorized (message : Option String)
  | accessToken (token : Jwt)

/-- `AuthController.Login`, with the email and the password of the body. -/
def login (service : TokenService) (now : Int) (statusText : Nat → String)
    (postAsync : JsValue → Except String Response) (email password : JsValue) :
    Except CsException LoginAnswer :=
  match LoginRequest.bind email password with
  | none => .ok .badRequest
  | some request =>
      if isNullOrWhiteSpace request.email.toList || isNullOrWhiteSpace request.password.toList then
        .ok (.unauthorized (some "no data"))
      else do
        let verification ← verify statusText postAsync request
        if verification.success then
          return .accessToken (← generateUserToken service now verification.user)
        else return .unauthorized verification.message

structure ServiceTokenRequest where
  serviceName : String
  targetServiceName : String
  sharedSecret : String

/-- `[FromBody] ServiceTokenRequest`. -/
def ServiceTokenRequest.bind : JsValue → JsValue → JsValue → Option ServiceTokenRequest
  | .string serviceName, .string targetServiceName, .string sharedSecret =>
      some ⟨serviceName, targetServiceName, sharedSecret⟩
  | _, _, _ => none

/-- `AuthController.ServiceToken`, with the three fields of the body; the secret of the service is
`SHARED_SECRET`. -/
def serviceToken (service : TokenService) (now : Int) (secret : Option String)
    (serviceName targetServiceName sharedSecret : JsValue) : LoginAnswer :=
  match ServiceTokenRequest.bind serviceName targetServiceName sharedSecret with
  | none => .badRequest
  | some request =>
      if isNullOrWhiteSpace request.serviceName.toList ||
          isNullOrWhiteSpace request.targetServiceName.toList ||
          isNullOrWhiteSpace request.sharedSecret.toList then
        .unauthorized (some "no data")
      else if some request.sharedSecret ≠ secret then .unauthorized (some "invalid credentials")
      else .accessToken (service.generateServiceToken now request.serviceName request.targetServiceName)

/-- A service gets a token if it knows the secret. -/
theorem serviceToken_accessToken {service : TokenService} {now : Int} {secret : Option String}
    {serviceName targetServiceName sharedSecret : JsValue} {token : Jwt}
    (h : serviceToken service now secret serviceName targetServiceName sharedSecret = .accessToken token) :
    ∃ name target given, serviceName = .string name ∧ targetServiceName = .string target ∧
      sharedSecret = .string given ∧ secret = some given ∧
      token = service.generateServiceToken now name target := by
  unfold serviceToken at h
  split at h
  · cases h
  · rename_i request hbind
    unfold ServiceTokenRequest.bind at hbind
    split at hbind
    · rename_i name target given
      cases hbind
      split at h
      · cases h
      · split at h
        · cases h
        · rename_i hsecret
          cases h
          exact ⟨name, target, given, rfl, rfl, rfl, (Decidable.not_not.mp hsecret).symm, rfl⟩
    · cases hbind

/-! ### The user service behind it -/

/-- The user service answers a post to `/internal/verify`. Its handler waits once, for the database,
so it is run at one instant; what it throws is answered with 500. -/
def postVerify (rt : UserService.Runtime) (users : UserService.UsersTable) (env : UserService.UserEnv)
    (body : JsValue) : Except String Response :=
  match ((UserService.handler rt ⟨.verifyCredentials, .missing, body⟩).eval (UserService.exec rt)
    (fun _ => env) users).1 with
  | .ok response => .ok response
  | .error err => .ok ⟨500, .string err.message⟩

/-- The login with these credentials gets a token of the row with this id, as the row is now. -/
def LogsIn (rt : UserService.Runtime) (service : TokenService) (now : Int) (statusText : Nat → String)
    (users : UserService.UsersTable) (env : UserService.UserEnv) (id : Nat)
    (email password : JsValue) : Prop :=
  ∃ token row, login service now statusText (postVerify rt users env) email password =
      .ok (.accessToken token) ∧ users.find? id = some row ∧
    token.payload.lookup "sub" = some (.str (toString id)) ∧
    token.payload.lookup "role" = some (.str row.role.label)

/-! ### What a login comes to -/

section Login

variable {rt : UserService.Runtime} {users : UserService.UsersTable} {env : UserService.UserEnv}

theorem postVerify_credentials (hraises : env.raises = false) (email password : String) :
    postVerify rt users env (.object [("email", .string email), ("password", .string password)]) =
      match users.rows.find? fun row => row.email == email with
      | none => .ok (Response.error 401 "Invalid credentials")
      | some row =>
          if rt.compareSync password row.password then .ok (.json (UserService.toUserDto row.instance))
          else .ok (Response.error 401 "Invalid credentials") := by
  have hanswer : (UserService.exec rt users (.findOneByEmail (.string email)) env).1 =
      .ok (users.rows.find? fun row => row.email == email) := by
    simp only [UserService.exec, hraises]
    rfl
  generalize hbody : JsValue.object [("email", .string email), ("password", .string password)] = body
  have hemail : body.property "email" = .string email := by
    rw [← hbody]
    rfl
  have hpassword : body.property "password" = .string password := by
    rw [← hbody]
    rfl
  have hfields : UserService.destructure "email" body = .done (.ok body.property) := by
    rw [← hbody]
    rfl
  have hhandler : UserService.handler rt ⟨.verifyCredentials, .missing, body⟩ =
      UserService.verifyCredentials rt body := rfl
  unfold postVerify
  rw [hhandler]
  unfold UserService.verifyCredentials
  rw [hfields, Coroutine.ok_bind, hemail, hpassword]
  simp only [UserService.call, Coroutine.perform, Coroutine.await_bind, Coroutine.eval_await, hanswer,
    Coroutine.ok_bind]
  cases users.rows.find? fun row => row.email == email with
  | none => rfl
  | some row =>
      simp only [UserService.compareSync, Coroutine.pure_eq, Coroutine.ok_bind]
      cases rt.compareSync password row.password <;> rfl

theorem deserializeUser_toUserDto {row : UserService.User} (h : row.id < 2 ^ 31) :
    deserializeUser (UserService.toUserDto row.instance) =
      some (some ⟨row.id, some row.name, some row.email, some row.role.label⟩) := by
  have hid : readInt (.ofNat row.id) = some (row.id : Int) := by
    have hrange : -2 ^ 31 ≤ (row.id : Int) ∧ (row.id : Int) < 2 ^ 31 := by omega
    simp only [JsValue.ofNat, readInt]
    exact if_pos ⟨rfl, hrange⟩
  show (readInt (.ofNat row.id) >>= fun id => _) = _
  rw [hid]
  rfl

/-- The row that the credentials select. -/
def selected (rt : UserService.Runtime) (users : UserService.UsersTable) (email password : String) :
    Option UserService.User :=
  (users.rows.find? fun row => row.email == email).filter fun row =>
    rt.compareSync password row.password

theorem verify_of_json {statusText : Nat → String} {postAsync : JsValue → Except String Response}
    {request : LoginRequest} {body : JsValue} {user : Option ReadUser}
    (hpost : postAsync (.object [("email", .string request.email),
      ("password", .string request.password)]) = .ok (.json body))
    (hbody : deserializeUser body = some user) :
    verify statusText postAsync request = .ok ⟨true, none, user⟩ := by
  unfold verify
  rw [hpost]
  show (match deserializeUser body with | none => _ | some user => _) = _
  rw [hbody]

theorem verify_of_refusal {statusText : Nat → String} {postAsync : JsValue → Except String Response}
    {request : LoginRequest} {message : String}
    (hpost : postAsync (.object [("email", .string request.email),
      ("password", .string request.password)]) = .ok (.error 401 message)) :
    verify statusText postAsync request = .ok ⟨false, some "Invalid credentials", none⟩ := by
  unfold verify
  rw [hpost]
  rfl

theorem verify_eq (hraises : env.raises = false) (statusText : Nat → String) (email password : String) :
    verify statusText (postVerify rt users env) ⟨email, password⟩ =
      match selected rt users email password with
      | none => .ok ⟨false, some "Invalid credentials", none⟩
      | some row => .ok ⟨true, none, some ⟨row.id, some row.name, some row.email,
          some row.role.label⟩⟩ := by
  have hpost := @postVerify_credentials rt users env hraises email password
  unfold selected
  cases hfind : users.rows.find? fun row => row.email == email with
  | none =>
      rw [hfind] at hpost
      rw [verify_of_refusal hpost]
      rfl
  | some row =>
      have hid : row.id < 2 ^ 31 :=
        Nat.lt_of_lt_of_le (users.fresh row (List.mem_of_find?_eq_some hfind)) users.bounded
      rw [hfind] at hpost
      by_cases hverified : rt.compareSync password row.password = true
      · rw [Option.filter_some, if_pos hverified]
        exact verify_of_json (hpost.trans (if_pos hverified)) (deserializeUser_toUserDto hid)
      · rw [Option.filter_some, if_neg hverified]
        exact verify_of_refusal (hpost.trans (if_neg hverified))

theorem login_eq (hraises : env.raises = false) (service : TokenService) (now : Int)
    (statusText : Nat → String) (email password : String) :
    login service now statusText (postVerify rt users env) (.string email) (.string password) =
      if isNullOrWhiteSpace email.toList || isNullOrWhiteSpace password.toList then
        .ok (.unauthorized (some "no data"))
      else
        match selected rt users email password with
        | none => .ok (.unauthorized (some "Invalid credentials"))
        | some row => .ok (.accessToken (service.generateUserToken now
            ⟨row.id, row.name, row.email, row.role.label⟩)) := by
  simp only [login, LoginRequest.bind, verify_eq hraises]
  split
  · rfl
  · cases selected rt users email password <;> rfl

theorem selected_eq_some (hunique : UserService.EmailsUnique users) {email password : String}
    {row : UserService.User} :
    selected rt users email password = some row ↔
      row ∈ users.rows ∧ row.email = email ∧ rt.compareSync password row.password = true := by
  rw [selected, Option.filter_eq_some_iff, find?_key_eq_some hunique, and_assoc]

theorem bind_eq_some {email password : JsValue} {request : LoginRequest}
    (h : LoginRequest.bind email password = some request) :
    ∃ email' password', email = .string email' ∧ password = .string password' := by
  unfold LoginRequest.bind at h
  split at h
  · exact ⟨_, _, rfl, rfl⟩
  · cases h

/-- The login with these credentials selects the row with this id. -/
theorem logsIn_iff (hraises : env.raises = false) (hunique : UserService.EmailsUnique users)
    (service : TokenService) (now : Int) (statusText : Nat → String) (id : Nat)
    (email password : JsValue) :
    LogsIn rt service now statusText users env id email password ↔
      ∃ email' password' hash, email = .string email' ∧ password = .string password' ∧
        isNullOrWhiteSpace email'.toList = false ∧ isNullOrWhiteSpace password'.toList = false ∧
        UserService.credentials users id = some (email', hash) ∧
        rt.compareSync password' hash = true := by
  constructor
  · intro h
    obtain ⟨token, row, hlogin, hrow, hsub, -⟩ := h
    cases hbind : LoginRequest.bind email password with
    | none =>
        simp only [login, hbind] at hlogin
        cases hlogin
    | some request =>
    obtain ⟨email', password', rfl, rfl⟩ := bind_eq_some hbind
    rw [login_eq hraises] at hlogin
    split at hlogin
    · cases hlogin
    rename_i hblank
    rw [Bool.or_eq_true, not_or, Bool.not_eq_true, Bool.not_eq_true] at hblank
    cases hselected : selected rt users email' password' with
    | none =>
        rw [hselected] at hlogin
        cases hlogin
    | some user =>
        rw [hselected] at hlogin
        cases hlogin
        obtain ⟨hmem, hemail, hverified⟩ := (selected_eq_some hunique).mp hselected
        have hid : user.id = id := by
          have htext : Nat.repr user.id = Nat.repr id := Json.str.inj (Option.some.inj hsub)
          have hdigits : Nat.toDigits 10 user.id = Nat.toDigits 10 id := by
            rw [← Nat.toList_repr, htext, Nat.toList_repr]
          rw [← Nat.ofDigitChars_ten_toDigits (n := user.id), hdigits, Nat.ofDigitChars_ten_toDigits]
        refine ⟨email', password', user.password, rfl, rfl, hblank.1, hblank.2, ?_, hverified⟩
        rw [UserService.credentials, Table.find?_eq_some.mpr ⟨hmem, hid⟩, ← hemail]
        rfl
  · intro h
    obtain ⟨email', password', hash, rfl, rfl, hemail, hpassword, hcredentials, hverified⟩ := h
    obtain ⟨row, hrow, hsame⟩ := Option.map_eq_some_iff.mp hcredentials
    cases hsame
    obtain ⟨hmem, hid⟩ := Table.find?_eq_some.mp hrow
    refine ⟨service.generateUserToken now ⟨row.id, row.name, row.email, row.role.label⟩, row, ?_, hrow,
      ?_, ?_⟩
    · rw [login_eq hraises, hemail, hpassword, (selected_eq_some hunique).mpr ⟨hmem, rfl, hverified⟩]
      rfl
    · rw [← hid]
      rfl
    · rfl

end Login

end BookHub.Auth
