import BookHub.Auth.Login
import BookHub.Auth.Provenance
import BookHub.Auth.PublishedKeys
import BookHub.BookService.Issued

/-!
# The platform

The user service, the auth service and the book service together. A login reads the row of a user and,
some time later, gets a token of what it has read; whoever holds a token may present it to the book
service, whose authenticator decodes it with keys that the auth service has published and hands the
request on to the handlers. The services run interleaved, the auth service may start again at any time
with a new key, and the rows of the users change meanwhile.

Nothing tells the book service that a row has changed. What bounds the time for which it goes on
believing a token is the hour after which the token expires. That nobody else can sign with the keys of
the auth service is part of what a step may do.
-/

namespace BookHub

open UserService (UserPool UserMove UserEnv UsersTable)
open Auth (AuthPool Claims Jwt Python PyException RsaKey TokenService deployment)
open BookService (BookPool BookEnv BookRequest BookRequestBody BookThread BooksTable JwtUser)

/-- What the services are configured with, and their libraries. `token` is what a string says as a
token, if it is one, and `writeToken` is that of the handler that writes tokens. -/
structure Setting (PublicKey : Type) where
  runtime : UserService.Runtime
  python : Python PublicKey
  token : String → Option Jwt
  writeToken : Jwt → String
  issuer : Option String
  audience : Option String
  sharedSecret : Option String
  statusText : Nat → String

/-- `verified` are the logins that wait for their token, `issued` the tokens that were written, and
`entered` the authenticated requests that have gone on to a handler of the book service. -/
structure Platform where
  users : UserPool
  auth : AuthPool
  verified : List (Option Auth.ReadUser)
  issued : List String
  entered : List Nat
  books : BookPool

/-- The endpoints of the book service for users. -/
inductive BookCall where
  | create (book : BookRequestBody)
  | delete (bookId : Int)
  deriving DecidableEq, Repr

def BookCall.request (user : JwtUser) : BookCall → BookRequest
  | create book => .create book user
  | delete bookId => .delete bookId user

/-- The user whose token came with a request. -/
def BookService.BookRequest.user : BookRequest → JwtUser
  | .create _ jwt => jwt
  | .delete _ jwt => jwt

inductive PlatformMove where
  | users (move : UserMove)
  | verify (email password : JsValue) (env : UserEnv)
  | mint (index : Nat)
  | serviceToken (serviceName targetServiceName sharedSecret : JsValue)
  | auth (label : Auth.Label)
  | enter (index : Nat) (call : BookCall)
  | book (index : Nat) (env : BookEnv)

section Platform

variable {PublicKey : Type} (cfg : Setting PublicKey)

namespace Setting

/-- The public key that the book service makes of a key as it is published. -/
def publicKey (key : RsaKey) : Except PyException PublicKey := Auth.buildRsaKey cfg.python key.jwk

/-- What the libraries do: a token that is written reads as it was signed, and one that is accepted was
signed with the key of its public key, and has not expired. -/
structure Verifies (cfg : Setting PublicKey) : Prop where
  written : ∀ (service : TokenService) claims expires,
    cfg.token (cfg.writeToken (service.sign claims expires)) = some (service.sign claims expires)
  accepted : ∀ token publicKey now payload,
    cfg.python.decode token publicKey cfg.audience now = .ok payload →
      ∃ jwt, cfg.token token = some jwt ∧ cfg.publicKey jwt.key = .ok publicKey ∧
        payload = jwt.payload ∧ now ≤ jwt.expires

/-- The same public key goes with both. -/
def samePair [DecidableEq PublicKey] (x y : RsaKey) : Bool :=
  match cfg.publicKey x, cfg.publicKey y with
  | .ok p, .ok q => p == q
  | _, _ => false

end Setting

namespace Platform

def clock (s : Platform) : Int := s.auth.store.clock

def tokenService (s : Platform) : TokenService := ⟨s.auth.store.issuer, cfg.issuer, cfg.audience⟩

/-- A login up to the answer of the user service. -/
def verifyStep (s : Platform) (email password : JsValue) (env : UserEnv) : Platform :=
  match Auth.LoginRequest.bind email password with
  | none => s
  | some request =>
      if isNullOrWhiteSpace request.email.toList || isNullOrWhiteSpace request.password.toList then s
      else
        match Auth.verify cfg.statusText (Auth.postVerify cfg.runtime s.users.store env) request with
        | .ok ⟨true, _, user⟩ => { s with verified := s.verified ++ [user] }
        | _ => s

/-- The rest of the login. -/
def mintStep (s : Platform) (index : Nat) : Option Platform :=
  (s.verified[index]?).map fun user =>
    let verified := s.verified.eraseIdx index
    match Auth.generateUserToken (s.tokenService cfg) s.clock user with
    | .ok jwt => { s with verified, issued := s.issued ++ [cfg.writeToken jwt] }
    | .error _ => { s with verified }

def serviceTokenStep (s : Platform) (serviceName targetServiceName sharedSecret : JsValue) : Platform :=
  match Auth.serviceToken (s.tokenService cfg) s.clock cfg.sharedSecret serviceName targetServiceName
    sharedSecret with
  | .accessToken jwt => { s with issued := s.issued ++ [cfg.writeToken jwt] }
  | _ => s

variable [DecidableEq PublicKey]

/-- Only the auth service can sign with its keys: who presents a token that was signed with one of them
has got it from there, and a new key has signed nothing that was presented before. -/
def unforged (s : Platform) : Auth.Label → Bool
  | .serve (.arrive request) =>
      match cfg.token request.token with
      | none => true
      | some jwt => s.issued.contains request.token ||
          s.auth.store.keys.all fun key => !cfg.samePair key jwt.key
  | .restart key => s.auth.threads.all fun t =>
      match cfg.token t.request.token with
      | none => true
      | some jwt => !cfg.samePair key jwt.key
  | _ => true

/-- A restart ends the logins in progress. -/
def authStep (s : Platform) (label : Auth.Label) : Option Platform :=
  if s.unforged cfg label then
    let verified := match label with
      | .restart _ => []
      | _ => s.verified
    ((deployment cfg.python cfg.audience).step s.auth label).map fun auth => { s with auth, verified }
  else none

/-- An authenticated request goes on to its handler. -/
def enterStep (s : Platform) (index : Nat) (call : BookCall) : Option Platform :=
  match s.auth.threads[index]? with
  | some ⟨.user .book _, _, .done (.ok (some user))⟩ =>
      if index ∈ s.entered then none
      else (BookService.service.machine.step s.books (.arrive (call.request user))).map fun books =>
        { s with books, entered := s.entered ++ [index] }
  | _ => none

def machine : Machine Platform PlatformMove where
  step
    | s, .users move => ((UserService.service cfg.runtime).machine.step s.users move).map fun users =>
        { s with users }
    | s, .verify email password env => some (s.verifyStep cfg email password env)
    | s, .mint index => s.mintStep cfg index
    | s, .serviceToken serviceName targetServiceName sharedSecret =>
        some (s.serviceTokenStep cfg serviceName targetServiceName sharedSecret)
    | s, .auth label => s.authStep cfg label
    | s, .enter index call => s.enterStep index call
    | s, .book index env => (BookService.service.machine.step s.books (.resume index env)).map fun books =>
        { s with books }

def start (users : UsersTable) (clock : Int) (key : RsaKey) (books : BooksTable) : Platform :=
  ⟨Service.start users, Service.start (Auth.World.start clock key), [], [], [],
    Service.start ⟨books, []⟩⟩

end Platform

/-! ### Who is believed, and until when -/

namespace UserService.User

/-- The row as the answer to a login is read, and as the token is made of it. -/
def readUser (row : UserService.User) : Auth.ReadUser :=
  ⟨row.id, some row.name, some row.email, some row.role.label⟩

def tokenUser (row : UserService.User) : Auth.User := ⟨row.id, row.name, row.email, row.role.label⟩

end UserService.User

/-- The steps of a run so far, with the states that they started from. -/
abbrev Past : Type := List (Platform × PlatformMove)

/-- By this time, somebody gave the email and the password of this row, as the table had it then. -/
def LoggedIn (past : Past) (row : UserService.User) (time : Int) : Prop :=
  ∃ login password env, (login, .verify (.string row.email) (.string password) env) ∈ past ∧
    row ∈ login.users.store.rows ∧ cfg.runtime.compareSync password row.password = true ∧
    login.clock ≤ time

/-- This token was made at this time for a login with this row. -/
def MadeFor (past : Past) (jwt : Jwt) (row : UserService.User) (made : Int) : Prop :=
  ∃ mint index, (mint, .mint index) ∈ past ∧ mint.clock = made ∧
    mint.verified[index]? = some (some row.readUser) ∧ LoggedIn cfg past row made ∧
    jwt = (mint.tokenService cfg).generateUserToken made row.tokenUser

/-- This token was made at this time for a service that gave the secret. -/
def MadeForService (past : Past) (jwt : Jwt) (serviceName targetServiceName : String) (made : Int) :
    Prop :=
  ∃ mint secret, (mint, .serviceToken (.string serviceName) (.string targetServiceName)
      (.string secret)) ∈ past ∧ mint.clock = made ∧ cfg.sharedSecret = some secret ∧
    jwt = (mint.tokenService cfg).generateServiceToken made serviceName targetServiceName

/-- What the auth service has signed. -/
def Signed (past : Past) (jwt : Jwt) : Prop :=
  (∃ row made, MadeFor cfg past jwt row made) ∨
    ∃ serviceName targetServiceName made, MadeForService cfg past jwt serviceName targetServiceName made

/-- In a step of its own, the authenticator of this request has read this time from the clock. -/
def ReadsClock (past : Past) (index : Nat) (request : Auth.Request) (now : Int) : Prop :=
  ∃ check env t resume, (check, .auth (.serve (.resume index env))) ∈ past ∧
    check.auth.threads[index]? = some t ∧ t.request = request ∧ t.code = .await .now resume ∧
    check.clock = now

/-- This request of the book service was let in with a token that had been written for a login with this
row, not more than an hour before the clock was read to check it. -/
def Believed (past : Past) (index : Nat) (row : UserService.User) : Prop :=
  ∃ arrival auth call trace jwt made now, (arrival, .enter auth call) ∈ past ∧
    arrival.books.threads.length = index ∧
    arrival.auth.threads[auth]? =
      some ⟨.user .book (cfg.writeToken jwt), trace, .done (.ok (some row.tokenUser.verified))⟩ ∧
    MadeFor cfg past jwt row made ∧
    ReadsClock past auth (.user .book (cfg.writeToken jwt)) now ∧ now ≤ made + 3600

/-- The token of this request had been written for the book service as its target, for a service that
gave the secret, not more than five minutes before the clock was read to check it. -/
def BelievedService (past : Past) (index : Nat) (token : String) : Prop :=
  ∃ jwt serviceName made now, token = cfg.writeToken jwt ∧
    MadeForService cfg past jwt serviceName "book-service" made ∧
    ReadsClock past index (.service token) now ∧ now ≤ made + 300

/-- The operations that change the table of the books. -/
def BookService.BookOp.writes : BookService.BookOp → Bool
  | .commitNew _ _ => true
  | .commitDeleted _ => true
  | _ => false

/-- The handler changes the table for an admin only. -/
def AdminOnly (t : BookThread) : Prop :=
  Coroutine.Issues (fun _ _ => True)
    (fun _ (op : BookService.BookOp) => op.writes = true → BookService.isAdmin t.request.user = true)
    t.trace t.code

structure Inv [DecidableEq PublicKey] (past : Past) (s : Platform) : Prop where
  sound : Auth.Sound cfg.python cfg.audience s.auth
  pending : ∀ user ∈ s.verified, ∃ row : UserService.User,
    user = some row.readUser ∧ LoggedIn cfg past row s.clock
  issued : ∀ token ∈ s.issued, ∃ jwt, token = cfg.writeToken jwt ∧ cfg.token token = some jwt ∧
    Signed cfg past jwt
  times : ∀ (index : Nat) t, s.auth.threads[index]? = some t →
    ∀ now : Int, ⟨.now, .ok now⟩ ∈ t.trace → ReadsClock past index t.request now
  held : ∀ t ∈ s.auth.threads, ∀ jwt, cfg.token t.request.token = some jwt →
    (∃ key ∈ s.auth.store.keys, cfg.samePair key jwt.key = true) → t.request.token ∈ s.issued
  believed : ∀ (index : Nat) t, s.books.threads[index]? = some t → ∃ row : UserService.User,
    t.request.user = row.tokenUser.verified ∧ Believed cfg past index row
  admins : ∀ t ∈ s.books.threads, AdminOnly t

end Platform

section Platform

variable {PublicKey : Type} {cfg : Setting PublicKey} {past past' : Past} {s s' : Platform}

/-! ### What stays true -/

theorem LoggedIn.mono {row : UserService.User} {time time' : Int} (h : LoggedIn cfg past row time)
    (hpast : past ⊆ past') (htime : time ≤ time') : LoggedIn cfg past' row time' := by
  obtain ⟨login, password, env, hlogin, hrow, hverified, hclock⟩ := h
  exact ⟨login, password, env, hpast hlogin, hrow, hverified, Int.le_trans hclock htime⟩

theorem MadeFor.mono {jwt : Jwt} {row : UserService.User} {made : Int}
    (h : MadeFor cfg past jwt row made) (hpast : past ⊆ past') : MadeFor cfg past' jwt row made := by
  obtain ⟨mint, index, hmint, hclock, hread, hlogin, hjwt⟩ := h
  exact ⟨mint, index, hpast hmint, hclock, hread, hlogin.mono hpast (Int.le_refl _), hjwt⟩

theorem MadeForService.mono {jwt : Jwt} {serviceName targetServiceName : String} {made : Int}
    (h : MadeForService cfg past jwt serviceName targetServiceName made) (hpast : past ⊆ past') :
    MadeForService cfg past' jwt serviceName targetServiceName made := by
  obtain ⟨mint, secret, hmint, hrest⟩ := h
  exact ⟨mint, secret, hpast hmint, hrest⟩

theorem Signed.mono {jwt : Jwt} (h : Signed cfg past jwt) (hpast : past ⊆ past') :
    Signed cfg past' jwt := by
  obtain ⟨row, made, hmade⟩ | ⟨serviceName, targetServiceName, made, hmade⟩ := h
  · exact .inl ⟨row, made, hmade.mono hpast⟩
  · exact .inr ⟨serviceName, targetServiceName, made, hmade.mono hpast⟩

theorem ReadsClock.mono {index : Nat} {request : Auth.Request} {now : Int}
    (h : ReadsClock past index request now) (hpast : past ⊆ past') :
    ReadsClock past' index request now := by
  obtain ⟨check, env, t, resume, hcheck, hrest⟩ := h
  exact ⟨check, env, t, resume, hpast hcheck, hrest⟩

theorem Believed.mono {index : Nat} {row : UserService.User} (h : Believed cfg past index row)
    (hpast : past ⊆ past') : Believed cfg past' index row := by
  obtain ⟨arrival, auth, call, trace, jwt, made, now, harrival, hindex, hthread, hmade, hreads, hnow⟩ := h
  exact ⟨arrival, auth, call, trace, jwt, made, now, hpast harrival, hindex, hthread, hmade.mono hpast,
    hreads.mono hpast, hnow⟩

/-- No token is made for both. -/
theorem MadeFor.not_service {jwt : Jwt} {row : UserService.User} {made made' : Int}
    {serviceName targetServiceName : String} (h : MadeFor cfg past jwt row made) :
    ¬ MadeForService cfg past jwt serviceName targetServiceName made' := by
  rintro ⟨mint', secret, -, -, -, rfl⟩
  obtain ⟨mint, index, -, -, -, -, hjwt⟩ := h
  obtain ⟨-, -, -, -, hnull⟩ := (mint.tokenService cfg).get_userToken made row.tokenUser
  obtain ⟨-, hazp⟩ := (mint'.tokenService cfg).get_serviceToken made' serviceName targetServiceName
  have hsame := congrArg (fun jwt => Claims.get jwt.payload "azp") hjwt
  cases hazp.symm.trans (hsame.trans hnull)

variable [DecidableEq PublicKey]

/-- A step that leaves the auth service and the book service alone. -/
theorem Inv.frame (h : Inv cfg past s) (hpast : past ⊆ past') (hauth : s'.auth = s.auth)
    (hbooks : s'.books = s.books) (hverified : s'.verified ⊆ s.verified)
    (hissued : s'.issued = s.issued) : Inv cfg past' s' where
  sound := hauth ▸ h.sound
  pending user huser := by
    obtain ⟨row, hrow, hlogin⟩ := h.pending user (hverified huser)
    have hclock : s.clock = s'.clock := congrArg (fun auth => auth.store.clock) hauth.symm
    exact ⟨row, hrow, hlogin.mono hpast (Int.le_of_eq hclock)⟩
  issued token htoken := by
    obtain ⟨jwt, hwritten, hjwt, hsigned⟩ := h.issued token (hissued ▸ htoken)
    exact ⟨jwt, hwritten, hjwt, hsigned.mono hpast⟩
  times index t ht now hnow := (h.times index t (hauth ▸ ht) now hnow).mono hpast
  held := by
    rw [hauth, hissued]
    exact h.held
  believed index t ht := by
    obtain ⟨row, huser, hbelieved⟩ := h.believed index t (hbooks ▸ ht)
    exact ⟨row, huser, hbelieved.mono hpast⟩
  admins := hbooks ▸ h.admins

/-! ### Logins and tokens -/

omit [DecidableEq PublicKey] in
/-- What a login gets from the user service is the row that it names and whose password it has. -/
theorem selected_of_verify {users : UsersTable} {env : UserEnv} {request : Auth.LoginRequest}
    {message : Option String} {user : Option Auth.ReadUser}
    (h : Auth.verify cfg.statusText (Auth.postVerify cfg.runtime users env) request =
      .ok ⟨true, message, user⟩) :
    ∃ row, Auth.selected cfg.runtime users request.email request.password = some row ∧
      user = some row.readUser := by
  cases hraises : env.raises with
  | false =>
      rw [Auth.verify_eq hraises] at h
      split at h
      · cases h
      · rename_i row hselected
        cases h
        exact ⟨row, hselected, rfl⟩
  | true =>
      have hpost : ∀ email password : String, Auth.postVerify cfg.runtime users env
          (.object [("email", .string email), ("password", .string password)]) =
            .ok ⟨500, .string env.errorText⟩ := by
        intro email password
        have hanswer : (UserService.exec cfg.runtime users (.findOneByEmail (.string email)) env).1 =
            .error ⟨env.errorText⟩ := by
          simp only [UserService.exec, hraises, if_true]
        have hhandler : ∀ body, UserService.handler cfg.runtime ⟨.verifyCredentials, .missing, body⟩ =
            UserService.verifyCredentials cfg.runtime body := fun _ => rfl
        have hfields : UserService.destructure "email"
            (.object [("email", .string email), ("password", .string password)]) =
            .done (.ok (JsValue.property (.object [("email", .string email),
              ("password", .string password)]))) := rfl
        have hemail : JsValue.property (.object [("email", .string email), ("password", .string password)])
            "email" = .string email := rfl
        unfold Auth.postVerify
        rw [hhandler]
        unfold UserService.verifyCredentials
        rw [hfields, Coroutine.ok_bind, hemail]
        simp only [UserService.call, Coroutine.perform, Coroutine.await_bind, Coroutine.eval_await, hanswer,
          Coroutine.error_bind, Coroutine.eval_done]
      rw [Auth.verify, hpost] at h
      cases h

theorem inv_verifyStep (h : Inv cfg past s) (email password : JsValue) (env : UserEnv) :
    Inv cfg (past ++ [(s, .verify email password env)]) (s.verifyStep cfg email password env) := by
  have hsame : Inv cfg (past ++ [(s, .verify email password env)]) s :=
    h.frame (List.subset_append_left _ _) rfl rfl (List.Subset.refl _) rfl
  unfold Platform.verifyStep
  cases hbind : Auth.LoginRequest.bind email password with
  | none => exact hsame
  | some request =>
      obtain ⟨email, password, rfl, rfl⟩ := Auth.bind_eq_some hbind
      cases hbind
      dsimp only
      split
      · exact hsame
      · split
        · rename_i message user hverify
          obtain ⟨row, hselected, rfl⟩ := selected_of_verify hverify
          obtain ⟨hfind, hpassword⟩ := Option.filter_eq_some_iff.mp hselected
          have hemail : row.email = email := by
            have hmatch := List.find?_some hfind
            exact eq_of_beq hmatch
          refine ⟨hsame.sound, fun user huser => ?_, hsame.issued, hsame.times, hsame.held,
            hsame.believed, hsame.admins⟩
          obtain huser | huser := List.mem_append.mp huser
          · exact hsame.pending user huser
          · refine ⟨row, List.mem_singleton.mp huser, s, password, env, ?_, List.mem_of_find?_eq_some hfind,
              hpassword, Int.le_refl _⟩
            rw [hemail]
            exact List.mem_append_right _ (List.mem_singleton_self _)
        · exact hsame

/-- What was signed is written. -/
theorem Inv.issue (h : Inv cfg past s) (hcfg : cfg.Verifies) {service : TokenService}
    {claims : List (String × String)} {expires : Int}
    (hsigned : Signed cfg past (service.sign claims expires)) :
    Inv cfg past { s with issued := s.issued ++ [cfg.writeToken (service.sign claims expires)] } where
  sound := h.sound
  pending := h.pending
  issued token htoken := by
    obtain htoken | htoken := List.mem_append.mp htoken
    · exact h.issued token htoken
    · rw [List.mem_singleton.mp htoken]
      exact ⟨_, rfl, hcfg.written service claims expires, hsigned⟩
  times := h.times
  held t ht jwt hjwt hkey := List.mem_append_left _ (h.held t ht jwt hjwt hkey)
  believed := h.believed
  admins := h.admins

theorem inv_mintStep (hcfg : cfg.Verifies) (h : Inv cfg past s) {index : Nat}
    (hstep : s.mintStep cfg index = some s') : Inv cfg (past ++ [(s, .mint index)]) s' := by
  obtain ⟨user, huser, rfl⟩ := Option.map_eq_some_iff.mp hstep
  have hpast : past ⊆ past ++ [(s, .mint index)] := List.subset_append_left _ _
  have hrest : Inv cfg (past ++ [(s, .mint index)]) { s with verified := s.verified.eraseIdx index } :=
    h.frame hpast rfl rfl List.eraseIdx_subset rfl
  obtain ⟨row, rfl, hlogin⟩ := h.pending user (List.mem_of_getElem? huser)
  apply hrest.issue hcfg
  refine .inl ⟨row, s.clock, s, index, ?_, rfl, huser, hlogin.mono hpast (Int.le_refl _), rfl⟩
  exact List.mem_append_right _ (List.mem_singleton_self _)

theorem inv_serviceTokenStep (hcfg : cfg.Verifies) (h : Inv cfg past s)
    (serviceName targetServiceName sharedSecret : JsValue) :
    Inv cfg (past ++ [(s, .serviceToken serviceName targetServiceName sharedSecret)])
      (s.serviceTokenStep cfg serviceName targetServiceName sharedSecret) := by
  have hsame : Inv cfg (past ++ [(s, .serviceToken serviceName targetServiceName sharedSecret)]) s :=
    h.frame (List.subset_append_left _ _) rfl rfl (List.Subset.refl _) rfl
  unfold Platform.serviceTokenStep
  split
  · rename_i jwt htoken
    obtain ⟨name, target, secret, rfl, rfl, rfl, hsecret, rfl⟩ := Auth.serviceToken_accessToken htoken
    apply hsame.issue hcfg
    refine .inr ⟨name, target, s.clock, s, secret, ?_, rfl, hsecret, rfl⟩
    exact List.mem_append_right _ (List.mem_singleton_self _)
  · exact hsame

/-! ### Requests of the book service -/

theorem Inv.withAuth (h : Inv cfg past s) (hpast : past ⊆ past') {auth : AuthPool}
    (hsound : Auth.Sound cfg.python cfg.audience auth) (hclock : s.auth.store.clock ≤ auth.store.clock)
    (htimes : ∀ (index : Nat) t, auth.threads[index]? = some t →
      ∀ now : Int, ⟨.now, .ok now⟩ ∈ t.trace → ReadsClock past' index t.request now)
    (hheld : ∀ t ∈ auth.threads, ∀ jwt, cfg.token t.request.token = some jwt →
      (∃ key ∈ auth.store.keys, cfg.samePair key jwt.key = true) → t.request.token ∈ s.issued) :
    Inv cfg past' { s with auth } where
  sound := hsound
  pending user huser := by
    obtain ⟨row, hrow, hlogin⟩ := h.pending user huser
    exact ⟨row, hrow, hlogin.mono hpast hclock⟩
  issued token htoken := by
    obtain ⟨jwt, hwritten, hjwt, hsigned⟩ := h.issued token htoken
    exact ⟨jwt, hwritten, hjwt, hsigned.mono hpast⟩
  times := htimes
  held := hheld
  believed index t ht := by
    obtain ⟨row, huser, hbelieved⟩ := h.believed index t ht
    exact ⟨row, huser, hbelieved.mono hpast⟩
  admins := h.admins

theorem inv_authStep (h : Inv cfg past s) {label : Auth.Label} (hstep : s.authStep cfg label = some s') :
    Inv cfg (past ++ [(s, .auth label)]) s' := by
  obtain ⟨hunforged, hstep⟩ := Option.ite_none_right_eq_some.mp hstep
  obtain ⟨auth, hmove, rfl⟩ := Option.map_eq_some_iff.mp hstep
  have hpast : past ⊆ past ++ [(s, .auth label)] := List.subset_append_left _ _
  have hthis : (s, .auth label) ∈ past ++ [(s, .auth label)] :=
    List.mem_append_right _ (List.mem_singleton_self _)
  have hsound := Auth.sound_step h.sound hmove
  have htimes : ∀ (index : Nat) t, s.auth.threads[index]? = some t →
      ∀ now : Int, ⟨.now, .ok now⟩ ∈ t.trace →
        ReadsClock (past ++ [(s, .auth label)]) index t.request now :=
    fun index t ht now hnow => (h.times index t ht now hnow).mono hpast
  cases label with
  | restart key =>
      obtain ⟨-, hauth⟩ := Option.ite_none_right_eq_some.mp hmove
      cases hauth
      have hheld : ∀ t ∈ s.auth.threads, ∀ jwt, cfg.token t.request.token = some jwt →
          (∃ key' ∈ key :: s.auth.store.keys, cfg.samePair key' jwt.key = true) →
          t.request.token ∈ s.issued := by
        rintro t ht jwt hjwt ⟨key', hkey', hpair⟩
        obtain rfl | hkey' := List.mem_cons.mp hkey'
        · have hnew := List.all_eq_true.mp hunforged t ht
          simp only [hjwt, hpair, Bool.not_true, Bool.false_eq_true] at hnew
        · exact h.held t ht jwt hjwt ⟨key', hkey', hpair⟩
      have hnext := h.withAuth hpast hsound (Int.le_refl _) htimes hheld
      exact hnext.frame (List.Subset.refl _) rfl rfl (List.nil_subset _) rfl
  | tick seconds =>
      cases hmove
      apply h.withAuth hpast hsound _ htimes h.held
      exact Int.le_add_of_nonneg_right (Int.natCast_nonneg seconds)
  | serve move =>
      cases move with
      | arrive request =>
          obtain ⟨-, rfl⟩ := (Auth.verifiers cfg.python cfg.audience).step_arrive hmove
          apply h.withAuth hpast hsound (Int.le_refl _)
          · intro index t ht now hnow
            obtain ht | ⟨-, rfl⟩ := getElem?_concat_cases ht
            · exact htimes index t ht now hnow
            · exact absurd hnow List.not_mem_nil
          · rintro t ht jwt hjwt ⟨key, hkey, hpair⟩
            obtain ht | ht := List.mem_append.mp ht
            · exact h.held t ht jwt hjwt ⟨key, hkey, hpair⟩
            · rw [List.mem_singleton.mp ht] at hjwt ⊢
              have htoken : cfg.token request.token = some jwt := hjwt
              simp only [Platform.unforged, htoken, Bool.or_eq_true, List.contains_iff_mem,
                List.all_eq_true] at hunforged
              refine hunforged.resolve_right fun hall => ?_
              have hother := hall key hkey
              rw [hpair] at hother
              cases hother
      | resume index env =>
          obtain ⟨t, op, resume, ht, hcode, rfl⟩ :=
            (Auth.verifiers cfg.python cfg.audience).step_resume hmove
          have hmem := List.mem_of_getElem? ht
          obtain ⟨hclock, -, -⟩ := s.auth.store.exec_frame op env
          apply h.withAuth hpast hsound (Int.le_of_eq hclock.symm)
          · intro index' u hu now hnow
            obtain hu | ⟨rfl, rfl⟩ := getElem?_set_cases hu
            · exact htimes index' u hu now hnow
            · obtain hnow | hnow := List.mem_append.mp hnow
              · exact htimes index t ht now hnow
              · -- the clock is read in this step
                cases op with
                | now =>
                    cases List.mem_singleton.mp hnow
                    exact ⟨s, env, t, resume, hthis, ht, rfl, hcode, rfl⟩
                | _ => cases List.mem_singleton.mp hnow
          · intro u hu jwt hjwt hkey
            rw [show ((Auth.verifiers cfg.python cfg.audience).exec s.auth.store op env).2.keys =
              s.auth.store.keys from Auth.keys_exec op env] at hkey
            obtain hu | rfl := List.mem_or_eq_of_mem_set hu
            · exact h.held u hu jwt hjwt hkey
            · exact h.held t hmem jwt hjwt hkey

/-! ### Accepted requests -/

/-- What was accepted was issued, and checked in time. -/
theorem Inv.accepted (hcfg : cfg.Verifies) (h : Inv cfg past s) {index : Nat}
    {t : Thread Auth.authSig PyException Auth.Request (Option JwtUser)}
    (ht : s.auth.threads[index]? = some t) {result : Option JwtUser}
    (hcode : t.code = .done (.ok result)) :
    ∃ jwt now, t.request.token = cfg.writeToken jwt ∧ cfg.token t.request.token = some jwt ∧
      Signed cfg past jwt ∧ ReadsClock past index t.request now ∧ now ≤ jwt.expires ∧
      Auth.Admits cfg.python jwt.payload t.request result := by
  have hmem := List.mem_of_getElem? ht
  obtain ⟨key, hkey, payload, publicKey, now, hbuild, hnow, hdecode, hadmits⟩ :=
    (h.sound.threads t hmem).signed hcode
  obtain ⟨jwt, hjwt, hpublic, rfl, hexpires⟩ := hcfg.accepted _ _ _ _ hdecode
  have hpair : cfg.samePair key jwt.key = true := by
    have hkeyPublic : cfg.publicKey key = .ok publicKey := hbuild
    simp only [Setting.samePair, hkeyPublic, hpublic, beq_self_eq_true]
  obtain ⟨jwt', hwritten, hjwt', hsigned⟩ := h.issued _ (h.held t hmem jwt hjwt ⟨key, hkey, hpair⟩)
  obtain rfl : jwt = jwt' := Option.some.inj (hjwt.symm.trans hjwt')
  exact ⟨jwt, now, hwritten, hjwt, hsigned, h.times index t ht now hnow, hexpires, hadmits⟩

/-- A user that was accepted is the one of the row that the token was made for. -/
theorem Inv.believed_of_user (hcfg : cfg.Verifies) (h : Inv cfg past s) {index : Nat}
    {trace : List (Auth.authSig.Event PyException)} {verifier : Auth.Verifier} {token : String}
    {user : JwtUser}
    (ht : s.auth.threads[index]? = some ⟨.user verifier token, trace, .done (.ok (some user))⟩) :
    ∃ jwt, ∃ row : UserService.User, ∃ made now, token = cfg.writeToken jwt ∧
      user = row.tokenUser.verified ∧ MadeFor cfg past jwt row made ∧
      ReadsClock past index (.user verifier token) now ∧ now ≤ made + 3600 := by
  obtain ⟨jwt, now, hwritten, -, hsigned, hreads, hexpires, hadmits⟩ := h.accepted hcfg ht rfl
  obtain ⟨_, ⟨⟩, huser⟩ := hadmits
  obtain ⟨hid, hname, hemail, hrole⟩ := Auth.jwtUser_ok huser
  obtain ⟨row, made, hmade⟩ | ⟨serviceName, targetServiceName, made, mint, secret, -, -, -, rfl⟩ := hsigned
  · refine ⟨jwt, row, made, now, hwritten, ?_, hmade, hreads, ?_⟩
    all_goals obtain ⟨mint, -, -, -, -, -, rfl⟩ := hmade
    · obtain ⟨hsub, hname', hemail', hrole', -⟩ :=
        (mint.tokenService cfg).get_userToken made row.tokenUser
      obtain ⟨id, name, email, role⟩ := user
      cases hsub.symm.trans hid
      cases hname'.symm.trans hname
      cases hemail'.symm.trans hemail
      cases hrole'.symm.trans hrole
      rfl
    · exact hexpires
  · obtain ⟨hnull, -⟩ := (mint.tokenService cfg).get_serviceToken made serviceName targetServiceName
    cases hnull.symm.trans hname

/-- A service that was accepted knows the secret. -/
theorem Inv.believed_of_service (hcfg : cfg.Verifies) (h : Inv cfg past s) {index : Nat}
    {t : Thread Auth.authSig PyException Auth.Request (Option JwtUser)}
    (ht : s.auth.threads[index]? = some t) {token : String} {result : Option JwtUser}
    (hrequest : t.request = .service token) (hcode : t.code = .done (.ok result)) :
    BelievedService cfg past index token ∧
      ∀ jwt row made, cfg.token token = some jwt → ¬ MadeFor cfg past jwt row made := by
  obtain ⟨jwt, now, hwritten, hjwt, hsigned, hreads, hexpires, hadmits⟩ := h.accepted hcfg ht hcode
  rw [hrequest] at hwritten hjwt hreads hadmits
  obtain ⟨-, htruthy, htarget⟩ := hadmits
  obtain ⟨row, made, mint, index, -, -, -, -, rfl⟩ | ⟨serviceName, targetServiceName, made, hmade⟩ :=
    hsigned
  · obtain ⟨-, -, -, -, hnull⟩ := (mint.tokenService cfg).get_userToken made row.tokenUser
    have hfalse := htruthy.symm.trans (congrArg (Auth.truthy cfg.python) hnull)
    cases hfalse
  · have htargeted : targetServiceName = "book-service" ∧ now ≤ made + 300 := by
      obtain ⟨mint, secret, -, -, -, rfl⟩ := hmade
      obtain ⟨-, hazp⟩ := (mint.tokenService cfg).get_serviceToken made serviceName targetServiceName
      have heq := (congrArg (cfg.python.eq · (.str "book-service")) hazp).symm.trans htarget
      exact ⟨eq_of_beq ((cfg.python.eq_str _ _).symm.trans heq), hexpires⟩
    obtain ⟨rfl, hnow⟩ := htargeted
    refine ⟨⟨jwt, serviceName, made, now, hwritten, hmade, hreads, hnow⟩, ?_⟩
    intro jwt' row made' hjwt' huser
    obtain rfl : jwt = jwt' := Option.some.inj (hjwt.symm.trans hjwt')
    exact huser.not_service hmade

/-! ### The handlers of the book service -/

omit [DecidableEq PublicKey] in
theorem adminOnly_spawn (request : BookRequest) : AdminOnly (BookService.service.spawn request) := by
  unfold AdminOnly
  cases hadmin : BookService.isAdmin request.user with
  | true => exact Coroutine.issues_of_forall (fun _ _ _ => hadmin) _ _
  | false =>
      -- refused before the first operation
      have hrefused : ∃ err, BookService.handler request = .done (.error err) := by
        cases request with
        | create book jwt =>
            have hjwt : BookService.isAdmin jwt = false := hadmin
            simp only [BookService.handler, BookService.createBook, hjwt, Bool.not_false, if_true]
            exact ⟨_, rfl⟩
        | delete bookId jwt =>
            have hjwt : BookService.isAdmin jwt = false := hadmin
            simp only [BookService.handler, BookService.deleteBook, hjwt, Bool.not_false, if_true]
            exact ⟨_, rfl⟩
      obtain ⟨err, hrefused⟩ := hrefused
      show Coroutine.Issues _ _ [] (BookService.handler request)
      rw [hrefused]
      trivial

theorem inv_enterStep (hcfg : cfg.Verifies) (h : Inv cfg past s) {index : Nat} {call : BookCall}
    (hstep : s.enterStep index call = some s') : Inv cfg (past ++ [(s, .enter index call)]) s' := by
  have hpast : past ⊆ past ++ [(s, .enter index call)] := List.subset_append_left _ _
  unfold Platform.enterStep at hstep
  split at hstep
  · rename_i token trace user hthread
    split at hstep
    · cases hstep
    · obtain ⟨books, hbooks, rfl⟩ := Option.map_eq_some_iff.mp hstep
      obtain ⟨-, rfl⟩ := BookService.service.step_arrive hbooks
      obtain ⟨jwt, row, made, now, rfl, rfl, hmade, hreads, hnow⟩ := h.believed_of_user hcfg hthread
      have hbelieved : Believed cfg (past ++ [(s, .enter index call)]) s.books.threads.length row :=
        ⟨s, index, call, trace, jwt, made, now, List.mem_append_right _ (List.mem_singleton_self _), rfl,
          hthread, hmade.mono hpast, hreads.mono hpast, hnow⟩
      have hsame : Inv cfg (past ++ [(s, .enter index call)]) s :=
        h.frame hpast rfl rfl (List.Subset.refl _) rfl
      refine ⟨hsame.sound, hsame.pending, hsame.issued, hsame.times, hsame.held, fun k t ht => ?_,
        fun t ht => ?_⟩
      · obtain ht | ⟨rfl, rfl⟩ := getElem?_concat_cases ht
        · exact hsame.believed k t ht
        · refine ⟨row, ?_, hbelieved⟩
          cases call <;> rfl
      · obtain ht | ht := List.mem_append.mp ht
        · exact hsame.admins t ht
        · rw [List.mem_singleton.mp ht]
          exact adminOnly_spawn _
  · cases hstep

theorem inv_bookStep (h : Inv cfg past s) {index : Nat} {env : BookEnv} {books : BookPool}
    (hstep : BookService.service.machine.step s.books (.resume index env) = some books) :
    Inv cfg (past ++ [(s, .book index env)]) { s with books } := by
  have hsame : Inv cfg (past ++ [(s, .book index env)]) s :=
    h.frame (List.subset_append_left _ _) rfl rfl (List.Subset.refl _) rfl
  obtain ⟨t, op, resume, ht, hcode, rfl⟩ := BookService.service.step_resume hstep
  refine ⟨hsame.sound, hsame.pending, hsame.issued, hsame.times, hsame.held, fun k u hu => ?_,
    fun u hu => ?_⟩
  · obtain hu | ⟨rfl, rfl⟩ := getElem?_set_cases hu
    · exact hsame.believed k u hu
    · exact hsame.believed index t ht
  · obtain hu | rfl := List.mem_or_eq_of_mem_set hu
    · exact hsame.admins u hu
    · have hissues := hsame.admins t (List.mem_of_getElem? ht)
      rw [AdminOnly, hcode] at hissues
      exact hissues.2 _ trivial

/-! ### Runs -/

theorem inv_start (users : UsersTable) (clock : Int) (key : RsaKey) (books : BooksTable) :
    Inv cfg [] (Platform.start users clock key books) where
  sound := Auth.sound_start clock key
  pending _ huser := absurd huser List.not_mem_nil
  issued _ htoken := absurd htoken List.not_mem_nil
  times _ _ ht := by cases ht
  held _ ht := absurd ht List.not_mem_nil
  believed _ _ ht := by cases ht
  admins _ ht := absurd ht List.not_mem_nil

theorem inv_step (hcfg : cfg.Verifies) (past : Past) (s : Platform) (move : PlatformMove) (s' : Platform)
    (h : Inv cfg past s) (hstep : (Platform.machine cfg).step s move = some s') :
    Inv cfg (past ++ [(s, move)]) s' := by
  cases move with
  | users move =>
      obtain ⟨users, -, rfl⟩ := Option.map_eq_some_iff.mp hstep
      exact h.frame (List.subset_append_left _ _) rfl rfl (List.Subset.refl _) rfl
  | verify email password env =>
      cases hstep
      exact inv_verifyStep h email password env
  | mint index => exact inv_mintStep hcfg h hstep
  | serviceToken serviceName targetServiceName sharedSecret =>
      cases hstep
      exact inv_serviceTokenStep hcfg h serviceName targetServiceName sharedSecret
  | auth label => exact inv_authStep h hstep
  | enter index call => exact inv_enterStep hcfg h hstep
  | book index env =>
      obtain ⟨books, hbooks, rfl⟩ := Option.map_eq_some_iff.mp hstep
      exact inv_bookStep h hbooks

/-- Only the handlers of the book service change its store. -/
theorem store_step {move : PlatformMove} (hstep : (Platform.machine cfg).step s move = some s') :
    s'.books.store = s.books.store ∨ ∃ index env, move = .book index env ∧
      BookService.service.machine.step s.books (.resume index env) = some s'.books := by
  cases move with
  | users move =>
      obtain ⟨users, -, rfl⟩ := Option.map_eq_some_iff.mp hstep
      exact .inl rfl
  | verify email password env =>
      left
      cases hstep
      unfold Platform.verifyStep
      split
      · rfl
      · split
        · rfl
        · split <;> rfl
  | mint index =>
      left
      obtain ⟨user, -, rfl⟩ := Option.map_eq_some_iff.mp hstep
      dsimp only
      split <;> rfl
  | serviceToken serviceName targetServiceName sharedSecret =>
      left
      cases hstep
      unfold Platform.serviceTokenStep
      split <;> rfl
  | auth label =>
      obtain ⟨-, hstep⟩ := Option.ite_none_right_eq_some.mp hstep
      obtain ⟨auth, -, rfl⟩ := Option.map_eq_some_iff.mp hstep
      exact .inl rfl
  | enter index call =>
      left
      replace hstep : s.enterStep index call = some s' := hstep
      unfold Platform.enterStep at hstep
      split at hstep
      · split at hstep
        · cases hstep
        · obtain ⟨books, hbooks, rfl⟩ := Option.map_eq_some_iff.mp hstep
          obtain ⟨-, rfl⟩ := BookService.service.step_arrive hbooks
          rfl
      · cases hstep
  | book index env =>
      obtain ⟨books, hbooks, rfl⟩ := Option.map_eq_some_iff.mp hstep
      exact .inr ⟨index, env, rfl, hbooks⟩

variable (cfg)

/-- Where the step changes the table of the books, it is that of a request whose own token was made for a
login with an admin's row, not more than an hour before it was checked. -/
def ChangedByAdmin (past : Past) (s : Platform) (move : PlatformMove) (s' : Platform) : Prop :=
  s'.books.store.books ≠ s.books.store.books →
    ∃ index env t, ∃ row : UserService.User, move = .book index env ∧ s.books.threads[index]? = some t ∧
      t.request.user = row.tokenUser.verified ∧ row.role = .admin ∧ Believed cfg past index row

/-- A service that has been let in after the step knows the secret, and its own token was made for the
book service not more than five minutes before it was checked; it is no token that was made for a
login. -/
def LetInWithSecret (past : Past) (s : Platform) (move : PlatformMove) (s' : Platform) : Prop :=
  ∀ (index : Nat) t, s'.auth.threads[index]? = some t → ∀ token result, t.request = .service token →
    t.code = .done (.ok result) → BelievedService cfg (past ++ [(s, move)]) index token ∧
      ∀ jwt row made, cfg.token token = some jwt → ¬ MadeFor cfg (past ++ [(s, move)]) jwt row made

variable {cfg}

theorem changedByAdmin_step (past : Past) (s : Platform) (move : PlatformMove) (s' : Platform)
    (h : Inv cfg past s) (hstep : (Platform.machine cfg).step s move = some s') :
    ChangedByAdmin cfg past s move s' := by
  intro hchanged
  obtain hsame | ⟨index, env, rfl, hbooks⟩ := store_step hstep
  · exact absurd (congrArg BookService.Store.books hsame) hchanged
  obtain ⟨t, op, resume, ht, hcode, hresult⟩ := BookService.service.step_resume hbooks
  have hmem := List.mem_of_getElem? ht
  have hadmin := h.admins t hmem
  rw [AdminOnly, hcode] at hadmin
  have hwrites : op.writes = true := by
    obtain hsame | ⟨title, author, -, rfl, -⟩ | ⟨id, rfl, -⟩ :=
      BookService.exec_books s.books.store op env
    · rw [hresult] at hchanged
      exact absurd hsame hchanged
    · rfl
    · rfl
  obtain ⟨row, huser, hbelieved⟩ := h.believed index t ht
  refine ⟨index, env, t, row, rfl, ht, huser, ?_, hbelieved⟩
  have hlabel : row.role.label = "admin" := by
    have hrole := hadmin.1 hwrites
    rw [huser] at hrole
    exact eq_of_beq hrole
  cases hrole : row.role with
  | admin => rfl
  | _ =>
      rw [hrole] at hlabel
      exact absurd hlabel (by decide)

/-- Whoever changes the books has logged in with the row of an admin, and the token that was made for it
was checked within the hour after that: a row that loses its role afterwards is let in with that token
for an hour at most. -/
theorem books_changedByAdmin (hcfg : cfg.Verifies) (users : UsersTable) (clock : Int) (key : RsaKey)
    (books : BooksTable) (moves : List PlatformMove) :
    (Platform.machine cfg).EachPast (ChangedByAdmin cfg) [] (Platform.start users clock key books) moves :=
  Machine.eachPast_of_invariant (inv_step hcfg) changedByAdmin_step (inv_start users clock key books) moves

/-- The snapshot of the books is for services that know the secret, and for no user. -/
theorem services_letInWithSecret (hcfg : cfg.Verifies) (users : UsersTable) (clock : Int) (key : RsaKey)
    (books : BooksTable) (moves : List PlatformMove) :
    (Platform.machine cfg).EachPast (LetInWithSecret cfg) [] (Platform.start users clock key books) moves :=
  Machine.eachPast_of_invariant (inv_step hcfg)
    (fun past s move s' h hstep _ _ ht _ _ hrequest hcode =>
      (inv_step hcfg past s move s' h hstep).believed_of_service hcfg ht hrequest hcode)
    (inv_start users clock key books) moves

end Platform

/-! ### A setting -/

def textSetting : Setting (Nat × Nat) where
  runtime := UserService.plain
  python := Auth.textPython
  token := Jwt.ofText
  writeToken := Jwt.text
  issuer := none
  audience := some "hub"
  sharedSecret := some "secret"
  statusText := toString

theorem textSetting_verifies : textSetting.Verifies where
  written service claims expires := by
    have htoken : textSetting.token = Jwt.ofText := rfl
    have hwrite : textSetting.writeToken = Jwt.text := rfl
    rw [htoken, hwrite]
    exact Jwt.ofText_text _ (Auth.wellFormed_sign service claims expires)
  accepted token publicKey now payload h := by
    obtain ⟨jwt, hjwt, hkey, hpayload, hexpires⟩ := Auth.decodeText_ok h
    exact ⟨jwt, hjwt, (Auth.buildRsaKey_textPython jwt.key).trans hkey, hpayload, hexpires⟩

def textKey : RsaKey := ⟨"k1", "Dw", "Aw", by decide⟩

/-- Ada and Eve, and no books yet. -/
def textStart : Platform := Platform.start UserService.adaAndEve 0 textKey Table.empty

def textService : TokenService := ⟨textKey, none, some "hub"⟩

/-- Ada logs in and adds a book, in the last second that her token is good for; the review service gets a
token too, and is let in. -/
def adaAdds : List PlatformMove :=
  [.verify (.string "ada@books.org") (.string "lovelace") .calm, .mint 0, .auth (.tick 3600),
    .serviceToken (.string "review-service") (.string "book-service") (.string "secret"),
    .auth (.serve (.arrive (.user .book (textService.generateUserToken 0 UserService.ada.tokenUser).text))),
    .auth (.serve (.arrive (.service
      (textService.generateServiceToken 3600 "review-service" "book-service").text)))] ++
  List.replicate 6 (.auth (.serve (.resume 0 none))) ++
  List.replicate 3 (.auth (.serve (.resume 1 none))) ++
  [.enter 0 (.create ⟨"Emma", "Austen"⟩), .book 0 .calm]

/-- This request is one of a service, and has been let in. -/
def Platform.letIn (s : Platform) (index : Nat) : Bool :=
  match s.auth.threads[index]? with
  | some ⟨.service _, _, .done (.ok _)⟩ => true
  | _ => false

theorem run_adaAdds : ∃ s, (Platform.machine textSetting).run textStart adaAdds = some s ∧
    s.books.store.books.rows.length = 1 ∧ s.letIn 1 = true := by
  have hends : ((Platform.machine textSetting).run textStart adaAdds).map (fun s =>
      (s.books.store.books.rows.length, s.letIn 1)) = some (1, true) := by
    decide +kernel
  obtain ⟨s, hrun, hs⟩ := Option.map_eq_some_iff.mp hends
  exact ⟨s, hrun, congrArg Prod.fst hs, congrArg Prod.snd hs⟩

theorem books_changedByAdmin_adaAdds :
    (∃ s, (Platform.machine textSetting).run textStart adaAdds = some s ∧
      s.books.store.books.rows.length = 1) ∧
    (Platform.machine textSetting).EachPast (ChangedByAdmin textSetting) [] textStart adaAdds := by
  obtain ⟨s, hrun, hrows, -⟩ := run_adaAdds
  exact ⟨⟨s, hrun, hrows⟩, books_changedByAdmin textSetting_verifies _ _ _ _ _⟩

theorem services_letInWithSecret_adaAdds :
    (∃ s, (Platform.machine textSetting).run textStart adaAdds = some s ∧ s.letIn 1 = true) ∧
    (Platform.machine textSetting).EachPast (LetInWithSecret textSetting) [] textStart adaAdds := by
  obtain ⟨s, hrun, -, hletIn⟩ := run_adaAdds
  exact ⟨⟨s, hrun, hletIn⟩, services_letInWithSecret textSetting_verifies _ _ _ _ _⟩

end BookHub
