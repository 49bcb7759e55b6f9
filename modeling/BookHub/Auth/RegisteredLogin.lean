import BookHub.Auth.Login
import BookHub.UserService.Passwords

/-!
# What is registered can log in

Two services judge the same credentials. `POST /register` and `POST /user/passwordChange` of the user
service store what bcrypt and the columns take; `POST /login` of the auth service refuses blank
credentials before it asks. So a registration or a password change may report a success for
credentials that can never log in.
-/

namespace BookHub.Auth

open UserService (UserPool UserMove UserThread UserEvent updating credentials KeepsCredentials
  EmailsUnique)

/-! ### Which credentials log in -/

/-- The login takes these credentials, and the column stores the email as it is. -/
def Usable (email password : JsValue) : Prop :=
  ∃ email' password', email = .string email' ∧ password = .string password' ∧
    isNullOrWhiteSpace email'.toList = false ∧ isNullOrWhiteSpace password'.toList = false ∧
    UserService.varchar email' = some email'

/-- The write that the password change waits for makes the new password that of the row, and the login
takes the credentials: the row is still there, and the hash is not left out of the write as the loaded
one, unless the row has a hash of the new password anyway. -/
def TakesEffect (rt : UserService.Runtime) (p : UserPool) (index : Nat) (newPassword : JsValue) : Prop :=
  ∃ t ∈ p.threads[index]?, ∃ user values row password, updating t = some (user, values) ∧
    p.store.find? user.id = some row ∧ newPassword = .string password ∧
    isNullOrWhiteSpace row.email.toList = false ∧ isNullOrWhiteSpace password.toList = false ∧
    (values.password ≠ .string user.password ∨ rt.compareSync password row.password = true)

/-- The hashes that a request has got fit into their column. -/
def HashesFit (t : UserThread) : Prop :=
  ∀ data hash, (⟨.hash data, .ok hash⟩ : UserEvent) ∈ t.trace → UserService.varchar hash = some hash

section Successes

variable {rt : UserService.Runtime} {p p' q : UserPool} {index : Nat} {env : UserService.UserEnv}
  {t : UserThread} {response : UserService.Response} {password : String} {salt : Nat}
  {user : UserService.User} {later : List UserMove}

/-- What a run that keeps the credentials leaves of them. -/
theorem credentials_later {id : Nat} (hlater : (UserService.service rt).machine.run p' later = some q)
    (hkeeps : (UserService.service rt).machine.Each (KeepsCredentials id) p' later) :
    credentials q.store id = credentials p'.store id :=
  Machine.eq_of_each (f := fun p : UserPool => credentials p.store id) hkeeps hlater

theorem registered_logsIn_iff
    (hbcrypt : ∀ password other salt,
      rt.compareSync password (rt.bcryptHash other salt) = true ↔ password = other)
    (h : UserService.Registered rt t.request t.trace response password salt user)
    (hfits : HashesFit t)
    (hstep : (UserService.service rt).machine.step p (.resume index env) = some p')
    (ht : p'.threads[index]? = some t) (hunique : EmailsUnique q.store)
    (hkept : credentials q.store user.id = credentials p'.store user.id)
    {env' : UserService.UserEnv} (hraises : env'.raises = false) (service : TokenService) (now : Int)
    (statusText : Nat → String) :
    LogsIn rt service now statusText q.store env' user.id (t.request.body.property "email")
        (t.request.body.property "password") ↔
      Usable (t.request.body.property "email") (t.request.body.property "password") := by
  obtain ⟨hemail, hstored, hcredentials⟩ := h.stored hstep ht
  have hhash : UserService.varchar (rt.bcryptHash password salt) = some (rt.bcryptHash password salt) := by
    apply hfits (.string password)
    rw [h.trace]
    exact List.mem_append_left _ (List.mem_singleton_self _)
  have hsame : user.password = rt.bcryptHash password salt :=
    Option.some.inj (hstored.symm.trans hhash)
  rw [logsIn_iff hraises hunique, hkept, hcredentials, h.given, hsame]
  constructor
  · intro hlogin
    obtain ⟨email', password', hash, hgiven, hpassword, hblank, hblank', hrow, -⟩ := hlogin
    refine ⟨email', password', hgiven, hpassword, hblank, hblank', ?_⟩
    rw [hgiven, (Prod.mk.inj (Option.some.inj hrow)).1] at hemail
    exact hemail
  · intro husable
    obtain ⟨email', password', hgiven, hpassword, hblank, hblank', hfit⟩ := husable
    have hrow : user.email = email' := by
      rw [hgiven] at hemail
      exact Option.some.inj (hemail.symm.trans hfit)
    refine ⟨email', password', rt.bcryptHash password salt, hgiven, hpassword, hblank, hblank', ?_, ?_⟩
    · rw [hrow]
    · exact (hbcrypt password' password salt).mpr (JsValue.string.inj hpassword).symm

theorem passwordChanged_logsIn_iff
    (hbcrypt : ∀ password other salt,
      rt.compareSync password (rt.bcryptHash other salt) = true ↔ password = other)
    (h : UserService.PasswordChanged rt t.request t.trace response password salt user)
    (hfits : HashesFit t)
    (hstep : (UserService.service rt).machine.step p (.resume index env) = some p')
    (ht : p'.threads[index]? = some t) (hunique : EmailsUnique q.store)
    (hkept : credentials q.store user.id = credentials p'.store user.id)
    {env' : UserService.UserEnv} (hraises : env'.raises = false) (service : TokenService) (now : Int)
    (statusText : Nat → String) :
    (∃ row, q.store.find? user.id = some row ∧
        LogsIn rt service now statusText q.store env' user.id (.string row.email)
          (t.request.body.property "newPassword")) ↔
      TakesEffect rt p index (t.request.body.property "newPassword") := by
  obtain ⟨sub, htrace⟩ := h.trace
  obtain ⟨-, t₀, resume, ht₀, hcode⟩ := (UserService.service rt).exec_of_resume hstep ht htrace
  have hupdating : updating t₀ = some (user, { password := .string (rt.bcryptHash password salt) }) := by
    simp only [updating, hcode]
  have hhash : UserService.varchar (rt.bcryptHash password salt) = some (rt.bcryptHash password salt) := by
    apply hfits (.string password)
    rw [htrace]
    exact List.mem_append_left _ (List.mem_cons_of_mem _ (List.mem_singleton_self _))
  have hstored := h.stored hhash hstep ht
  rw [h.given]
  constructor
  · intro hlogin
    obtain ⟨row, hrow, hlogin⟩ := hlogin
    rw [logsIn_iff hraises hunique] at hlogin
    obtain ⟨email, password', hash, hemail, hpassword, hblank, hblank', hcredentials, hverified⟩ := hlogin
    cases hpassword
    rw [hkept, hstored] at hcredentials
    obtain ⟨row₀, hrow₀, hpair⟩ := Option.map_eq_some_iff.mp hcredentials
    cases hpair
    refine ⟨t₀, ht₀, user, _, row₀, password, hupdating, hrow₀, rfl, hblank, hblank', ?_⟩
    by_cases hsame : rt.bcryptHash password salt = user.password
    · rw [if_pos hsame] at hverified
      exact .inr hverified
    · exact .inl fun heq => hsame (JsValue.string.inj heq)
  · intro heffect
    obtain ⟨t₁, ht₁, user₁, values, row₀, password', hupdating₁, hrow₀, hpassword, hblank, hblank',
      hwritten⟩ := heffect
    cases ht₀.symm.trans ht₁
    cases hupdating.symm.trans hupdating₁
    cases hpassword
    rw [hrow₀, Option.map_some] at hstored
    obtain ⟨row, hrow, hpair⟩ := Option.map_eq_some_iff.mp (hkept.trans hstored)
    have hemail : row.email = row₀.email := (Prod.mk.inj hpair).1
    refine ⟨row, hrow, (logsIn_iff hraises hunique ..).mpr ⟨row.email, password, row.password, rfl, rfl,
      ?_, hblank', ?_, ?_⟩⟩
    · rw [hemail]
      exact hblank
    · rw [credentials, hrow]
      rfl
    · rw [(Prod.mk.inj hpair).2]
      split
      · rename_i hsame
        obtain hne | hverified := hwritten
        · exact absurd (congrArg JsValue.string hsame) hne
        · exact hverified
      · exact (hbcrypt password password salt).mpr rfl

end Successes

/-- In every run of the user service, from any table: when a registration answers 201, the login with
its email and password gets a token of the new row after every later run that keeps the row's
credentials, if and only if they are usable; and when a password change reports a success, so does the
login with the new password, if and only if the write takes effect. -/
theorem given_credentials_logIn_iff (rt : UserService.Runtime)
    (hbcrypt : ∀ password other salt,
      rt.compareSync password (rt.bcryptHash other salt) = true ↔ password = other)
    (service : TokenService) (now : Int) (statusText : Nat → String) (users : UserService.UsersTable)
    (hunique : EmailsUnique users) (moves : List UserMove) (p : UserPool)
    (hrun : (UserService.service rt).machine.run (Service.start users) moves = some p)
    (index : Nat) (env : UserService.UserEnv) (p' : UserPool)
    (hstep : (UserService.service rt).machine.step p (.resume index env) = some p')
    (t : UserThread) (ht : p'.threads[index]? = some t) (hfits : HashesFit t)
    (response : UserService.Response) (hcode : t.code = .done (.ok response)) :
    (t.request.route = .registerUser → response.status = 201 →
      ∃ id, response.body.property "id" = .ofNat id ∧ ∀ later q,
        (UserService.service rt).machine.run p' later = some q →
        (UserService.service rt).machine.Each (KeepsCredentials id) p' later →
        ∀ env' : UserService.UserEnv, env'.raises = false →
          (LogsIn rt service now statusText q.store env' id (t.request.body.property "email")
              (t.request.body.property "password") ↔
            Usable (t.request.body.property "email") (t.request.body.property "password"))) ∧
    (t.request.route = .passwordChangeMine → response.status = 200 →
      ∃ id, response.body.property "data" = .ofNat id ∧ ∀ later q,
        (UserService.service rt).machine.run p' later = some q →
        (UserService.service rt).machine.Each (KeepsCredentials id) p' later →
        ∀ env' : UserService.UserEnv, env'.raises = false →
          ((∃ row, q.store.find? id = some row ∧
              LogsIn rt service now statusText q.store env' id (.string row.email)
                (t.request.body.property "newPassword")) ↔
            TakesEffect rt p index (t.request.body.property "newPassword"))) := by
  have hgives := UserService.givesCredentials_of_step hrun hstep (List.mem_of_getElem? ht) hcode
    response rfl
  have hunique' : EmailsUnique p'.store :=
    UserService.emailsUnique_step p _ p' (UserService.emailsUnique_run hunique hrun) hstep
  constructor
  · intro hroute hstatus
    obtain ⟨password, salt, user, h⟩ := hgives.1 hroute hstatus
    refine ⟨user.id, by rw [h.response]; rfl, fun later q hlater hkeeps env' hraises => ?_⟩
    exact registered_logsIn_iff hbcrypt h hfits hstep ht (UserService.emailsUnique_run hunique' hlater)
      (credentials_later hlater hkeeps) hraises service now statusText
  · intro hroute hstatus
    obtain ⟨password, salt, user, h⟩ := hgives.2 hroute hstatus
    refine ⟨user.id, by rw [h.response]; rfl, fun later q hlater hkeeps env' hraises => ?_⟩
    exact passwordChanged_logsIn_iff hbcrypt h hfits hstep ht
      (UserService.emailsUnique_run hunique' hlater) (credentials_later hlater hkeeps) hraises service
      now statusText

/-! ### A registration with a blank password -/

theorem plain_compareSync (password other : String) (salt : Nat) :
    UserService.plain.compareSync password (UserService.plain.bcryptHash other salt) = true ↔
      password = other := by
  have hdigits : ∀ c ∈ (toString salt).toList, (c != '$') = true := by
    intro c hc
    have hdigit : c.isDigit = true := Nat.isDigit_of_mem_toDigits (by decide) (by decide)
      (Nat.toList_repr ▸ hc)
    rw [bne_iff_ne]
    intro hdollar
    rw [hdollar] at hdigit
    exact absurd hdigit (by decide)
  show ((toString salt ++ "$" ++ other).toList.dropWhile (· != '$')).drop 1 == password.toList ↔ _
  rw [String.toList_append, String.toList_append, List.append_assoc,
    List.dropWhile_append_of_pos hdigits]
  show (other.toList == password.toList) = true ↔ _
  rw [beq_iff_eq, String.toList_inj]
  exact eq_comm

def registration (password : String) : UserService.Request :=
  ⟨.registerUser, .missing, .object [("name", .string "Lin"), ("email", .string "lin@books.org"),
    ("password", .string password)]⟩

/-- A registration up to its write. -/
def untilWrite (password : String) : List UserMove :=
  [.arrive (registration password), .resume 0 .calm]

def issuer : TokenService := ⟨⟨"kid-login", "6NbKYWM", "AQAB", by decide⟩, some "http://localhost:8001", none⟩

theorem emailsUnique_adaAndEve : EmailsUnique UserService.adaAndEve := by
  unfold EmailsUnique
  decide

theorem ofNat_inj {m n : Nat} (h : JsValue.ofNat m = .ofNat n) : m = n := by
  have hfinite := JsNumber.finite.inj (JsValue.number.inj h)
  exact_mod_cast hfinite

theorem hashesFit_registration {password hash : String}
    (h : UserService.varchar hash = some hash) (values : UserService.NewUser)
    (user : UserService.User) (code : UserService.UserM UserService.Response) :
    HashesFit ⟨registration password, [⟨.hash (.string password), .ok hash⟩,
      ⟨.create values, .ok user⟩], code⟩ := by
  intro data other hmem
  obtain heq | hmem := List.mem_cons.mp hmem
  · cases heq
    exact h
  · cases List.mem_singleton.mp hmem

/-- Eve's password change up to its write. -/
def untilUpdate : List UserMove :=
  [.arrive UserService.passwordChange, .resume 0 .calm, .resume 0 .calm]

/-- Eve changes her password later, and somebody registers later. -/
def changeLater : List UserMove :=
  [.arrive UserService.passwordChange, .resume 1 .calm, .resume 1 .calm, .resume 1 .calm]

def registerLater : List UserMove :=
  [.arrive (registration "meadow"), .resume 1 .calm, .resume 1 .calm]

theorem hashesFit_change {sub : JsValue} {found : Option UserService.User} {hash : String}
    (h : UserService.varchar hash = some hash) (user : UserService.User) (values : UserService.UserValues)
    (code : UserService.UserM UserService.Response) :
    HashesFit ⟨UserService.passwordChange, [⟨.findByPk sub, .ok found⟩,
      ⟨.hash (.string "newer"), .ok hash⟩, ⟨.update user values, .ok ()⟩], code⟩ := by
  intro data other hmem
  obtain heq | hmem := List.mem_cons.mp hmem
  · cases heq
  · obtain heq | hmem := List.mem_cons.mp hmem
    · cases heq
      exact h
    · cases List.mem_singleton.mp hmem

theorem given_credentials_logIn_iff_meadow :
    (∃ p p' q, (UserService.service UserService.plain).machine.run
        (Service.start UserService.adaAndEve) (untilWrite "meadow") = some p ∧
      (UserService.service UserService.plain).machine.step p (.resume 0 .calm) = some p' ∧
      (UserService.service UserService.plain).machine.run p' changeLater = some q ∧
      LogsIn UserService.plain issuer 0 toString q.store .calm 3 (.string "lin@books.org")
        (.string "meadow")) ∧
    (∃ p p' q row, (UserService.service UserService.plain).machine.run
        (Service.start UserService.adaAndEve) untilUpdate = some p ∧
      (UserService.service UserService.plain).machine.step p (.resume 0 .calm) = some p' ∧
      (UserService.service UserService.plain).machine.run p' registerLater = some q ∧
      q.store.find? 2 = some row ∧
      LogsIn UserService.plain issuer 0 toString q.store .calm 2 (.string row.email)
        (.string "newer")) := by
  constructor
  · refine ⟨_, _, _, rfl, rfl, rfl, ?_⟩
    obtain ⟨hregister, -⟩ := given_credentials_logIn_iff UserService.plain plain_compareSync issuer 0
      toString UserService.adaAndEve emailsUnique_adaAndEve (untilWrite "meadow") _ rfl 0 .calm _ rfl
      _ rfl (hashesFit_registration (by decide) _ _ _) _ rfl
    obtain ⟨id, hid, hlogin⟩ := hregister rfl rfl
    have heq : id = 3 := ofNat_inj hid.symm
    rw [heq] at hlogin
    exact (hlogin changeLater _ rfl (by decide +kernel) .calm rfl).mpr
      ⟨"lin@books.org", "meadow", rfl, rfl, by decide, by decide, by decide⟩
  · refine ⟨_, _, _, _, rfl, rfl, rfl, rfl, ?_⟩
    obtain ⟨-, hchange⟩ := given_credentials_logIn_iff UserService.plain plain_compareSync issuer 0
      toString UserService.adaAndEve emailsUnique_adaAndEve untilUpdate _ rfl 0 .calm _ rfl _ rfl
      (hashesFit_change (by decide) _ _ _) _ rfl
    obtain ⟨id, hid, hlogin⟩ := hchange rfl rfl
    have heq : id = 2 := ofNat_inj hid.symm
    rw [heq] at hlogin
    obtain ⟨row, hrow, hlogsIn⟩ := (hlogin registerLater _ rfl (by decide +kernel) .calm rfl).mpr
      ⟨_, rfl, _, _, UserService.eve, "newer", rfl, rfl, rfl, by decide, by decide, .inl (by decide)⟩
    cases hrow
    exact hlogsIn

/-- A registration with a blank password answers 201, and its credentials do not log in. -/
theorem not_registered_logIn : ¬ ∀ (rt : UserService.Runtime)
    (_ : ∀ password other salt,
      rt.compareSync password (rt.bcryptHash other salt) = true ↔ password = other)
    (service : TokenService) (now : Int) (statusText : Nat → String) (users : UserService.UsersTable)
    (_ : EmailsUnique users) (moves : List UserMove) (p : UserPool)
    (_ : (UserService.service rt).machine.run (Service.start users) moves = some p)
    (index : Nat) (env : UserService.UserEnv) (p' : UserPool)
    (_ : (UserService.service rt).machine.step p (.resume index env) = some p')
    (t : UserThread) (_ : p'.threads[index]? = some t) (_ : HashesFit t)
    (response : UserService.Response) (_ : t.code = .done (.ok response)),
    t.request.route = .registerUser → response.status = 201 →
      ∃ id, response.body.property "id" = .ofNat id ∧ ∀ later q,
        (UserService.service rt).machine.run p' later = some q →
        (UserService.service rt).machine.Each (KeepsCredentials id) p' later →
        ∀ env' : UserService.UserEnv, env'.raises = false →
          LogsIn rt service now statusText q.store env' id (t.request.body.property "email")
            (t.request.body.property "password") := by
  intro h
  obtain ⟨id, -, hlogin⟩ := h UserService.plain plain_compareSync issuer 0 toString
    UserService.adaAndEve emailsUnique_adaAndEve (untilWrite " ") _ rfl 0 .calm _ rfl _ rfl
    (hashesFit_registration (by decide) _ _ _) _ rfl rfl rfl
  obtain ⟨token, row, hrefused, -⟩ := hlogin [] _ rfl trivial .calm rfl
  cases hrefused

end BookHub.Auth
