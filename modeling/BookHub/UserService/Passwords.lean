import BookHub.UserService.Roles

/-!
# Who replaces a password

`POST /user/passwordChange` verifies the current password against the hash it has loaded, waits for
the new hash and writes it, whatever the row's hash is by then. As long as no hash is written over
that is not the one the request has loaded, a hash is replaced only by a request that proves the
password behind it, or by an admin's reset.
-/

namespace BookHub.UserService

variable {rt : Runtime}

/-- The instance and the values of the update that a thread waits for. -/
def updating (t : UserThread) : Option (User × UserValues) :=
  match t.code with
  | .await (.update user values) _ => some (user, values)
  | _ => none

/-- When a password change is about to write, the stored hash is still the one it has loaded. -/
def HashStillLoaded (p : UserPool) : UserMove → Prop
  | .arrive _ => True
  | .resume index _ => ∀ t ∈ p.threads[index]?, t.request.route = .passwordChangeMine →
      ∀ update ∈ updating t, ∀ row ∈ p.store.rows, row.id = update.1.id →
        row.password = update.1.password

instance (p : UserPool) : (move : UserMove) → Decidable (HashStillLoaded p move)
  | .arrive _ => .isTrue trivial
  | .resume index _ => inferInstanceAs (Decidable (∀ t ∈ p.threads[index]?, _))

/-- The request is an admin's reset of the row with this id, or a password change of the row's own
user that repeats the new password and proves the password behind the hash. -/
def Entitled (rt : Runtime) (request : Request) (id : Nat) (hash : String) : Prop :=
  (request.route = .passwordReset ∧ request.token.role? = some Role.admin.label ∧
      Denotes rt (request.body.property "id") id) ∨
    (request.route = .passwordChangeMine ∧ ∃ claims password, request.token = .verified claims ∧
      Denotes rt claims.subValue id ∧
      rt.looseEq? (request.body.property "newPassword")
        (request.body.property "newPasswordRepeat") = some true ∧
      request.body.property "password" = .string password ∧ rt.compareSync password hash = true)

/-- The step, if it replaces the hash of a row, is one of a request entitled to replace that hash. -/
def ReplacedByEntitled (rt : Runtime) (p : UserPool) (move : UserMove) (p' : UserPool) : Prop :=
  ∀ row ∈ p.store.rows, ∀ row' ∈ p'.store.rows, row'.id = row.id → row'.password ≠ row.password →
    ∃ index env t, move = .resume index env ∧ p.threads[index]? = some t ∧
      Entitled rt t.request row.id row.password

theorem written_undefined {τ : Type} {column : JsValue → Option τ} {loaded : String}
    {new : Option τ} (h : written column loaded .undefined = some new) : new = none :=
  (Option.some.inj h).symm

/-- An operation replaces the hash of a row only by an update of that row with a password. -/
theorem exec_replaces {users : UsersTable} {op : UserOp} {env : UserEnv} {row row' : User}
    (hrow : row ∈ users.rows) (h : row' ∈ (exec rt users op env).2.rows) (hid : row'.id = row.id)
    (hpassword : row'.password ≠ row.password) :
    ∃ user values, op = .update user values ∧ user.id = row.id ∧ values.password ≠ .undefined := by
  rcases mem_exec h with hold | ⟨values, -, hnext, -⟩ |
    ⟨user, values, name, password, role, rfl, hwritten, -, row₀, hrow₀, hid₀, rfl⟩
  · rw [Table.mem_rows_unique hold hrow hid] at hpassword
    exact absurd rfl hpassword
  · have hlt := users.fresh row hrow
    omega
  · have hsame : row₀ = row := Table.mem_rows_unique hrow₀ hrow hid
    refine ⟨user, values, rfl, hid₀.symm.trans hid, fun hundefined => ?_⟩
    rw [hundefined] at hwritten
    rw [written_undefined hwritten, hsame] at hpassword
    exact hpassword rfl

/-- A request that writes a password is entitled to replace the hash it has loaded. -/
theorem Issued.entitled {request : Request} {trace : List UserEvent} {user : User}
    {values : UserValues} (h : Issued rt request trace (.update user values))
    (hpassword : values.password ≠ .undefined) : Entitled rt request user.id user.password := by
  cases h with
  | read trace op hreads => cases hreads
  | updateMine claims user hroute hauth hfound => exact absurd rfl hpassword
  | updateById claims user hroute hauth hfound => exact absurd rfl hpassword
  | passwordChangeMine claims user password hash hroute hauth hfound hrepeated hcurrent hverified =>
      exact .inr ⟨hroute, claims, password, hauth.token, hfound, hrepeated, hcurrent, hverified⟩
  | passwordReset claims user hash hroute hauth hfound =>
      exact .inl ⟨hroute, hauth.role?_of_admin, hfound⟩

theorem Entitled.of_reset_or_hash {request : Request} {id : Nat} {hash hash' : String}
    (h : Entitled rt request id hash)
    (hhash : request.route = .passwordChangeMine → hash' = hash) : Entitled rt request id hash' := by
  obtain hreset | ⟨hroute, hchange⟩ := h
  · exact .inl hreset
  · rw [hhash hroute]
    exact .inr ⟨hroute, hchange⟩

theorem replacedByEntitled_of_justified (p : UserPool) (move : UserMove) (p' : UserPool)
    (hjust : Service.Justified (Honest rt) (Issued rt) p) (hloaded : HashStillLoaded p move)
    (hstep : (service rt).machine.step p move = some p') : ReplacedByEntitled rt p move p' := by
  intro row hrow row' hrow' hid hpassword
  cases move with
  | arrive request =>
      obtain ⟨-, rfl⟩ := (service rt).step_arrive hstep
      rw [Table.mem_rows_unique hrow' hrow hid] at hpassword
      exact absurd rfl hpassword
  | resume index env =>
      obtain ⟨t, op, resume, ht, hcode, rfl⟩ := (service rt).step_resume hstep
      obtain ⟨user, values, rfl, huser, hwrites⟩ := exec_replaces hrow hrow' hid hpassword
      have hissued := hjust.issued_of_await (List.mem_of_getElem? ht) hcode
      have hupdating : updating t = some (user, values) := by
        simp only [updating, hcode]
      refine ⟨index, env, t, rfl, ht, ?_⟩
      rw [← huser]
      apply (hissued.entitled hwrites).of_reset_or_hash
      intro hroute
      exact hloaded t ht hroute (user, values) hupdating row hrow huser.symm

/-- In every run of the service, from any table, in which every password change writes over the hash
it has loaded, every step that replaces a hash is one of a request entitled to replace it. -/
theorem replaced_by_entitled (rt : Runtime) (users : UsersTable) (moves : List UserMove)
    (hloaded : (service rt).machine.Meets HashStillLoaded (Service.start users) moves) :
    (service rt).machine.Each (ReplacedByEntitled rt) (Service.start users) moves := by
  apply Machine.each_of_meets _ replacedByEntitled_of_justified (Service.justified_start users) hloaded
  intro p move p' hjust _ hstep
  exact (service rt).justified_step (honest_exec rt) (issues_handler rt) p move p' hjust hstep

/-- Eve changes her password. -/
def passwordChange : Request :=
  ⟨.passwordChangeMine, eve.token, .object [("password", .string "secret"),
    ("newPassword", .string "newer"), ("newPasswordRepeat", .string "newer")]⟩

def changeAlone : List UserMove :=
  [.arrive passwordChange, .resume 0 .calm, .resume 0 .calm, .resume 0 .calm]

theorem replaced_by_entitled_changeAlone :
    (∃ p, (service plain).machine.run (Service.start adaAndEve) changeAlone = some p ∧
      p.store.rows.map User.password = ["17$lovelace", "17$newer"]) ∧
    (service plain).machine.Each (ReplacedByEntitled plain) (Service.start adaAndEve) changeAlone :=
  ⟨⟨_, rfl, by decide⟩, replaced_by_entitled plain adaAndEve changeAlone (by decide)⟩

/-- Ada resets Eve's password. -/
def reset : Request := ⟨.passwordReset, ada.token, .object [("id", .ofNat 2)]⟩

/-- The reset runs between the check and the write of the change. -/
def resetInBetween : List UserMove :=
  [.arrive passwordChange, .resume 0 .calm, .arrive reset, .resume 1 .calm, .resume 1 .calm,
    .resume 1 .calm, .resume 0 .calm, .resume 0 .calm]

theorem not_replaced_by_entitled : ¬ ∀ (rt : Runtime) (users : UsersTable) (moves : List UserMove),
    (service rt).machine.Each (ReplacedByEntitled rt) (Service.start users) moves := by
  intro h
  have heach := h plain adaAndEve resetInBetween
  have hchecked := ((((heach _ rfl).2 _ rfl).2 _ rfl).2 _ rfl).2
  have hlast := ((((hchecked _ rfl).2 _ rfl).2 _ rfl).2 _ rfl).1
  obtain ⟨index, env, t, hmove, ht, hentitled⟩ := hlast
    { eve with password := "17$1234", updatedAt := 1700000000000 } (by decide)
    { eve with password := "17$newer", updatedAt := 1700000000000 } (by decide) rfl (by decide)
  cases hmove
  cases ht
  obtain ⟨hroute, -⟩ | ⟨-, claims, password, -, -, -, hpassword, hverified⟩ := hentitled
  · cases hroute
  · cases hpassword
    revert hverified
    decide

end BookHub.UserService
