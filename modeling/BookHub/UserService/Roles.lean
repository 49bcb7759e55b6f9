import BookHub.UserService.Issued

/-!
# Who becomes an admin

Three routes write the role of a row: `POST /register`, `PUT /user` and `PUT /`. Each passes the role
of the body through to the table, and only the last asks for the token of an admin. As long as no
request brings the role `admin` through one of the first two, a row becomes an admin's only by a
request of an admin.
-/

namespace BookHub.UserService

variable {rt : Runtime}

/-- The role that a verified token carries. -/
def Token.role? : Token → Option String
  | verified claims => claims.role
  | _ => none

/-- A route that passes the role of the body on reaches its handler without an admin's token. -/
def PassesRole (request : Request) : Prop :=
  (request.route = .registerUser ∧ request.token.role? ≠ some Role.admin.label) ∨
    (request.route = .updateMine ∧ request.token.role? = some Role.user.label)

/-- The request asks for the role of an admin on such a route. -/
def AsksForAdmin (request : Request) : Prop :=
  PassesRole request ∧ request.body.property "role" = .string Role.admin.label

/-- No request arrives that asks for it. -/
def NoAdminRoleAsked : UserPool → UserMove → Prop
  | _, .arrive request => ¬ AsksForAdmin request
  | _, .resume _ _ => True

instance (request : Request) : Decidable (PassesRole request) :=
  inferInstanceAs (Decidable (_ ∨ _))

instance (request : Request) : Decidable (AsksForAdmin request) :=
  inferInstanceAs (Decidable (_ ∧ _))

instance (p : UserPool) : (move : UserMove) → Decidable (NoAdminRoleAsked p move)
  | .arrive request => inferInstanceAs (Decidable (¬ AsksForAdmin request))
  | .resume _ _ => .isTrue trivial

/-- The step, if it makes the role of a row become `admin`, is one of a request whose token is an
admin's. -/
def PromotedByAdmin (p : UserPool) (move : UserMove) (p' : UserPool) : Prop :=
  ∀ row' ∈ p'.store.rows, row'.role = .admin →
    (∀ row ∈ p.store.rows, row.id = row'.id → row.role ≠ .admin) →
      ∃ index env t, move = .resume index env ∧ p.threads[index]? = some t ∧
        t.request.token.role? = some Role.admin.label

theorem roleColumn_eq_some {value : JsValue} {r : Role} (h : roleColumn value = some r) :
    value = .string r.label := by
  cases value with
  | string label =>
      have hlabel := List.find?_some h
      rw [beq_iff_eq.mp hlabel]
  | _ => cases h

theorem newRole_eq_admin {value : JsValue} (h : newRole value = some .admin) :
    value = .string Role.admin.label := by
  cases value with
  | undefined => cases h
  | _ => exact roleColumn_eq_some h

theorem written_eq_some {τ : Type} {column : JsValue → Option τ} {loaded : String} {value : JsValue}
    {new : τ} (h : written column loaded value = some (some new)) : column value = some new := by
  unfold written at h
  split at h
  · obtain ⟨stored, hstored, heq⟩ := Option.map_eq_some_iff.mp h
    rw [hstored, heq]
  · cases h

/-- An operation makes the role of a row become `admin` only by writing that role. -/
theorem exec_promotes {users : UsersTable} {op : UserOp} {env : UserEnv} {row' : User}
    (h : row' ∈ (exec rt users op env).2.rows) (hadmin : row'.role = .admin)
    (hnew : ∀ row ∈ users.rows, row.id = row'.id → row.role ≠ .admin) :
    (∃ values, op = .create values ∧ values.role = .string Role.admin.label) ∨
      ∃ user values, op = .update user values ∧ values.role = .string Role.admin.label := by
  rcases mem_exec h with hold | ⟨values, rfl, -, hrole⟩ |
    ⟨user, values, name, password, role, rfl, -, hrole, row, hrow, -, rfl⟩
  · exact absurd hadmin (hnew row' hold rfl)
  · rw [hadmin] at hrole
    exact .inl ⟨values, rfl, newRole_eq_admin hrole⟩
  · right
    refine ⟨user, values, rfl, ?_⟩
    cases role with
    | none => exact absurd hadmin (hnew row hrow rfl)
    | some r =>
        have hr : r = .admin := hadmin
        rw [hr] at hrole
        exact roleColumn_eq_some (written_eq_some hrole)

theorem Authorized.role?_eq {request : Request} {claims : Claims} {roles : List Role}
    (h : Authorized request claims roles) : ∃ r ∈ roles, request.token.role? = some r.label := by
  rw [h.token]
  exact h.role

theorem Authorized.role?_of_admin {request : Request} {claims : Claims}
    (h : Authorized request claims [.admin]) : request.token.role? = some Role.admin.label := by
  obtain ⟨r, hr, htoken⟩ := h.role?_eq
  rw [htoken, List.mem_singleton.mp hr]

/-- A request that writes the role `admin` carries the token of an admin, or passes the role on. -/
theorem Issued.role_inv {request : Request} {trace : List UserEvent} {op : UserOp}
    (h : Issued rt request trace op)
    (hwrites : (∃ values, op = .create values ∧ values.role = .string Role.admin.label) ∨
      ∃ user values, op = .update user values ∧ values.role = .string Role.admin.label) :
    request.token.role? = some Role.admin.label ∨ AsksForAdmin request := by
  cases h with
  | read trace op hreads =>
      rcases hwrites with ⟨values, rfl, -⟩ | ⟨user, values, rfl, -⟩ <;> cases hreads
  | create hash hroute =>
      obtain ⟨values, hop, hrole⟩ | ⟨user, values, hop, -⟩ := hwrites
      · cases hop
        by_cases hadmin : request.token.role? = some Role.admin.label
        · exact .inl hadmin
        · exact .inr ⟨.inl ⟨hroute, hadmin⟩, hrole⟩
      · cases hop
  | updateMine claims user hroute hauth hfound =>
      obtain ⟨values, hop, -⟩ | ⟨user, values, hop, hrole⟩ := hwrites
      · cases hop
      · cases hop
        obtain ⟨r, hr, htoken⟩ := hauth.role?_eq
        obtain rfl | rfl := List.mem_pair.mp hr
        · exact .inl htoken
        · exact .inr ⟨.inr ⟨hroute, htoken⟩, hrole⟩
  | updateById claims user hroute hauth hfound => exact .inl hauth.role?_of_admin
  | passwordChangeMine claims user password hash hroute hauth hfound hrepeated hpassword hverified =>
      obtain ⟨values, hop, -⟩ | ⟨user, values, hop, hrole⟩ := hwrites
      · cases hop
      · cases hop
        cases hrole
  | passwordReset claims user hash hroute hauth hfound => exact .inl hauth.role?_of_admin
  | destroy claims id user hroute hauth hown hfound =>
      obtain ⟨values, hop, -⟩ | ⟨user, values, hop, -⟩ := hwrites <;> cases hop

/-! ### Runs -/

structure RoleInv (rt : Runtime) (p : UserPool) : Prop where
  justified : Service.Justified (Honest rt) (Issued rt) p
  asked : ∀ t ∈ p.threads, ¬ AsksForAdmin t.request

theorem roleInv_step (p : UserPool) (move : UserMove) (p' : UserPool) (h : RoleInv rt p)
    (hasked : NoAdminRoleAsked p move) (hstep : (service rt).machine.step p move = some p') :
    RoleInv rt p' where
  justified :=
    (service rt).justified_step (honest_exec rt) (issues_handler rt) p move p' h.justified hstep
  asked := by
    have harrives : ∀ request, move = .arrive request → ¬ AsksForAdmin request := by
      rintro request rfl
      exact hasked
    exact (service rt).requests_step h.asked harrives hstep

theorem RoleInv.promotedByAdmin (p : UserPool) (move : UserMove) (p' : UserPool) (h : RoleInv rt p)
    (hstep : (service rt).machine.step p move = some p') : PromotedByAdmin p move p' := by
  intro row' hrow' hadmin hnew
  cases move with
  | arrive request =>
      obtain ⟨-, rfl⟩ := (service rt).step_arrive hstep
      exact absurd hadmin (hnew row' hrow' rfl)
  | resume index env =>
      obtain ⟨t, op, resume, ht, hcode, rfl⟩ := (service rt).step_resume hstep
      have hmem := List.mem_of_getElem? ht
      have hwrites := exec_promotes hrow' hadmin hnew
      refine ⟨index, env, t, rfl, ht, ?_⟩
      obtain htoken | hasks := (h.justified.issued_of_await hmem hcode).role_inv hwrites
      · exact htoken
      · exact absurd hasks (h.asked t hmem)

/-- In every run of the service, from any table, in which nobody asks for the role of an admin on a
route that passes it on, every step that makes a row an admin's is one of an admin's request. -/
theorem promoted_by_admin (rt : Runtime) (users : UsersTable) (moves : List UserMove)
    (hasked : (service rt).machine.Meets NoAdminRoleAsked (Service.start users) moves) :
    (service rt).machine.Each PromotedByAdmin (Service.start users) moves := by
  have hinit : RoleInv rt (Service.start users) :=
    ⟨Service.justified_start users, by simp [Service.start]⟩
  apply Machine.each_of_meets roleInv_step _ hinit hasked
  intro p move p' hinv _ hstep
  exact hinv.promotedByAdmin p move p' hstep

/-- An admin makes a user an admin. -/
def promotion : Request :=
  ⟨.updateById, ada.token, .object [("id", .ofNat 2), ("role", .string "admin")]⟩

def promoteEve : List UserMove := [.arrive promotion, .resume 0 .calm, .resume 0 .calm]

theorem promoted_by_admin_promoteEve :
    (∃ p, (service plain).machine.run (Service.start adaAndEve) promoteEve = some p ∧
      p.store.rows.map User.role = [.admin, .admin]) ∧
    (service plain).machine.Each PromotedByAdmin (Service.start adaAndEve) promoteEve :=
  ⟨⟨_, rfl, by decide⟩, promoted_by_admin plain adaAndEve promoteEve (by decide)⟩

/-- Anybody registers as an admin. -/
def registration : Request :=
  ⟨.registerUser, .missing, .object [("name", .string "Mallory"),
    ("email", .string "mallory@books.org"), ("password", .string "1234"), ("role", .string "admin")]⟩

theorem not_promoted_by_admin : ¬ ∀ (rt : Runtime) (users : UsersTable) (moves : List UserMove),
    (service rt).machine.Each PromotedByAdmin (Service.start users) moves := by
  intro h
  have heach := h plain .empty [.arrive registration, .resume 0 .calm, .resume 0 .calm]
  have hpromoted := ((heach _ rfl).2 _ rfl).2 _ rfl
  obtain ⟨index, env, t, hmove, ht, htoken⟩ := hpromoted.1
    ⟨1, "Mallory", "mallory@books.org", "17$1234", .admin, 1700000000000, 1700000000000⟩
    (by decide) rfl (by decide)
  cases hmove
  cases ht
  cases htoken

end BookHub.UserService
