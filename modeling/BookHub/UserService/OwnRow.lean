import BookHub.UserService.Roles

/-!
# A non-admin's requests stay on its own row

The middleware lets a request of a non-admin through to handlers that look a row up by the subject of
the token, and to `DELETE /:id` only where the path names that subject. So every operation that such a
request issues is one on the row of its token's user, whatever its body holds.
-/

namespace BookHub.UserService

variable {rt : Runtime}

/-- Between the two tables only the row with this id has changed, and no row was added. -/
structure Confined (s : Nat) (users users' : UsersTable) : Prop where
  others : ∀ row : User, row.id ≠ s → (row ∈ users'.rows ↔ row ∈ users.rows)
  keys : ∀ row' ∈ users'.rows, ∃ row ∈ users.rows, row.id = row'.id

theorem Confined.refl (s : Nat) (users : UsersTable) : Confined s users users where
  others _ _ := Iff.rfl
  keys row' hrow' := ⟨row', hrow', rfl⟩

theorem Confined.trans {s : Nat} {users mid users' : UsersTable} (h : Confined s users mid)
    (h' : Confined s mid users') : Confined s users users' where
  others row hrow := (h'.others row hrow).trans (h.others row hrow)
  keys row' hrow' := by
    obtain ⟨row, hrow, heq⟩ := h'.keys row' hrow'
    obtain ⟨row₀, hrow₀, heq₀⟩ := h.keys row hrow
    exact ⟨row₀, hrow₀, heq₀.trans heq⟩

theorem confined_modify (users : UsersTable) {s : Nat} {f : User → User}
    (hid : ∀ row, (f row).id = row.id) : Confined s users (users.modify s f hid) where
  others row hrow := by
    rw [Table.mem_modify]
    constructor
    · rintro (⟨hold, -⟩ | ⟨row₀, -, hid₀, rfl⟩)
      · exact hold
      · exact absurd ((hid row₀).trans hid₀) hrow
    · intro hold
      exact .inl ⟨hold, hrow⟩
  keys row' hrow' := by
    obtain ⟨hold, -⟩ | ⟨row₀, hrow₀, -, rfl⟩ := Table.mem_modify.mp hrow'
    · exact ⟨row', hold, rfl⟩
    · exact ⟨row₀, hrow₀, (hid row₀).symm⟩

theorem confined_erase (users : UsersTable) (s : Nat) : Confined s users (users.erase s) where
  others row hrow := by
    rw [Table.mem_erase]
    exact and_iff_left hrow
  keys row' hrow' := ⟨row', (Table.mem_erase.mp hrow').1, rfl⟩

/-- The operation reads, or writes the row with this id. -/
def OwnRow (s : Nat) (op : UserOp) : Prop :=
  op.reads = true ∨ (∃ user values, op = .update user values ∧ user.id = s) ∨ op = .destroy s

theorem OwnRow.confined {s : Nat} {op : UserOp} (h : OwnRow s op) (users : UsersTable)
    (env : UserEnv) : Confined s users (exec rt users op env).2 := by
  obtain hreads | ⟨user, values, rfl, rfl⟩ | rfl := h
  · rw [exec_of_reads hreads]
    exact Confined.refl s users
  · obtain hsame | ⟨name, password, role, -, -, -, hmodify⟩ := @exec_update rt users user values env
    · rw [hsame]
      exact Confined.refl user.id users
    · rw [hmodify]
      exact confined_modify users _
  · obtain hsame | herase := @exec_destroy rt users s env
    · rw [hsame]
      exact Confined.refl s users
    · rw [herase]
      exact confined_erase users s

/-- A request with a non-admin's token, on a route that asks for one. -/
structure NonAdmin (request : Request) (claims : Claims) (s : Nat) : Prop where
  route : request.route.roles ≠ none
  token : request.token = .verified claims
  sub : claims.sub = some (toString s)
  role : claims.role ≠ some Role.admin.label

section NonAdmin

variable {request : Request} {claims : Claims} {s : Nat}

theorem Authorized.eq_claims {claims' : Claims} {roles : List Role}
    (hauth : Authorized request claims' roles) (h : NonAdmin request claims s) : claims' = claims := by
  have htoken : Token.verified claims' = .verified claims := hauth.token.symm.trans h.token
  injection htoken

theorem Authorized.not_adminOnly {claims' : Claims} (hauth : Authorized request claims' [.admin])
    (h : NonAdmin request claims s) : False := by
  obtain ⟨r, hr, hrole⟩ := hauth.role
  rw [List.mem_singleton.mp hr, hauth.eq_claims h] at hrole
  exact h.role hrole

theorem Denotes.eq_of_decimal (hdecimal : ∀ (n : Nat) i, rt.int4In (toString n) = some i → i = n)
    {id : Nat} (h : Denotes rt (.string (toString s)) id) : id = s :=
  Int.ofNat.inj (hdecimal s id h)

theorem NonAdmin.subValue_eq (h : NonAdmin request claims s) :
    claims.subValue = .string (toString s) := by
  rw [Claims.subValue, h.sub]
  rfl

theorem Issued.ownRow (hdecimal : ∀ (n : Nat) i, rt.int4In (toString n) = some i → i = n)
    {trace : List UserEvent} {op : UserOp} (hissued : Issued rt request trace op)
    (h : NonAdmin request claims s) : OwnRow s op := by
  cases hissued with
  | read trace op hreads => exact .inl hreads
  | create hash hroute => exact absurd (congrArg Route.roles hroute) h.route
  | updateMine claims' user hroute hauth hfound =>
      rw [hauth.eq_claims h, h.subValue_eq] at hfound
      exact .inr (.inl ⟨user, _, rfl, hfound.eq_of_decimal hdecimal⟩)
  | updateById claims' user hroute hauth hfound => exact (hauth.not_adminOnly h).elim
  | passwordChangeMine claims' user password hash hroute hauth hfound hrepeated hpassword hverified =>
      rw [hauth.eq_claims h, h.subValue_eq] at hfound
      exact .inr (.inl ⟨user, _, rfl, hfound.eq_of_decimal hdecimal⟩)
  | passwordReset claims' user hash hroute hauth hfound => exact (hauth.not_adminOnly h).elim
  | destroy claims' id user hroute hauth hown hfound =>
      obtain ⟨r, hr, hrole⟩ := hauth.role
      rw [hauth.eq_claims h] at hrole hown
      obtain rfl | rfl := List.mem_pair.mp hr
      · exact absurd hrole h.role
      · -- a plain user is let through only to the id of its own token
        have hid : toString s = id.value := Option.some.inj (h.sub.symm.trans (hown hrole))
        rw [← hid] at hfound
        rw [hfound.eq_of_decimal hdecimal]
        exact .inr (.inr rfl)

/-- A request that the middleware refuses leaves the table. -/
theorem eval_of_not_admitted {roles : List Role} (hroles : request.route.roles = some roles)
    (htoken : request.token = .verified claims)
    (hrefused : claims.admitted roles request.route.pathId = false) (env : Nat → UserEnv)
    (users : UsersTable) : ((handler rt request).eval (exec rt) env users).2 = users := by
  have hhandler : handler rt request = .done (.ok (.error 403 "Insufficient permissions")) := by
    unfold handler
    rw [hroles, htoken]
    show (if (!claims.admitted roles request.route.pathId) = true then _ else _) = _
    rw [hrefused]
    rfl
  rw [hhandler]
  rfl

theorem not_admitted_of_role {roles : List Role} {pathId : Option PathId}
    (h : ∀ r ∈ roles, claims.role ≠ some r.label) : claims.admitted roles pathId = false := by
  have hany : (roles.any fun r => claims.role == some r.label) = false := by
    rw [List.any_eq_false]
    intro r hr
    rw [beq_iff_eq]
    exact h r hr
  rw [Claims.admitted, hany]
  rfl

/-- The path of a `DELETE` names another id, and the role is not an admin's. -/
theorem not_admitted_of_path {id : PathId} (h : NonAdmin request claims s)
    (hid : id.value ≠ toString s) : claims.admitted [.admin, .user] (some id) = false := by
  by_cases huser : claims.role = some Role.user.label
  · have hother : (some id.value != claims.sub) = true := by
      rw [h.sub, bne_iff_ne]
      exact fun heq => hid (Option.some.inj heq)
    rw [Claims.admitted, huser, Option.any_some, hother]
    rfl
  · apply not_admitted_of_role
    intro r hr
    obtain rfl | rfl := List.mem_pair.mp hr
    · exact h.role
    · exact huser

end NonAdmin

/-- A request with a verified token whose role is not `admin` and whose subject is the id `s` changes
no other row than that of `s` and adds none; where the route does not list the role, or is a
`DELETE` of another id, it changes nothing. -/
theorem nonAdmin_confined (rt : Runtime)
    (hdecimal : ∀ (n : Nat) i, rt.int4In (toString n) = some i → i = n) (request : Request)
    (claims : Claims) (s : Nat) (h : NonAdmin request claims s) (env : Nat → UserEnv)
    (users : UsersTable) :
    Confined s users ((handler rt request).eval (exec rt) env users).2 ∧
      (((∀ roles, request.route.roles = some roles → ∀ r ∈ roles, claims.role ≠ some r.label) ∨
          ∃ id, request.route = .deleteUser id ∧ id.value ≠ toString s) →
        ((handler rt request).eval (exec rt) env users).2 = users) := by
  constructor
  · apply Coroutine.eval_frame (Confined.refl s) (fun _ _ _ => Confined.trans) (honest_exec rt) _
      (issues_handler rt request)
    intro trace users op env hissued
    exact (hissued.ownRow hdecimal h).confined users env
  · rintro (hrole | ⟨id, hroute, hid⟩)
    · obtain ⟨roles, hroles⟩ := Option.ne_none_iff_exists'.mp h.route
      exact eval_of_not_admitted hroles h.token (not_admitted_of_role (hrole roles hroles)) env users
    · apply eval_of_not_admitted (congrArg Route.roles hroute) h.token _ env users
      rw [hroute]
      exact not_admitted_of_path h hid

/-- A user renames itself, and names another id in the body. -/
def renameEve : Request :=
  ⟨.updateMine, eve.token, .object [("id", .ofNat 1), ("name", .string "Eva")]⟩

/-- The table after the request, alone and without failures. -/
def renamed : UsersTable := ((handler plain renameEve).eval (exec plain) (fun _ => .calm) adaAndEve).2

theorem nonAdmin_confined_renameEve :
    renamed.rows.map User.name = ["Ada", "Eva"] ∧ Confined 2 adaAndEve renamed := by
  have hrename : NonAdmin renameEve ⟨some "2", some "user"⟩ 2 :=
    ⟨by decide, rfl, by decide, by decide⟩
  refine ⟨by decide, ?_⟩
  exact (nonAdmin_confined plain decimal_toString renameEve ⟨some "2", some "user"⟩ 2 hrename
    (fun _ => .calm) adaAndEve).1

end BookHub.UserService
