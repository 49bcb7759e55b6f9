import BookHub.Base.Mirror
import BookHub.UserService.Handlers

/-!
# Hashes that are other strings

Two executions of the database and bcrypt: the hashes in the table and those that bcrypt makes are
other strings in the second one, and bcrypt gives the same answers about them. Operations that differ
in the hashes only have outcomes that differ in the hashes only.
-/

namespace BookHub.UserService

/-! ### The second execution -/

/-- The libraries with another bcrypt. -/
def Runtime.withBcrypt (rt : Runtime) (bcryptHash : String → Nat → String)
    (compareSync : String → String → Bool) : Runtime :=
  { rt with bcryptHash, compareSync }

/-- The hashes of the two executions correspond: bcrypt gives the same answers about them, in the
column they are still alike, and a new hash is the one it replaces in both executions or in neither. -/
structure HashesAlike (rt rt' : Runtime) (alike : String → String → Prop) : Prop where
  hash : ∀ data salt, alike (rt.bcryptHash data salt) (rt'.bcryptHash data salt)
  compare : ∀ hash hash', alike hash hash' →
    ∀ data, rt.compareSync data hash = rt'.compareSync data hash'
  stored : ∀ hash hash', alike hash hash' → Option.Rel alike (varchar hash) (varchar hash')
  unchanged : ∀ hash hash', alike hash hash' →
    ∀ data salt, rt.bcryptHash data salt = hash ↔ rt'.bcryptHash data salt = hash'

/-- The rows differ in the hash only. -/
structure UserAlike (alike : String → String → Prop) (user user' : User) : Prop where
  row : user' = { user with password := user'.password }
  password : alike user.password user'.password

/-- The tables differ in the hashes only. -/
structure UsersAlike (alike : String → String → Prop) (users users' : UsersTable) : Prop where
  rows : List.Forall₂ (UserAlike alike) users.rows users'.rows
  nextId : users.nextId = users'.nextId

/-- Two operations that differ in the hashes only. -/
inductive SameOp (rt rt' : Runtime) (alike : String → String → Prop) : UserOp → UserOp → Prop where
  | read (op : UserOp) (hreads : op.reads = true) : SameOp rt rt' alike op op
  | create (name email role : JsValue) (data : String) (salt : Nat) :
      SameOp rt rt' alike (.create ⟨name, email, rt.bcryptHash data salt, role⟩)
        (.create ⟨name, email, rt'.bcryptHash data salt, role⟩)
  | update (user user' : User) (name role : JsValue) (huser : UserAlike alike user user') :
      SameOp rt rt' alike (.update user { name, role }) (.update user' { name, role })
  | replace (user user' : User) (data : String) (salt : Nat) (huser : UserAlike alike user user') :
      SameOp rt rt' alike (.update user { password := .string (rt.bcryptHash data salt) })
        (.update user' { password := .string (rt'.bcryptHash data salt) })
  | destroy (id : Nat) : SameOp rt rt' alike (.destroy id) (.destroy id)

/-- Two answers that differ in the hashes only. -/
def SameValue (rt rt' : Runtime) (alike : String → String → Prop) :
    (op op' : UserOp) → userSig.Answer op → userSig.Answer op' → Prop
  | .findOneByEmail _, .findOneByEmail _ => Option.Rel (UserAlike alike)
  | .findByPk _, .findByPk _ => Option.Rel (UserAlike alike)
  | .findAll, .findAll => List.Forall₂ (UserAlike alike)
  | .hash _, .hash _ => fun hash hash' => ∃ data salt,
      hash = rt.bcryptHash data salt ∧ hash' = rt'.bcryptHash data salt
  | .create _, .create _ => UserAlike alike
  | .update _ _, .update _ _ => fun _ _ => True
  | .destroy _, .destroy _ => fun _ _ => True
  | _, _ => fun _ _ => False

/-! ### Related operations -/

section Alike

variable {rt : Runtime} {bcryptHash : String → Nat → String} {compareHash : String → String → Bool}
  {alike : String → String → Prop} {users users' : UsersTable} {user user' : User}

theorem UserAlike.id_eq (h : UserAlike alike user user') : user.id = user'.id := by
  rw [h.row]

theorem UserAlike.email_eq (h : UserAlike alike user user') : user.email = user'.email := by
  rw [h.row]

theorem UserAlike.instance_eq (h : UserAlike alike user user') : user.instance = user'.instance := by
  rw [h.row]
  rfl

theorem UserAlike.set (h : UserAlike alike user user') {password password' : Option String}
    (hpassword : Option.Rel alike password password') (name : Option String) (role : Option Role)
    (updatedAt : Int) :
    UserAlike alike (user.set name password role updatedAt)
      (user'.set name password' role updatedAt) := by
  constructor
  · rw [h.row]
    rfl
  · cases hpassword with
    | some hhash => exact hhash
    | none => exact h.password

theorem usersAlike_modify (h : UsersAlike alike users users') {id : Nat} {f f' : User → User}
    (hid : ∀ row, (f row).id = row.id) (hid' : ∀ row, (f' row).id = row.id)
    (hf : ∀ user user', UserAlike alike user user' → UserAlike alike (f user) (f' user')) :
    UsersAlike alike (users.modify id f hid) (users'.modify id f' hid') := by
  refine ⟨List.rel_map (fun row row' hrow => ?_) h.rows, h.nextId⟩
  rw [hrow.id_eq]
  split
  · exact hf row row' hrow
  · exact hrow

theorem usersAlike_erase (h : UsersAlike alike users users') (id : Nat) :
    UsersAlike alike (users.erase id) (users'.erase id) := by
  refine ⟨List.rel_filter (fun row row' hrow => ?_) h.rows, h.nextId⟩
  show (row.id != id) = true ↔ (row'.id != id) = true
  rw [hrow.id_eq]

theorem usersAlike_notCreated (h : UsersAlike alike users users') (env : UserEnv) :
    UsersAlike alike (notCreated users env) (notCreated users' env) := by
  unfold notCreated
  by_cases hdrawn : env.drawsKey ∧ users.nextId < 2 ^ 31
  · rw [dif_pos hdrawn, dif_pos (h.nextId ▸ hdrawn)]
    exact ⟨h.rows, congrArg (· + 1) h.nextId⟩
  · rw [dif_neg hdrawn, dif_neg (h.nextId ▸ hdrawn)]
    exact h

theorem findByPk_alike (h : UsersAlike alike users users') (param : JsValue) :
    Option.Rel (Option.Rel (UserAlike alike)) (findByPk rt users param)
      (findByPk (rt.withBcrypt bcryptHash compareHash) users' param) := by
  unfold findByPk
  split
  · exact .some .none
  · exact .some .none
  · apply Option.Rel.some
    apply rel_find? h.rows
    intro row row' hrow
    rw [hrow.id_eq]
  · show Option.Rel _ (Option.map _ (rt.int4In _)) (Option.map _ (rt.int4In _))
    cases rt.int4In _ with
    | none => exact .none
    | some id =>
        apply Option.Rel.some
        apply rel_find? h.rows
        intro row row' hrow
        rw [hrow.id_eq]
  · exact .none

theorem findOneByEmail_alike (h : UsersAlike alike users users') (email : JsValue) :
    Option.Rel (Option.Rel (UserAlike alike)) (findOneByEmail rt users email)
      (findOneByEmail (rt.withBcrypt bcryptHash compareHash) users' email) := by
  unfold findOneByEmail
  split
  · apply Option.Rel.some
    apply rel_find? h.rows
    intro row row' hrow
    rw [hrow.email_eq]
  · show Option.Rel _ (Option.map _ (rt.emailFilter email)) (Option.map _ (rt.emailFilter email))
    cases rt.emailFilter email with
    | none => exact .none
    | some selects =>
        apply Option.Rel.some
        apply rel_find? h.rows
        intro row row' hrow
        rw [hrow.email_eq]

/-- The outcomes of an operation in the two executions differ in the hashes only. -/
structure SameOutcome (rt rt' : Runtime) (alike : String → String → Prop) (op op' : UserOp)
    (outcome : Except JsError (userSig.Answer op) × UsersTable)
    (outcome' : Except JsError (userSig.Answer op') × UsersTable) : Prop where
  answers : @Answered userSig JsError (SameValue rt rt' alike) op op' outcome.1 outcome'.1
  users : UsersAlike alike outcome.2 outcome'.2

theorem create_alike (h : HashesAlike rt (rt.withBcrypt bcryptHash compareHash) alike)
    (husers : UsersAlike alike users users') (name email role : JsValue) (data : String) (salt : Nat)
    (env : UserEnv) :
    SameOutcome rt (rt.withBcrypt bcryptHash compareHash) alike
      (.create ⟨name, email, rt.bcryptHash data salt, role⟩)
      (.create ⟨name, email, bcryptHash data salt, role⟩)
      (create rt users ⟨name, email, rt.bcryptHash data salt, role⟩ env)
      (create (rt.withBcrypt bcryptHash compareHash) users'
        ⟨name, email, bcryptHash data salt, role⟩ env) := by
  have hrefused : SameOutcome rt (rt.withBcrypt bcryptHash compareHash) alike
      (.create ⟨name, email, rt.bcryptHash data salt, role⟩)
      (.create ⟨name, email, bcryptHash data salt, role⟩)
      (.error ⟨env.errorText⟩, notCreated users env)
      (.error ⟨env.errorText⟩, notCreated users' env) := ⟨rfl, usersAlike_notCreated husers env⟩
  have hcolumn : (rt.withBcrypt bcryptHash compareHash).column = rt.column := rfl
  have hhash : Option.Rel alike (varchar (rt.bcryptHash data salt)) (varchar (bcryptHash data salt)) :=
    h.stored _ _ (h.hash data salt)
  unfold create
  rw [hcolumn]
  dsimp only
  generalize varchar (rt.bcryptHash data salt) = stored at hhash ⊢
  generalize varchar (bcryptHash data salt) = stored' at hhash ⊢
  cases rt.column name with
  | none => exact hrefused
  | some name =>
  cases rt.column email with
  | none => exact hrefused
  | some email =>
  cases newRole role with
  | none => cases hhash <;> exact hrefused
  | some role =>
  cases hhash with
  | none => exact hrefused
  | @some hash hash' hhash =>
  have htaken : (users.rows.any fun user => user.email == email) =
      users'.rows.any fun user => user.email == email := by
    apply any_eq_of_forall₂ husers.rows
    intro row row' hrow
    rw [hrow.email_eq]
  show SameOutcome _ _ _ _ _ (dite _ _ _) (dite _ _ _)
  by_cases hroom : users.nextId < 2 ^ 31
  · rw [dif_pos hroom, dif_pos (husers.nextId ▸ hroom), htaken]
    split
    · exact hrefused
    · refine ⟨⟨?_, hhash⟩, List.rel_append husers.rows (.cons ⟨?_, hhash⟩ .nil),
        congrArg (· + 1) husers.nextId⟩
      · rw [husers.nextId]
      · rw [husers.nextId]
  · rw [dif_neg hroom, dif_neg (husers.nextId ▸ hroom)]
    exact ⟨rfl, husers⟩

theorem update_alike (husers : UsersAlike alike users users') (huser : UserAlike alike user user')
    {name role password password' : JsValue}
    (hwritten : Option.Rel (Option.Rel alike) (written rt.column user.password password)
      (written rt.column user'.password password')) (env : UserEnv) :
    SameOutcome rt (rt.withBcrypt bcryptHash compareHash) alike
      (.update user { name, password, role }) (.update user' { name, password := password', role })
      (update rt users user { name, password, role } env)
      (update rt users' user' { name, password := password', role } env) := by
  have hsame : user'.name = user.name ∧ user'.role.label = user.role.label := by
    rw [huser.row]
    exact ⟨rfl, rfl⟩
  have hrefused : SameOutcome rt (rt.withBcrypt bcryptHash compareHash) alike
      (.update user { name, password, role }) (.update user' { name, password := password', role })
      (.error ⟨env.errorText⟩, users) (.error ⟨env.errorText⟩, users') := ⟨rfl, husers⟩
  cases hname : written rt.column user.name name with
  | none =>
      rw [update_of_refused (.inl hname), update_of_refused (.inl (hsame.1 ▸ hname))]
      exact hrefused
  | some newName =>
  cases hrole : written roleColumn user.role.label role with
  | none =>
      rw [update_of_refused (.inr (.inr hrole)), update_of_refused (.inr (.inr (hsame.2 ▸ hrole)))]
      exact hrefused
  | some newRole =>
  obtain ⟨hhash, hhash'⟩ | ⟨hash, hash', hhash, hhash', halike⟩ := rel_cases hwritten
  · rw [update_of_refused (.inr (.inl hhash)), update_of_refused (.inr (.inl hhash'))]
    exact hrefused
  rw [update_of_written hname hhash hrole, update_of_written (hsame.1 ▸ hname) hhash'
    (hsame.2 ▸ hrole)]
  have hsent : (newName = none ∧ hash = none ∧ newRole = none) ↔
      newName = none ∧ hash' = none ∧ newRole = none := by
    obtain ⟨rfl, rfl⟩ | ⟨_, _, rfl, rfl, -⟩ := rel_cases halike
    · rfl
    · simp
  by_cases hnothing : newName = none ∧ hash = none ∧ newRole = none
  · rw [if_pos hnothing, if_pos (hsent.mp hnothing)]
    exact ⟨trivial, husers⟩
  · rw [if_neg hnothing, if_neg (mt hsent.mpr hnothing)]
    by_cases hraises : env.raises = true
    · rw [if_pos hraises, if_pos hraises]
      exact hrefused
    · rw [if_neg hraises, if_neg hraises]
      refine ⟨trivial, ?_⟩
      rw [huser.id_eq]
      apply usersAlike_modify husers (User.id_set newName hash newRole env.millis)
        (User.id_set newName hash' newRole env.millis)
      intro row row' hrow
      exact hrow.set halike newName newRole env.millis

theorem written_hash_alike (h : HashesAlike rt (rt.withBcrypt bcryptHash compareHash) alike)
    (huser : UserAlike alike user user') (data : String) (salt : Nat) :
    Option.Rel (Option.Rel alike)
      (written rt.column user.password (.string (rt.bcryptHash data salt)))
      (written rt.column user'.password (.string (bcryptHash data salt))) := by
  have hdiffers : differs (.string (rt.bcryptHash data salt)) user.password =
      differs (.string (bcryptHash data salt)) user'.password := by
    have hiff : rt.bcryptHash data salt = user.password ↔ bcryptHash data salt = user'.password :=
      h.unchanged _ _ huser.password data salt
    exact Bool.eq_iff_iff.mpr (by simpa [differs] using not_congr hiff)
  unfold written
  rw [hdiffers]
  split
  · obtain ⟨hnone, hnone'⟩ | ⟨hash, hash', hsome, hsome', halike⟩ :=
      rel_cases (h.stored _ _ (h.hash data salt))
    · rw [show rt.column (.string (rt.bcryptHash data salt)) = none from hnone,
        show rt.column (.string (bcryptHash data salt)) = none from hnone']
      exact .none
    · rw [show rt.column (.string (rt.bcryptHash data salt)) = some hash from hsome,
        show rt.column (.string (bcryptHash data salt)) = some hash' from hsome']
      exact .some (.some halike)
  · exact .some .none

theorem read_alike {op : UserOp} (hreads : op.reads = true) (husers : UsersAlike alike users users')
    (env : UserEnv) :
    SameOutcome rt (rt.withBcrypt bcryptHash compareHash) alike op op (exec rt users op env)
      (exec (rt.withBcrypt bcryptHash compareHash) users' op env) := by
  cases op with
  | findOneByEmail email =>
      refine ⟨?_, husers⟩
      simp only [exec]
      split
      · rfl
      · obtain ⟨hnone, hnone'⟩ | ⟨found, found', hsome, hsome', halike⟩ :=
          rel_cases (findOneByEmail_alike husers email)
        · rw [hnone, hnone']
          rfl
        · rw [hsome, hsome']
          exact halike
  | findByPk param =>
      refine ⟨?_, husers⟩
      simp only [exec]
      split
      · rfl
      · obtain ⟨hnone, hnone'⟩ | ⟨found, found', hsome, hsome', halike⟩ :=
          rel_cases (findByPk_alike husers param)
        · rw [hnone, hnone']
          rfl
        · rw [hsome, hsome']
          exact halike
  | findAll =>
      refine ⟨?_, husers⟩
      simp only [exec]
      split
      · rfl
      · exact husers.rows
  | hash data =>
      refine ⟨?_, by rwa [exec_of_reads rfl, exec_of_reads rfl]⟩
      cases data with
      | string data => exact ⟨data, env.salt, rfl, rfl⟩
      | _ => rfl
  | create values => cases hreads
  | update user values => cases hreads
  | destroy id => cases hreads

theorem exec_alike (h : HashesAlike rt (rt.withBcrypt bcryptHash compareHash) alike)
    (husers : UsersAlike alike users users') {op op' : UserOp}
    (hop : SameOp rt (rt.withBcrypt bcryptHash compareHash) alike op op') (env : UserEnv) :
    SameOutcome rt (rt.withBcrypt bcryptHash compareHash) alike op op' (exec rt users op env)
      (exec (rt.withBcrypt bcryptHash compareHash) users' op' env) := by
  cases hop with
  | read op hreads => exact read_alike hreads husers env
  | create name email role data salt => exact create_alike h husers name email role data salt env
  | update user user' name role huser => exact update_alike husers huser (.some .none) env
  | replace user user' data salt huser =>
      exact update_alike husers huser (written_hash_alike h huser data salt) env
  | destroy id =>
      simp only [exec]
      split
      · exact ⟨rfl, husers⟩
      · exact ⟨trivial, usersAlike_erase husers id⟩

end Alike

end BookHub.UserService
