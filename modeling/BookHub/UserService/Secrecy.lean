import BookHub.UserService.Hashes
import BookHub.UserService.Issued

/-!
# What a response tells of the hashes

Two executions of the service whose hashes are other strings. The handlers show rows through
`toUserDto`, which leaves the hash out; only `registerUser` writes out the row as it is. So the
responses of a request are the same in both executions unless it has created a row whose hash is not.
-/

namespace BookHub.UserService

/-! ### What a request has created -/

/-- The row that an operation has created. -/
def createdRow : UserEvent → Option User
  | ⟨.create _, .ok user⟩ => some user
  | _ => none

/-- The hashes that a request has given to the rows it has created. -/
def createdHashes (trace : List UserEvent) : List String :=
  (trace.filterMap createdRow).map User.password

/-- The results are the same if and only if the created hashes are. -/
def TellsCreated (trace trace' : List UserEvent) (result result' : Except JsError Response) : Prop :=
  result = result' ↔ createdHashes trace = createdHashes trace'

section Alike

variable {rt : Runtime} {bcryptHash : String → Nat → String} {compareHash : String → String → Bool}
  {alike : String → String → Prop} {user user' : User}

/-! ### The handlers side by side -/

variable (rt bcryptHash compareHash alike) in
/-- The two handlers issue the same operations but for the hashes, and their results are the same if
and only if the hashes that they have given to a row are. -/
abbrev SideBySide (trace trace' : List UserEvent) (c c' : UserM Response) : Prop :=
  Coroutine.Mirrors (SameOp rt (rt.withBcrypt bcryptHash compareHash) alike)
    (SameValue rt (rt.withBcrypt bcryptHash compareHash) alike) TellsCreated trace trace' c c'

variable {trace trace' : List UserEvent}

/-- The trace of a request that has created nothing. -/
def Uncreated (trace : List UserEvent) : Prop := ∀ event ∈ trace, createdRow event = none

theorem uncreated_nil : Uncreated [] := by
  intro event hevent
  cases hevent

theorem Uncreated.append (h : Uncreated trace) {event : UserEvent} (hevent : createdRow event = none) :
    Uncreated (trace ++ [event]) := by
  intro other hother
  obtain hother | hother := List.mem_append.mp hother
  · exact h other hother
  · rw [List.mem_singleton.mp hother]
    exact hevent

theorem sideBySide_done (h : Uncreated trace) (h' : Uncreated trace')
    (result : Except JsError Response) :
    SideBySide rt bcryptHash compareHash alike trace trace' (.done result) (.done result) := by
  show result = result ↔ _
  rw [createdHashes, createdHashes, List.filterMap_eq_nil_iff.mpr h, List.filterMap_eq_nil_iff.mpr h']
  exact iff_of_true rfl rfl

/-- A body that cannot be taken apart is refused on both sides, with the same error. -/
theorem sideBySide_destructure {first : String} {body : JsValue}
    {next next' : (String → JsValue) → UserM Response}
    (hnext : SideBySide rt bcryptHash compareHash alike [] [] (next body.property)
      (next' body.property)) :
    SideBySide rt bcryptHash compareHash alike [] [] (destructure first body >>= next)
      (destructure first body >>= next') := by
  obtain ⟨err, herr⟩ | hok := destructure_cases first body
  · rw [herr]
    exact sideBySide_done uncreated_nil uncreated_nil _
  · rw [hok]
    exact hnext

theorem sideBySide_withUser {param : JsValue} {next next' : User → UserM Response}
    (hnext : ∀ user user' trace trace', UserAlike alike user user' → Uncreated trace →
      Uncreated trace' →
      SideBySide rt bcryptHash compareHash alike trace trace' (next user) (next' user')) :
    SideBySide rt bcryptHash compareHash alike [] [] (withUser param next) (withUser param next') := by
  refine ⟨.read _ rfl, fun (answer answer' : Except JsError (Option User)) halike => ?_⟩
  have htrace (found : Except JsError (Option User)) :
      Uncreated ([] ++ [⟨UserOp.findByPk param, found⟩]) := uncreated_nil.append rfl
  obtain ⟨err, rfl, rfl⟩ | ⟨found, found', rfl, rfl, hfound⟩ := answered_cases halike
  · exact sideBySide_done (htrace _) (htrace _) _
  · obtain ⟨rfl, rfl⟩ | ⟨user, user', rfl, rfl, huser⟩ := rel_cases hfound
    · exact sideBySide_done (htrace _) (htrace _) _
    · exact hnext user user' _ _ huser (htrace _) (htrace _)

theorem sideBySide_updateAndAnswer (h : Uncreated trace) (h' : Uncreated trace') {user user' : User}
    {values values' : UserValues} (hop : SameOp rt (rt.withBcrypt bcryptHash compareHash) alike
      (.update user values) (.update user' values')) (response : JsValue) :
    SideBySide rt bcryptHash compareHash alike trace trace' (updateAndAnswer user values response)
      (updateAndAnswer user' values' response) := by
  refine ⟨hop, fun (answer answer' : Except JsError Unit) halike => ?_⟩
  obtain ⟨err, rfl, rfl⟩ | ⟨_, _, rfl, rfl, -⟩ := answered_cases halike
  · exact sideBySide_done (h.append rfl) (h'.append rfl) _
  · exact sideBySide_done (h.append rfl) (h'.append rfl) _

theorem UserAlike.compareSync_eq (huser : UserAlike alike user user')
    (h : HashesAlike rt (rt.withBcrypt bcryptHash compareHash) alike) (data : JsValue) :
    compareSync rt data user.password =
      compareSync (rt.withBcrypt bcryptHash compareHash) data user'.password := by
  cases data with
  | string value =>
      exact congrArg (fun same => Coroutine.done (Except.ok same)) (h.compare _ _ huser.password value)
  | _ => rfl

theorem sideBySide_verifyCredentials
    (h : HashesAlike rt (rt.withBcrypt bcryptHash compareHash) alike) (body : JsValue) :
    SideBySide rt bcryptHash compareHash alike [] [] (verifyCredentials rt body)
      (verifyCredentials (rt.withBcrypt bcryptHash compareHash) body) := by
  unfold verifyCredentials
  apply sideBySide_destructure
  refine ⟨.read _ rfl, fun (answer answer' : Except JsError (Option User)) halike => ?_⟩
  have htrace (found : Except JsError (Option User)) :
      Uncreated ([] ++ [⟨UserOp.findOneByEmail (body.property "email"), found⟩]) :=
    uncreated_nil.append rfl
  obtain ⟨err, rfl, rfl⟩ | ⟨found, found', rfl, rfl, hfound⟩ := answered_cases halike
  · exact sideBySide_done (htrace _) (htrace _) _
  obtain ⟨rfl, rfl⟩ | ⟨user, user', rfl, rfl, huser⟩ := rel_cases hfound
  · exact sideBySide_done (htrace _) (htrace _) _
  show SideBySide _ _ _ _ _ _ (compareSync rt _ user.password >>= _)
    (compareSync (rt.withBcrypt bcryptHash compareHash) _ user'.password >>= _)
  rw [← huser.compareSync_eq h, huser.instance_eq]
  rcases compareSync_cases rt (body.property "password") user.password with
    ⟨err, herr⟩ | hfalse | ⟨password, -, -, htrue⟩
  · rw [herr]
    exact sideBySide_done (htrace _) (htrace _) _
  · rw [hfalse]
    exact sideBySide_done (htrace _) (htrace _) _
  · rw [htrue]
    exact sideBySide_done (htrace _) (htrace _) _

/-- A row as it is written out shows its hash. -/
theorem toJSON_eq_iff (huser : UserAlike alike user user') :
    user.toJSON rt = user'.toJSON (rt.withBcrypt bcryptHash compareHash) ↔
      user.password = user'.password := by
  constructor
  · intro heq
    have hpassword : JsValue.string user.password = .string user'.password :=
      congrArg (fun row => row.property "password") heq
    injection hpassword
  · intro heq
    rw [huser.row, ← heq]
    rfl

theorem sideBySide_registerUser (body : JsValue) :
    SideBySide rt bcryptHash compareHash alike [] [] (registerUser rt body)
      (registerUser (rt.withBcrypt bcryptHash compareHash) body) := by
  unfold registerUser
  obtain ⟨err, herr⟩ | hok := destructure_cases "name" body
  · rw [herr]
    exact sideBySide_done uncreated_nil uncreated_nil _
  rw [hok]
  refine ⟨.read _ rfl, fun (answer answer' : Except JsError String) halike => ?_⟩
  have htrace (hash : Except JsError String) :
      Uncreated ([] ++ [⟨UserOp.hash (body.property "password"), hash⟩]) := uncreated_nil.append rfl
  obtain ⟨err, rfl, rfl⟩ | ⟨hash, hash', rfl, rfl, data, salt, rfl, rfl⟩ := answered_cases halike
  · exact sideBySide_done (htrace _) (htrace _) _
  refine ⟨.create _ _ _ data salt, fun (answer answer' : Except JsError User) halike => ?_⟩
  obtain ⟨err, rfl, rfl⟩ | ⟨user, user', rfl, rfl, huser⟩ := answered_cases halike
  · exact sideBySide_done ((htrace _).append rfl) ((htrace _).append rfl) _
  · show Except.ok (Response.mk 201 _) = Except.ok (Response.mk 201 _) ↔
      [user.password] = [user'.password]
    rw [Except.ok.injEq, Response.mk.injEq, toJSON_eq_iff huser, List.singleton_inj]
    exact and_iff_right rfl

theorem sideBySide_getAll : SideBySide rt bcryptHash compareHash alike [] [] getAll getAll := by
  refine ⟨.read _ rfl, fun (answer answer' : Except JsError (List User)) halike => ?_⟩
  have htrace (found : Except JsError (List User)) : Uncreated ([] ++ [⟨UserOp.findAll, found⟩]) :=
    uncreated_nil.append rfl
  obtain ⟨err, rfl, rfl⟩ | ⟨rows, rows', rfl, rfl, hrows⟩ := answered_cases halike
  · exact sideBySide_done (htrace _) (htrace _) _
  have hdtos (rows : List User) :
      ((rows.mergeSort fun x y => x.id ≤ y.id).map fun user => toUserDto user.instance) =
        ((rows.map User.instance).mergeSort fun x y => x.id ≤ y.id).map toUserDto := by
    have hsorted : (rows.mergeSort fun x y => x.id ≤ y.id).map User.instance =
        (rows.map User.instance).mergeSort fun x y => x.id ≤ y.id :=
      List.map_mergeSort fun _ _ _ _ => rfl
    rw [← hsorted, List.map_map]
    rfl
  have hinstances : rows.map User.instance = rows'.map User.instance := by
    rw [← List.forall₂_eq_eq_eq]
    exact List.rel_map (fun _ _ huser => huser.instance_eq) hrows
  show SideBySide _ _ _ _ _ _ (.done (.ok (.json (ServiceResponse.success (.array _) _))))
    (.done (.ok (.json (ServiceResponse.success (.array _) _))))
  rw [hdtos rows, hdtos rows', hinstances]
  exact sideBySide_done (htrace _) (htrace _) _

theorem sideBySide_getMine (claims : Claims) :
    SideBySide rt bcryptHash compareHash alike [] [] (getMine claims) (getMine claims) := by
  apply sideBySide_withUser
  intro user user' trace trace' huser htrace htrace'
  rw [huser.instance_eq]
  exact sideBySide_done htrace htrace' _

theorem sideBySide_updateMine (claims : Claims) (body : JsValue) :
    SideBySide rt bcryptHash compareHash alike [] [] (updateMine claims body)
      (updateMine claims body) := by
  apply sideBySide_withUser
  intro user user' trace trace' huser htrace htrace'
  obtain ⟨err, herr⟩ | hok := destructure_cases "name" body
  · rw [herr]
    exact sideBySide_done htrace htrace' _
  · rw [hok, huser.instance_eq]
    exact sideBySide_updateAndAnswer htrace htrace' (.update user user' _ _ huser) _

theorem sideBySide_updateById (body : JsValue) :
    SideBySide rt bcryptHash compareHash alike [] [] (updateById body) (updateById body) := by
  unfold updateById
  apply sideBySide_destructure
  apply sideBySide_withUser
  intro user user' trace trace' huser htrace htrace'
  rw [huser.instance_eq]
  exact sideBySide_updateAndAnswer htrace htrace' (.update user user' _ _ huser) _

theorem sideBySide_passwordChangeMine
    (h : HashesAlike rt (rt.withBcrypt bcryptHash compareHash) alike) (claims : Claims)
    (body : JsValue) :
    SideBySide rt bcryptHash compareHash alike [] [] (passwordChangeMine rt claims body)
      (passwordChangeMine (rt.withBcrypt bcryptHash compareHash) claims body) := by
  apply sideBySide_withUser
  intro user user' trace trace' huser htrace htrace'
  obtain ⟨err, herr⟩ | hok := destructure_cases "password" body
  · rw [herr]
    exact sideBySide_done htrace htrace' _
  rw [hok, Coroutine.ok_bind, Coroutine.ok_bind]
  have hloose : looseEq (rt.withBcrypt bcryptHash compareHash) = looseEq rt := rfl
  rw [hloose]
  rcases looseEq_cases rt (body.property "newPassword") (body.property "newPasswordRepeat") with
    ⟨err, herr⟩ | hfalse | ⟨-, htrue⟩
  · rw [herr]
    exact sideBySide_done htrace htrace' _
  · rw [hfalse]
    exact sideBySide_done htrace htrace' _
  rw [htrue, Coroutine.ok_bind, Coroutine.ok_bind, ← huser.compareSync_eq h, huser.id_eq]
  rcases compareSync_cases rt (body.property "password") user.password with
    ⟨err, herr⟩ | hfalse | ⟨password, -, -, htrue⟩
  · rw [herr]
    exact sideBySide_done htrace htrace' _
  · rw [hfalse]
    exact sideBySide_done htrace htrace' _
  rw [htrue]
  refine ⟨.read _ rfl, fun (answer answer' : Except JsError String) halike => ?_⟩
  obtain ⟨err, rfl, rfl⟩ | ⟨hash, hash', rfl, rfl, data, salt, rfl, rfl⟩ := answered_cases halike
  · exact sideBySide_done (htrace.append rfl) (htrace'.append rfl) _
  refine ⟨.replace user user' data salt huser, fun (answer answer' : Except JsError Unit) halike => ?_⟩
  obtain ⟨err, rfl, rfl⟩ | ⟨_, _, rfl, rfl, -⟩ := answered_cases halike
  · exact sideBySide_done ((htrace.append rfl).append rfl) ((htrace'.append rfl).append rfl) _
  · exact sideBySide_done ((htrace.append rfl).append rfl) ((htrace'.append rfl).append rfl) _

theorem sideBySide_passwordReset (body : JsValue) :
    SideBySide rt bcryptHash compareHash alike [] [] (passwordReset body) (passwordReset body) := by
  unfold passwordReset
  apply sideBySide_destructure
  apply sideBySide_withUser
  intro user user' trace trace' huser htrace htrace'
  refine ⟨.read _ rfl, fun (answer answer' : Except JsError String) halike => ?_⟩
  obtain ⟨err, rfl, rfl⟩ | ⟨hash, hash', rfl, rfl, data, salt, rfl, rfl⟩ := answered_cases halike
  · exact sideBySide_done (htrace.append rfl) (htrace'.append rfl) _
  · exact sideBySide_updateAndAnswer (htrace.append rfl) (htrace'.append rfl)
      (.replace user user' data salt huser) _

theorem sideBySide_deleteUser (id : PathId) :
    SideBySide rt bcryptHash compareHash alike [] [] (deleteUser id) (deleteUser id) := by
  apply sideBySide_withUser
  intro user user' trace trace' huser htrace htrace'
  rw [huser.id_eq]
  refine ⟨.destroy _, fun (answer answer' : Except JsError Unit) halike => ?_⟩
  obtain ⟨err, rfl, rfl⟩ | ⟨_, _, rfl, rfl, -⟩ := answered_cases halike
  · exact sideBySide_done (htrace.append rfl) (htrace'.append rfl) _
  · exact sideBySide_done (htrace.append rfl) (htrace'.append rfl) _

/-! ### The routes side by side -/

theorem sideBySide_routeHandler
    (h : HashesAlike rt (rt.withBcrypt bcryptHash compareHash) alike) (claims : Claims)
    (body : JsValue) (route : Route) :
    SideBySide rt bcryptHash compareHash alike [] [] (routeHandler rt claims body route)
      (routeHandler (rt.withBcrypt bcryptHash compareHash) claims body route) := by
  cases route with
  | verifyCredentials => exact sideBySide_verifyCredentials h body
  | registerUser => exact sideBySide_registerUser body
  | getAll => exact sideBySide_getAll
  | updateById => exact sideBySide_updateById body
  | passwordReset => exact sideBySide_passwordReset body
  | getMine => exact sideBySide_getMine claims
  | updateMine => exact sideBySide_updateMine claims body
  | passwordChangeMine => exact sideBySide_passwordChangeMine h claims body
  | deleteUser id => exact sideBySide_deleteUser id

theorem sideBySide_handler (h : HashesAlike rt (rt.withBcrypt bcryptHash compareHash) alike)
    (request : Request) :
    SideBySide rt bcryptHash compareHash alike [] [] ((service rt).handler request)
      ((service (rt.withBcrypt bcryptHash compareHash)).handler request) := by
  show SideBySide _ _ _ _ _ _ (handler rt request) (handler _ request)
  unfold handler
  cases request.route.roles with
  | none => exact sideBySide_routeHandler h _ request.body request.route
  | some roles =>
      cases request.token with
      | missing => exact sideBySide_done uncreated_nil uncreated_nil _
      | invalid => exact sideBySide_done uncreated_nil uncreated_nil _
      | verified claims =>
          show SideBySide _ _ _ _ _ _ (if _ then _ else _) (if _ then _ else _)
          split
          · exact sideBySide_done uncreated_nil uncreated_nil _
          · exact sideBySide_routeHandler h claims request.body request.route

end Alike

/-- A request in the two executions: it waits in both, or it is answered in both, with the same
response if and only if the row it has created, if any, has the same hash. -/
def AnsweredAlike (t t' : UserThread) : Prop :=
  t.request = t'.request ∧
    match t.code, t'.code with
    | .done result, .done result' =>
        result = result' ↔ createdHashes t.trace = createdHashes t'.trace
    | .await _ _, .await _ _ => True
    | _, _ => False

/-- Any run of the service, and the same moves in an execution in which the hashes are other strings
that bcrypt gives the same answers about: they run, and the responses are the same but for the
requests that have created a row with another hash. -/
theorem responses_same_iff (rt : Runtime) (bcryptHash : String → Nat → String)
    (compareHash : String → String → Bool) (alike : String → String → Prop)
    (h : HashesAlike rt (rt.withBcrypt bcryptHash compareHash) alike) (users users' : UsersTable)
    (husers : UsersAlike alike users users') (moves : List UserMove) (p : UserPool)
    (hrun : (service rt).machine.run (Service.start users) moves = some p) :
    ∃ p', (service (rt.withBcrypt bcryptHash compareHash)).machine.run (Service.start users') moves =
        some p' ∧ List.Forall₂ AnsweredAlike p.threads p'.threads := by
  obtain ⟨p', hrun', hlockstep⟩ := Service.mirrored_run (fun _ _ _ _ _ => rfl) (sideBySide_handler h)
    (fun users users' op op' env husers hop => by
      have hsame := exec_alike h husers hop env
      exact ⟨hsame.answers, hsame.users⟩) husers hrun
  refine ⟨p', hrun', hlockstep.threads.imp fun t t' hmirrored => ⟨hmirrored.request, ?_⟩⟩
  have hmirrors := hmirrored.code
  cases hcode : t.code with
  | done result =>
      cases hcode' : t'.code with
      | done result' =>
          rw [hcode, hcode'] at hmirrors
          exact hmirrors
      | await op' resume' =>
          rw [hcode, hcode'] at hmirrors
          exact hmirrors
  | await op resume =>
      cases hcode' : t'.code with
      | done result' =>
          rw [hcode, hcode'] at hmirrors
          exact hmirrors
      | await op' resume' => trivial

/-! ### A registration in two executions -/

/-- Another way to write a hash. -/
def markChar (c : Char) : Char := if c = '$' then '#' else if c = '#' then '$' else c

def mark (hash : String) : String := String.ofList (hash.toList.map markChar)

theorem markChar_markChar (c : Char) : markChar (markChar c) = c := by
  unfold markChar
  split_ifs <;> simp_all

theorem markChar_eq_iff {c d : Char} (hdollar : d ≠ '$') (hhash : d ≠ '#') :
    markChar c = d ↔ c = d := by
  unfold markChar
  split_ifs with hc hc'
  · rw [hc]
    exact iff_of_false hhash.symm hdollar.symm
  · rw [hc']
    exact iff_of_false hdollar.symm hhash.symm
  · rfl

theorem mark_mark (hash : String) : mark (mark hash) = hash := by
  have hid : markChar ∘ markChar = id := funext markChar_markChar
  rw [mark, mark, String.toList_ofList, List.map_map, hid, List.map_id, String.ofList_toList]

theorem toList_mark (hash : String) : (mark hash).toList = hash.toList.map markChar :=
  String.toList_ofList

theorem varchar_mark (hash : String) : varchar (mark hash) = (varchar hash).map mark := by
  have hnul : (mark hash).toList.contains (Char.ofNat 0) = hash.toList.contains (Char.ofNat 0) := by
    rw [Bool.eq_iff_iff, List.contains_iff_mem, List.contains_iff_mem, toList_mark, List.mem_map]
    constructor
    · intro h
      obtain ⟨c, hc, heq⟩ := h
      rwa [(markChar_eq_iff (by decide) (by decide)).mp heq] at hc
    · intro h
      exact ⟨_, h, rfl⟩
  have hlength : (mark hash).toList.length = hash.toList.length := by
    rw [toList_mark, List.length_map]
  have hblanks : ((mark hash).toList.drop 255).all (· == ' ') =
      (hash.toList.drop 255).all (· == ' ') := by
    rw [toList_mark, ← List.map_drop, List.all_map]
    congr 1
    funext c
    exact Bool.eq_iff_iff.mpr (by simpa using markChar_eq_iff (by decide) (by decide))
  have hcut : String.ofList ((mark hash).toList.take 255) =
      mark (String.ofList (hash.toList.take 255)) := by
    rw [toList_mark, ← List.map_take, mark, String.toList_ofList]
  unfold varchar
  rw [hnul, hlength, hblanks, hcut]
  split_ifs <;> rfl

theorem hashesAlike_mark (rt : Runtime) :
    HashesAlike rt (rt.withBcrypt (fun data salt => mark (rt.bcryptHash data salt))
      fun data hash => rt.compareSync data (mark hash)) (fun hash hash' => hash' = mark hash) where
  hash _ _ := rfl
  compare hash hash' halike data := by
    show _ = rt.compareSync data (mark hash')
    rw [halike, mark_mark]
  stored hash hash' halike := by
    rw [halike, varchar_mark]
    cases varchar hash with
    | none => exact .none
    | some stored => exact .some rfl
  unchanged hash hash' halike data salt := by
    show _ ↔ mark (rt.bcryptHash data salt) = hash'
    rw [halike]
    constructor
    · exact congrArg mark
    · intro heq
      rw [← mark_mark (rt.bcryptHash data salt), heq, mark_mark]

/-- The libraries with the other way to write a hash. -/
def marked : Runtime :=
  plain.withBcrypt (fun data salt => mark (plain.bcryptHash data salt))
    fun data hash => plain.compareSync data (mark hash)

/-- The same users; their hashes are written in the other way. -/
def adaAndEveMarked : UsersTable :=
  ⟨[{ ada with password := "17#lovelace" }, { eve with password := "17#secret" }], 3, by decide,
    by decide, adaAndEve.bounded⟩

theorem adaAndEve_alike : UsersAlike (fun hash hash' => hash' = mark hash) adaAndEve adaAndEveMarked :=
  ⟨.cons ⟨rfl, by decide⟩ (.cons ⟨rfl, by decide⟩ .nil), rfl⟩

/-- Ada asks for all users, and somebody registers. -/
def listAndRegister : List UserMove :=
  [.arrive ⟨.getAll, ada.token, .undefined⟩,
    .arrive ⟨.registerUser, .missing, .object [("name", .string "Lin"),
      ("email", .string "lin@books.org"), ("password", .string "meadow")]⟩,
    .resume 1 .calm, .resume 1 .calm, .resume 0 .calm]

theorem responses_same_iff_listAndRegister :
    ∃ p p', (service plain).machine.run (Service.start adaAndEve) listAndRegister = some p ∧
      (service marked).machine.run (Service.start adaAndEveMarked) listAndRegister = some p' ∧
      p.threads.map (fun t => createdHashes t.trace) = [[], ["17$meadow"]] ∧
      List.Forall₂ AnsweredAlike p.threads p'.threads := by
  obtain ⟨p', hrun', halike⟩ := responses_same_iff plain _ _ _ (hashesAlike_mark plain) adaAndEve
    adaAndEveMarked adaAndEve_alike listAndRegister _ rfl
  exact ⟨_, p', rfl, hrun', by decide, halike⟩

/-- The response to a registration is not the same where the hash of the new row is another one. -/
theorem not_responses_same : ¬ ∀ (rt : Runtime) (bcryptHash : String → Nat → String)
    (compareHash : String → String → Bool) (alike : String → String → Prop),
    HashesAlike rt (rt.withBcrypt bcryptHash compareHash) alike →
    ∀ users users', UsersAlike alike users users' → ∀ (moves : List UserMove) (p p' : UserPool),
      (service rt).machine.run (Service.start users) moves = some p →
      (service (rt.withBcrypt bcryptHash compareHash)).machine.run (Service.start users') moves =
        some p' →
      ∀ (index : Nat) t t' result result', p.threads[index]? = some t → p'.threads[index]? = some t' →
        t.code = .done result → t'.code = .done result' → result = result' := by
  intro h
  have hsame := h plain _ _ _ (hashesAlike_mark plain) adaAndEve adaAndEveMarked adaAndEve_alike
    listAndRegister _ _ rfl rfl 1 _ _ _ _ rfl rfl rfl rfl
  injection hsame with hresponse
  have hbody := congrArg (fun response => response.body.property "password") hresponse
  have hhash : JsValue.string "17$meadow" = .string "17#meadow" := hbody
  exact absurd (JsValue.string.inj hhash) (by decide)

end BookHub.UserService
