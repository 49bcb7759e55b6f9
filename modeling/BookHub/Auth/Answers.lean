import BookHub.Auth.Deployment

/-!
# What an authenticator makes of the answers

A request with a token of some key goes through when the keys it reads are those, and fails at once
when it reads the keys of another process, or when the entry has gone. What it stores in the cache, it
has fetched.
-/

namespace BookHub.Auth

open BookService (JwtUser)
open Coroutine (Reaches Fails Issues reaches_bind reaches_tryCatch fails_done fails_bind fails_tryCatch
  issues_done issues_bind issues_tryCatch)

/-! ### Answers -/

/-- The next access of the cache is that of the log line. -/
def logging (trace : List (authSig.Event PyException)) : Bool :=
  match trace.getLast? with
  | some ⟨.putCached _ _, _⟩ => true
  | _ => false

@[simp] theorem logging_append (trace : List (authSig.Event PyException))
    (event : authSig.Event PyException) : logging (trace ++ [event]) = logging [event] := by
  simp only [logging, List.getLast?_concat, List.getLast?_singleton]

/-- Answers with which a token of this key goes through, if it expires at that time. -/
def Good (key : RsaKey) (expires : Int) (trace : List (authSig.Event PyException)) :
    (op : AuthOp) → Except PyException (authSig.Answer op) → Prop
  | .cached _, answer => ∃ cached : Bool, answer = .ok cached
  | .getCached _, answer => ∃ keys, answer = .ok keys ∧ (logging trace = false → keys = key.keys)
  | .putCached _ _, answer => answer = .ok ()
  | .fetchJwks, answer => answer = .ok (.body (some key.jwks))
  | .now, answer => ∃ now : Int, answer = .ok now ∧ now < expires

/-- Answers with which a token that names this key is refused: the entry is gone, or has another key. -/
def Bad (kid : String) (trace : List (authSig.Event PyException)) :
    (op : AuthOp) → Except PyException (authSig.Answer op) → Prop
  | .getCached _, answer =>
      answer = .error .keyError ∨
        logging trace = false ∧ ∃ other : RsaKey, other.kid ≠ kid ∧ answer = .ok other.keys
  | _, _ => False

section Handler

variable {PublicKey : Type} {py : Python PublicKey} {token : String} {jwt : Jwt} {key : PublicKey}

theorem getSigningKey_keys (key : RsaKey) :
    getSigningKey py key.keys (.str key.kid) = .ok key.jwk := by
  show (if py.eq (.str key.kid) (.str key.kid) then _ else _) = _
  rw [py.eq_str, if_pos (beq_self_eq_true key.kid)]
  rfl

theorem getSigningKey_other {key : RsaKey} {kid : String} (h : key.kid ≠ kid) :
    getSigningKey py key.keys (.str kid) = .error (.http 401 "Invalid token: unknown key ID") := by
  show (if py.eq (.str key.kid) (.str kid) then _ else _) = _
  rw [py.eq_str, if_neg (by simpa using h)]
  rfl

/-! ### Good answers -/

theorem reaches_getJwks (key : RsaKey) (expires : Int) (verifier : Verifier)
    (trace : List (authSig.Event PyException)) :
    Reaches (Good key expires) (fun keys => keys = key.keys) trace (getJwks py verifier) := by
  intro answer hanswer
  obtain ⟨cached, rfl⟩ := hanswer
  cases cached with
  | true =>
      intro read hread
      obtain ⟨keys, rfl, hkeys⟩ := hread
      exact ⟨keys, rfl, hkeys (logging_append _ _)⟩
  | false =>
      -- fetched, stored, read for the log line, read
      intro response hresponse
      subst hresponse
      intro stored hstored
      subst hstored
      intro line hline
      obtain ⟨_, rfl, -⟩ := hline
      intro read hread
      obtain ⟨keys, rfl, hkeys⟩ := hread
      exact ⟨keys, rfl, hkeys (logging_append _ _)⟩

/-- The header of such a token names its key, and the rest is done with the keys. -/
theorem verifiedPayload_of_reads (h : PythonReads py token jwt key) (verifier : Verifier)
    (audience : Option String) :
    verifiedPayload py verifier audience token = (do
      let jwks ← getJwks py verifier
      let signingKey ← Coroutine.done (getSigningKey py jwks (.str jwt.key.kid))
      let publicKey ← Coroutine.done (buildRsaKey py signingKey)
      let now ← call .now
      Coroutine.done ((py.decode token publicKey audience now).mapError .jose)) := by
  obtain ⟨header, hheader, hkid⟩ := h.header
  have htruthy : truthy py (.str jwt.key.kid) = true := decide_eq_true jwt.key.kid_ne
  unfold verifiedPayload require
  simp only [hheader, Except.mapError, Coroutine.ok_bind, hkid, htruthy, if_true, Coroutine.pure_eq]

theorem reaches_verifiedPayload (h : PythonReads py token jwt key)
    (hbuild : buildRsaKey py jwt.key.jwk = .ok key) (verifier : Verifier)
    (trace : List (authSig.Event PyException)) :
    Reaches (Good jwt.key jwt.expires) (fun payload => payload = jwt.payload) trace
      (verifiedPayload py verifier jwt.audience token) := by
  rw [verifiedPayload_of_reads h]
  apply reaches_bind (reaches_getJwks jwt.key jwt.expires verifier trace)
  intro keys trace' hkeys
  rw [hkeys, getSigningKey_keys]
  simp only [Coroutine.ok_bind, hbuild]
  intro answer hanswer
  obtain ⟨now, rfl, hnow⟩ := hanswer
  refine ⟨jwt.payload, ?_, rfl⟩
  rw [h.accepted now hnow]
  rfl

end Handler

/-- What the services know of a user. -/
def User.verified (user : User) : JwtUser := ⟨toString user.id, user.name, user.email, user.role⟩

theorem verified_id_ne (user : User) : user.verified.id ≠ "" := by
  show toString user.id ≠ ""
  cases user.id with
  | ofNat n => exact Nat.repr_ne_empty
  | negSucc n => exact fun h => Nat.repr_ne_empty (String.append_eq_empty_iff.mp h).2

section Handler

variable {PublicKey : Type} {py : Python PublicKey} {token : String} {key : PublicKey}
  {service : TokenService} {issuedAt : Int} {user : User}

theorem reaches_getCurrentUser
    (h : PythonReads py token (service.generateUserToken issuedAt user) key)
    (hbuild : buildRsaKey py service.key.jwk = .ok key) (verifier : Verifier)
    (trace : List (authSig.Event PyException)) :
    Reaches (Good service.key (issuedAt + 3600)) (fun jwtUser => jwtUser = user.verified) trace
      (getCurrentUser py verifier service.audience token) := by
  obtain ⟨hsub, hname, hemail, hrole, -⟩ := service.get_userToken issuedAt user
  apply reaches_tryCatch
  apply reaches_bind (reaches_verifiedPayload h hbuild verifier trace)
  intro payload trace' hpayload
  subst hpayload
  have hid : Claims.get (service.generateUserToken issuedAt user).payload "sub" =
      .str user.verified.id := hsub
  have htruthy : truthy py (.str user.verified.id) = true := decide_eq_true (verified_id_ne user)
  unfold require
  simp only [hid, hname, hemail, hrole, htruthy, if_true]
  exact ⟨user.verified, rfl, rfl⟩

theorem reaches_authenticate (service : TokenService)
    (h : PythonReads py token (service.generateUserToken issuedAt user) key)
    (hbuild : buildRsaKey py service.key.jwk = .ok key) (verifier : Verifier)
    (trace : List (authSig.Event PyException)) :
    Reaches (Good service.key (issuedAt + 3600)) (fun result => result = some user.verified) trace
      (authenticate py service.audience (.user verifier token)) := by
  apply reaches_bind (reaches_getCurrentUser h hbuild verifier trace)
  intro jwtUser trace' hjwtUser
  exact ⟨some jwtUser, rfl, congrArg some hjwtUser⟩

end Handler

/-! ### Bad answers -/

section Handler

variable {PublicKey : Type} {py : Python PublicKey} {token kid : String} {jwt : Jwt} {key : PublicKey}

theorem fails_storeKeys (verifier : Verifier) (response : JwksResponse)
    (trace : List (authSig.Event PyException)) :
    Fails (Bad kid) trace (storeKeys py verifier response) := by
  cases response with
  | failed failure => cases failure <;> trivial
  | body json =>
      apply fails_tryCatch _ fun err => ⟨_, rfl⟩
      apply fails_bind (fails_done _)
      intro body _
      apply fails_bind (fails_done _)
      intro keys trace' answer
      refine ⟨False.elim, ?_⟩
      cases answer with
      | error err => trivial
      | ok _ =>
          intro read
          constructor
          · intro hbad
            obtain rfl | ⟨hlogging, -⟩ := hbad
            · exact ⟨_, rfl⟩
            · rw [logging_append] at hlogging
              cases hlogging
          · cases read <;> trivial

/-- A handler that cannot use the keys of another process fails when it reads them. -/
theorem fails_getJwks {α : Type} {next : Json → AuthM α}
    (hnext : ∀ keys trace, Fails (Bad kid) trace (next keys))
    (hother : ∀ other : RsaKey, other.kid ≠ kid → ∃ err, next other.keys = .done (.error err))
    (verifier : Verifier) (trace : List (authSig.Event PyException)) :
    Fails (Bad kid) trace (getJwks py verifier >>= next) := by
  have hread : ∀ trace', Fails (Bad kid) trace' (call (.getCached verifier) >>= next) := by
    intro trace' answer
    constructor
    · intro hbad
      obtain rfl | ⟨-, other, hne, rfl⟩ := hbad
      · exact ⟨.keyError, rfl⟩
      · exact hother other hne
    · cases answer with
      | error err => trivial
      | ok keys => exact hnext keys _
  intro answer
  refine ⟨False.elim, ?_⟩
  cases answer with
  | error err => trivial
  | ok cached =>
      cases cached with
      | true => exact hread _
      | false =>
          show Fails (Bad kid) _
            ((fetchKeys py verifier >>= fun _ => call (.getCached verifier)) >>= next)
          rw [Coroutine.bind_assoc]
          apply fails_bind _ fun _ => hread
          intro response
          refine ⟨False.elim, ?_⟩
          cases response with
          | error err => trivial
          | ok response => exact fails_storeKeys verifier response _

theorem fails_verifiedPayload (h : PythonReads py token jwt key) (verifier : Verifier)
    (audience : Option String) (trace : List (authSig.Event PyException)) :
    Fails (Bad jwt.key.kid) trace (verifiedPayload py verifier audience token) := by
  rw [verifiedPayload_of_reads h]
  apply fails_getJwks
  · intro keys trace'
    apply fails_bind (fails_done _)
    intro signingKey _
    apply fails_bind (fails_done _)
    intro publicKey _ answer
    refine ⟨False.elim, ?_⟩
    cases answer <;> trivial
  · intro other hne
    rw [getSigningKey_other hne]
    exact ⟨_, rfl⟩

theorem fails_authenticate (h : PythonReads py token jwt key) (verifier : Verifier)
    (audience : Option String) (trace : List (authSig.Event PyException)) :
    Fails (Bad jwt.key.kid) trace (authenticate py audience (.user verifier token)) := by
  apply fails_bind
  · apply fails_tryCatch
    · apply fails_bind (fails_verifiedPayload h verifier audience trace)
      intro payload _
      apply fails_bind
      · unfold require
        split <;> trivial
      · exact fun _ _ => trivial
    · intro err
      unfold rethrow
      split <;> exact ⟨_, rfl⟩
  · exact fun _ _ => trivial

/-! ### What is stored -/

/-- Keys that are stored were fetched. -/
def StoresFetched (trace : List (authSig.Event PyException)) : AuthOp → Prop
  | .putCached _ keys => ∃ body, ⟨.fetchJwks, .ok (.body (some body))⟩ ∈ trace ∧
      item "keys" body = .ok keys
  | _ => True

abbrev Stores {α : Type} (trace : List (authSig.Event PyException)) (c : AuthM α) : Prop :=
  Issues (fun _ _ => True) StoresFetched trace c

theorem stores_fetchKeys (verifier : Verifier) (trace : List (authSig.Event PyException)) :
    Stores trace (fetchKeys py verifier) := by
  refine ⟨trivial, fun response _ => ?_⟩
  cases response with
  | error err => trivial
  | ok response =>
      cases response with
      | failed failure => cases failure <;> trivial
      | body json =>
          apply issues_tryCatch
          · cases json with
            | none => trivial
            | some body =>
                show Stores _ (Coroutine.done (item "keys" body) >>= _)
                cases hkeys : item "keys" body with
                | error err => trivial
                | ok keys =>
                    refine ⟨⟨body, List.mem_append_right _ (List.mem_singleton_self _), hkeys⟩, ?_⟩
                    intro answer _
                    cases answer with
                    | error err => trivial
                    | ok _ => exact ⟨trivial, fun read _ => by cases read <;> trivial⟩
          · exact fun _ _ => trivial

theorem stores_verifiedPayload (verifier : Verifier) (audience : Option String)
    (trace : List (authSig.Event PyException)) :
    Stores trace (verifiedPayload py verifier audience token) := by
  have hread : ∀ trace', Stores trace' (call (.getCached verifier)) := by
    intro trace'
    exact ⟨trivial, fun _ _ => trivial⟩
  have hkeys : ∀ trace', Stores trace' (getJwks py verifier) := by
    intro trace'
    refine ⟨trivial, fun answer _ => ?_⟩
    cases answer with
    | error err => trivial
    | ok cached =>
        cases cached with
        | true => exact hread _
        | false =>
            show Stores _ (fetchKeys py verifier >>= fun _ => call (.getCached verifier))
            exact issues_bind (stores_fetchKeys verifier _) fun _ => hread
  apply issues_bind (issues_done _)
  intro header _
  apply issues_bind
  · unfold require
    split <;> trivial
  intro _ trace'
  apply issues_bind (hkeys trace')
  intro keys _
  apply issues_bind (issues_done _)
  intro signingKey _
  apply issues_bind (issues_done _)
  intro publicKey _
  exact ⟨trivial, fun answer _ => by cases answer <;> trivial⟩

theorem stores_authenticate (request : Request) (audience : Option String)
    (trace : List (authSig.Event PyException)) : Stores trace (authenticate py audience request) := by
  have hrequire : ∀ value err trace', Stores trace' (require py value err) := by
    intro value err trace'
    unfold require
    split <;> trivial
  have hrethrow : ∀ {α : Type} (err : PyException) trace', Stores trace' (rethrow err : AuthM α) := by
    intro α err trace'
    unfold rethrow
    split <;> trivial
  cases request with
  | user verifier token =>
      apply issues_bind
      · apply issues_tryCatch _ hrethrow
        apply issues_bind (stores_verifiedPayload verifier audience trace)
        intro payload _
        exact issues_bind (hrequire _ _ _) fun _ _ => issues_done _
      · exact fun _ _ => issues_done _
  | service token =>
      apply issues_bind
      · apply issues_tryCatch _ hrethrow
        apply issues_bind (stores_verifiedPayload .book audience trace)
        intro payload _
        apply issues_bind (hrequire _ _ _)
        intro _ _
        apply issues_bind (hrequire _ _ _)
        intro _ _
        split <;> trivial
      · exact fun _ _ => issues_done _

end Handler

end BookHub.Auth
