import BookHub.Auth.KeyCache

/-!
# What an accepted token has gone through

A request that an authenticator of the book or media service accepts has had its payload decoded with a
key that was read from the cache of the service, at a time that was read from the clock. What a cache
holds has been published by the auth service, so the key is that of one of its processes.
-/

namespace BookHub.Auth

open BookService (JwtUser)
open Coroutine (Concludes concludes_trivial concludes_throw concludes_perform concludes_bind
  concludes_done_bind concludes_tryCatch)

/-! ### Accepted requests -/

section Handler

variable {PublicKey : Type} (py : Python PublicKey) (audience : Option String)

/-- The payload that the library has given for the token, and with what. -/
structure Decoded (token : String) (trace : List (authSig.Event PyException)) (payload : Claims)
    (publicKey : PublicKey) (now : Int) : Prop where
  read : ∃ verifier keys kid jwk, ⟨.getCached verifier, .ok keys⟩ ∈ trace ∧
    getSigningKey py keys kid = .ok jwk ∧ buildRsaKey py jwk = .ok publicKey
  clock : ⟨.now, .ok now⟩ ∈ trace
  decode : py.decode token publicKey audience now = .ok payload

/-- What an authenticator asks of the claims. -/
def Admits (payload : Claims) : Request → Option JwtUser → Prop
  | .user _ _, result => ∃ user, result = some user ∧
      jwtUser (payload.get "sub") (payload.get "name") (payload.get "email") (payload.get "role") =
        .ok user
  | .service _, result => result = none ∧ truthy py (payload.get "azp") = true ∧
      py.eq (payload.get "azp") (.str "book-service") = true

/-- The request was accepted for what its token says. -/
def Accepted (request : Request) (trace : List (authSig.Event PyException)) (result : Option JwtUser) :
    Prop :=
  ∃ payload publicKey now, Decoded py audience request.token trace payload publicKey now ∧
    Admits py payload request result

end Handler

section Handler

variable {PublicKey : Type} {py : Python PublicKey} {audience : Option String} {token : String}

theorem concludes_getJwks (verifier : Verifier) (trace : List (authSig.Event PyException)) :
    Concludes (fun trace' keys => ⟨.getCached verifier, .ok keys⟩ ∈ trace') trace
      (getJwks py verifier) := by
  have hread : ∀ trace', Concludes (fun trace' keys => ⟨.getCached verifier, .ok keys⟩ ∈ trace') trace'
      (call (.getCached verifier)) := fun trace' =>
    concludes_perform fun keys => List.mem_append_right _ (List.mem_singleton_self _)
  unfold getJwks
  apply concludes_bind (concludes_trivial _)
  intro cached trace' _
  split
  · exact hread trace'
  · exact concludes_bind (concludes_trivial _) fun _ trace'' _ => hread trace''

theorem concludes_verifiedPayload (verifier : Verifier) (trace : List (authSig.Event PyException)) :
    Concludes (fun trace' payload => ∃ publicKey now,
      Decoded py audience token trace' payload publicKey now) trace
      (verifiedPayload py verifier audience token) := by
  unfold verifiedPayload
  apply concludes_done_bind
  intro header _
  apply concludes_bind (concludes_trivial _)
  intro _ trace' _
  apply concludes_bind (concludes_getJwks verifier trace')
  intro keys trace' hkeys
  apply concludes_done_bind
  intro signingKey hsigning
  apply concludes_done_bind
  intro publicKey hpublic
  rintro (err | now) -
  · exact concludes_throw err
  · intro payload hpayload
    refine ⟨publicKey, now, ⟨verifier, keys, _, signingKey, ?_, hsigning, hpublic⟩, ?_, ?_⟩
    · exact List.mem_append_left _ hkeys
    · exact List.mem_append_right _ (List.mem_singleton_self _)
    · cases hdecode : py.decode token publicKey audience now with
      | error err =>
          rw [hdecode] at hpayload
          cases hpayload
      | ok decoded =>
          rw [hdecode] at hpayload
          cases hpayload
          rfl

theorem concludes_rethrow {α : Type} {post : List (authSig.Event PyException) → α → Prop}
    (err : PyException) (trace : List (authSig.Event PyException)) :
    Concludes post trace (rethrow err : AuthM α) := by
  unfold rethrow
  split <;> exact concludes_throw _

/-- A value that is required to be there is there, and the trace is as it was. -/
theorem concludes_require (value : Json) (err : PyException) (trace : List (authSig.Event PyException)) :
    Concludes (fun trace' _ => trace' = trace ∧ truthy py value = true) trace (require py value err) := by
  unfold require
  split
  · rename_i htruthy
    exact fun _ _ => ⟨rfl, htruthy⟩
  · exact concludes_throw err

theorem concludes_authenticate (request : Request) :
    Concludes (Accepted py audience request) [] (authenticate py audience request) := by
  cases request with
  | user verifier token =>
      have huser : Concludes (fun trace user => Accepted py audience (.user verifier token) trace (some user))
          [] (getCurrentUser py verifier audience token) := by
        apply concludes_tryCatch _ concludes_rethrow
        apply concludes_bind (concludes_verifiedPayload verifier [])
        rintro payload trace ⟨publicKey, now, hdecoded⟩
        apply concludes_bind (concludes_require _ _ trace)
        rintro _ trace ⟨rfl, -⟩ user huser
        exact ⟨payload, publicKey, now, hdecoded, user, rfl, huser⟩
      apply concludes_bind huser
      rintro user trace haccepted _ ⟨⟩
      exact haccepted
  | service token =>
      have hservice : Concludes (fun trace _ => Accepted py audience (.service token) trace none) []
          (getServiceAuth py audience token) := by
        apply concludes_tryCatch _ concludes_rethrow
        apply concludes_bind (concludes_verifiedPayload .book [])
        rintro payload trace ⟨publicKey, now, hdecoded⟩
        apply concludes_bind (concludes_require _ _ trace)
        rintro _ trace ⟨rfl, -⟩
        apply concludes_bind (concludes_require _ _ trace)
        rintro _ trace ⟨rfl, htruthy⟩
        split
        · rename_i htarget
          exact fun _ _ => ⟨payload, publicKey, now, hdecoded, rfl, htruthy, htarget⟩
        · exact concludes_throw _
      apply concludes_bind hservice
      rintro _ trace haccepted _ ⟨⟩
      exact haccepted

end Handler

/-! ### Where the keys come from -/

section Deployment

variable {PublicKey : Type} (py : Python PublicKey) (audience : Option String)

/-- A request in progress has read keys of processes that have run, stores what it fetched, and will be
accepted for what its token says only. -/
structure Sourced (s : World) (t : Thread authSig PyException Request (Option JwtUser)) : Prop where
  fetched : ∀ body, ⟨.fetchJwks, .ok (.body (some body))⟩ ∈ t.trace → ∃ key ∈ s.keys, body = key.jwks
  read : ∀ verifier keys, ⟨.getCached verifier, .ok keys⟩ ∈ t.trace → ∃ key ∈ s.keys, keys = key.keys
  stores : Stores t.trace t.code
  accepted : Concludes (Accepted py audience t.request) t.trace t.code

structure Sound (p : AuthPool) : Prop where
  consistent : Consistent p.store
  threads : ∀ t ∈ p.threads, Sourced py audience p.store t

variable {py audience} {s s' : World} {t : Thread authSig PyException Request (Option JwtUser)}

theorem sound_start (clock : Int) (key : RsaKey) :
    Sound py audience (Service.start (World.start clock key)) where
  consistent := consistent_start clock key
  threads _ ht := absurd ht List.not_mem_nil

theorem Sourced.mono (h : Sourced py audience s t) (hkeys : ∀ key ∈ s.keys, key ∈ s'.keys) :
    Sourced py audience s' t where
  fetched body hbody := by
    obtain ⟨key, hkey, hjwks⟩ := h.fetched body hbody
    exact ⟨key, hkeys key hkey, hjwks⟩
  read verifier keys hread := by
    obtain ⟨key, hkey, hsame⟩ := h.read verifier keys hread
    exact ⟨key, hkeys key hkey, hsame⟩
  stores := h.stores
  accepted := h.accepted

theorem sourced_spawn (request : Request) :
    Sourced py audience s ((verifiers py audience).spawn request) where
  fetched _ hbody := absurd hbody List.not_mem_nil
  read _ _ hread := absurd hread List.not_mem_nil
  stores := stores_authenticate request audience []
  accepted := concludes_authenticate request

theorem sourced_advance (hs : Consistent s) (h : Sourced py audience s t) {op : AuthOp}
    {resume : Except PyException (authSig.Answer op) → AuthM (Option JwtUser)}
    (hcode : t.code = .await op resume) (env : Option JwksFailure) :
    Sourced py audience (s.exec op env).2 (Service.advance t op resume (s.exec op env).1) where
  fetched body hbody := by
    rw [keys_exec]
    obtain hbody | hbody := List.mem_append.mp hbody
    · exact h.fetched body hbody
    · cases op with
      | fetchJwks =>
          cases env with
          | none =>
              cases List.mem_singleton.mp hbody
              exact ⟨s.issuer, List.mem_cons_self, rfl⟩
          | some failure => cases List.mem_singleton.mp hbody
      | _ => cases List.mem_singleton.mp hbody
  read verifier keys hread := by
    rw [keys_exec]
    obtain hread | hread := List.mem_append.mp hread
    · exact h.read verifier keys hread
    · cases op with
      | getCached service =>
          cases hlookup : s.lookup service with
          | none =>
              simp only [World.exec, hlookup, Option.elim_none] at hread
              cases List.mem_singleton.mp hread
          | some entry =>
              simp only [World.exec, hlookup, Option.elim_some] at hread
              cases List.mem_singleton.mp hread
              exact hs.cached _ entry (World.lookup_eq_some hlookup).1
      | _ => cases List.mem_singleton.mp hread
  stores := by
    have hstores := h.stores
    rw [hcode] at hstores
    exact hstores.2 _ trivial
  accepted := by
    have haccepted := h.accepted
    rw [hcode] at haccepted
    exact haccepted _ trivial

/-- A request stores the keys of a process that has run. -/
theorem Sourced.put (h : Sourced py audience s t) {op : AuthOp}
    {resume : Except PyException (authSig.Answer op) → AuthM (Option JwtUser)}
    (hcode : t.code = .await op resume) (verifier : Verifier) (keys : Json)
    (hop : op = .putCached verifier keys) : ∃ key ∈ s.keys, keys = key.keys := by
  subst hop
  have hstores := h.stores
  rw [hcode] at hstores
  obtain ⟨⟨body, hbody, hitem⟩, -⟩ := hstores
  obtain ⟨key, hkey, rfl⟩ := h.fetched body hbody
  exact ⟨key, hkey, (Except.ok.inj hitem).symm⟩

theorem sound_step {p p' : AuthPool} {label : Label} (h : Sound py audience p)
    (hmove : (deployment py audience).step p label = some p') : Sound py audience p' := by
  cases label with
  | restart key =>
      obtain ⟨⟨hnew, -⟩, hp'⟩ := Option.ite_none_right_eq_some.mp hmove
      cases hp'
      refine ⟨h.consistent.restart hnew, fun t ht => ?_⟩
      exact (h.threads t ht).mono fun old hold => List.mem_cons_of_mem key hold
  | tick seconds =>
      cases hmove
      refine ⟨⟨h.consistent.distinct, h.consistent.cached⟩, fun t ht => ?_⟩
      exact (h.threads t ht).mono fun key hkey => hkey
  | serve move =>
      cases move with
      | arrive request =>
          obtain ⟨-, rfl⟩ := (verifiers py audience).step_arrive hmove
          refine ⟨h.consistent, fun t ht => ?_⟩
          obtain ht | ht := List.mem_append.mp ht
          · exact h.threads t ht
          · rw [List.mem_singleton.mp ht]
            exact sourced_spawn request
      | resume index env =>
          obtain ⟨t, op, resume, ht, hcode, rfl⟩ := (verifiers py audience).step_resume hmove
          have hthread := h.threads t (List.mem_of_getElem? ht)
          refine ⟨h.consistent.exec env (hthread.put hcode), fun u hu => ?_⟩
          obtain hu | rfl := List.mem_or_eq_of_mem_set hu
          · apply (h.threads u hu).mono
            intro key hkey
            exact (keys_exec op env).symm ▸ hkey
          · exact sourced_advance h.consistent hthread hcode env

/-- The only key among the published ones is the one they are of. -/
theorem eq_of_getSigningKey {key : RsaKey} {kid jwk : Json}
    (h : getSigningKey py key.keys kid = .ok jwk) : jwk = key.jwk := by
  have hkeys : getSigningKey py key.keys kid = if py.eq (.str key.kid) kid then .ok key.jwk
      else .error (.http 401 "Invalid token: unknown key ID") := rfl
  rw [hkeys] at h
  split at h
  · exact (Except.ok.inj h).symm
  · cases h

/-- An accepted token was decoded with the key of a process that has run. -/
theorem Sourced.signed (h : Sourced py audience s t) {result : Option JwtUser}
    (hcode : t.code = .done (.ok result)) :
    ∃ key ∈ s.keys, ∃ payload publicKey now, buildRsaKey py key.jwk = .ok publicKey ∧
      ⟨.now, .ok now⟩ ∈ t.trace ∧ py.decode t.request.token publicKey audience now = .ok payload ∧
      Admits py payload t.request result := by
  have haccepted := h.accepted
  rw [hcode] at haccepted
  obtain ⟨payload, publicKey, now, hdecoded, hadmits⟩ := haccepted result rfl
  obtain ⟨verifier, keys, kid, jwk, hread, hsigning, hbuild⟩ := hdecoded.read
  obtain ⟨key, hkey, rfl⟩ := h.read verifier keys hread
  rw [eq_of_getSigningKey hsigning] at hbuild
  exact ⟨key, hkey, payload, publicKey, now, hbuild, hdecoded.clock, hdecoded.decode, hadmits⟩

end Deployment

end BookHub.Auth
