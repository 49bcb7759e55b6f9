import BookHub.Auth.Answers

/-!
# Fresh tokens and the cached keys

A request takes the keys from the cache of its service, and nothing takes an entry out of the cache
before its hour is over: the key of a token that the cached keys lack is not looked up again. So a token
of the process that runs is accepted exactly while the requests that present one find its key in the
cache.
-/

namespace BookHub.Auth

open BookService (JwtUser)
open Coroutine (Reaches Fails)

/-! ### What holds in every state -/

/-- The endpoint has answered the requests so far. -/
def Answered (trace : List (authSig.Event PyException)) : Prop :=
  ∀ failure : JwksFailure, ⟨.fetchJwks, .ok (.failed failure)⟩ ∉ trace

theorem Answered.of_append {trace : List (authSig.Event PyException)}
    {event : authSig.Event PyException} (h : Answered (trace ++ [event])) : Answered trace :=
  fun failure hfailure => h failure (List.mem_append_left _ hfailure)

section System

variable {PublicKey : Type} (py : Python PublicKey) (issuer audience : Option String)

/-- An unexpired token of a user, signed by the process that runs; the services build the public key
that goes with it from what is published. -/
structure Fresh (s : World) (token : String) (user : User) (issuedAt : Int) (key : PublicKey) :
    Prop where
  reads : PythonReads py token
    (TokenService.generateUserToken ⟨s.issuer, issuer, audience⟩ issuedAt user) key
  built : buildRsaKey py s.issuer.jwk = .ok key
  unexpired : s.clock < issuedAt + 3600

/-- The keys have different ids, and a cache holds what was published for one of them. -/
structure Consistent (s : World) : Prop where
  distinct : (s.keys.map RsaKey.kid).Nodup
  cached : ∀ verifier entry, s.caches verifier = some entry → ∃ key ∈ s.keys, entry.keys = key.keys

/-- A request in progress has fetched published keys, stores what it fetched, fails on keys of another
process, and goes through on those of its own. -/
structure ThreadOk (s : World) (t : Thread authSig PyException Request (Option JwtUser)) : Prop where
  fetched : ∀ body, ⟨.fetchJwks, .ok (.body (some body))⟩ ∈ t.trace → ∃ key ∈ s.keys, body = key.jwks
  stores : Stores t.trace t.code
  fails : ∀ verifier token jwt key, t.request = .user verifier token → PythonReads py token jwt key →
    Fails (Bad jwt.key.kid) t.trace t.code
  reaches : ∀ verifier token user issuedAt key, t.request = .user verifier token →
    Fresh py issuer audience s token user issuedAt key → Answered t.trace →
    (∀ result, t.code ≠ .done result) →
      Reaches (Good s.issuer (issuedAt + 3600)) (fun result => result = some user.verified) t.trace
        t.code

structure Inv (p : AuthPool) : Prop where
  consistent : Consistent p.store
  threads : ∀ t ∈ p.threads, ThreadOk py issuer audience p.store t

/-! ### Steps -/

/-- The cache has an entry, with the running key in it unless the access is that of the log line. -/
def FindsCurrent (s : World) (trace : List (authSig.Event PyException)) (service : Verifier) : Prop :=
  ∃ entry, s.lookup service = some entry ∧ (logging trace = false → entry.keys = s.issuer.keys)

/-- A request with a fresh token that reads the cache finds the current keys there. -/
def ReadsCurrent (p : AuthPool) : Label → Prop
  | .serve (.resume index _) => ∀ t verifier token user issuedAt key service resume,
      p.threads[index]? = some t → t.request = .user verifier token →
      Fresh py issuer audience p.store token user issuedAt key → Answered t.trace →
      t.code = .await (.getCached service) resume → FindsCurrent p.store t.trace service
  | _ => True

/-- A request with a fresh token that ends in this step ends with its user, if the endpoint answered. -/
def Honours (p : AuthPool) (_ : Label) (p' : AuthPool) : Prop :=
  ∀ (index : Nat) t verifier token user issuedAt key result,
    p'.threads[index]? = some t → p.threads[index]? ≠ some t → t.request = .user verifier token →
    t.code = .done result → Fresh py issuer audience p'.store token user issuedAt key →
    Answered t.trace → result = .ok (some user.verified)

end System

section Steps

variable {PublicKey : Type} {py : Python PublicKey} {issuer audience : Option String} {s s' : World}
  {t : Thread authSig PyException Request (Option JwtUser)}

theorem Fresh.of_later {token : String} {user : User} {issuedAt : Int} {key : PublicKey}
    (h : Fresh py issuer audience s' token user issuedAt key) (hissuer : s'.issuer = s.issuer)
    (hclock : s.clock ≤ s'.clock) : Fresh py issuer audience s token user issuedAt key where
  reads := hissuer ▸ h.reads
  built := hissuer ▸ h.built
  unexpired := Int.lt_of_le_of_lt hclock h.unexpired

/-- What others do keeps a request as it is, when a token that is fresh afterwards was fresh before. -/
theorem ThreadOk.mono (h : ThreadOk py issuer audience s t) (hkeys : ∀ key ∈ s.keys, key ∈ s'.keys)
    (hfresh : ∀ user issuedAt key, Fresh py issuer audience s' t.request.token user issuedAt key →
      s'.issuer = s.issuer ∧ s.clock ≤ s'.clock) : ThreadOk py issuer audience s' t where
  fetched body hbody := by
    obtain ⟨key, hkey, hjwks⟩ := h.fetched body hbody
    exact ⟨key, hkeys key hkey, hjwks⟩
  stores := h.stores
  fails := h.fails
  reaches verifier token user issuedAt key hrequest hnew hanswered hrunning := by
    have htoken : t.request.token = token := congrArg Request.token hrequest
    obtain ⟨hissuer, hclock⟩ := hfresh user issuedAt key (htoken ▸ hnew)
    have hold := h.reaches verifier token user issuedAt key hrequest (hnew.of_later hissuer hclock)
      hanswered hrunning
    rwa [hissuer]

/-- The thread of a request that arrives. -/
theorem threadOk_spawn (request : Request) :
    ThreadOk py issuer audience s ((verifiers py audience).spawn request) where
  fetched body hbody := absurd hbody List.not_mem_nil
  stores := stores_authenticate request audience []
  fails verifier token jwt key hrequest hreads := by
    cases hrequest
    exact fails_authenticate hreads verifier audience []
  reaches verifier token user issuedAt key hrequest hfresh _ _ := by
    cases hrequest
    exact reaches_authenticate ⟨s.issuer, issuer, audience⟩ hfresh.reads hfresh.built verifier []

theorem keys_exec (op : AuthOp) (env : Option JwksFailure) : (s.exec op env).2.keys = s.keys := by
  obtain ⟨-, hissuer, hearlier⟩ := s.exec_frame op env
  rw [World.keys, hissuer, hearlier, World.keys]

/-- A request with a fresh token goes on through after a good read. -/
theorem reaches_advance (h : ThreadOk py issuer audience s t) {op : AuthOp}
    {resume : Except PyException (authSig.Answer op) → AuthM (Option JwtUser)}
    (hcode : t.code = .await op resume) (env : Option JwksFailure) {verifier : Verifier}
    {token : String} {user : User} {issuedAt : Int} {key : PublicKey}
    (hrequest : t.request = .user verifier token)
    (hfresh : Fresh py issuer audience s token user issuedAt key)
    (hanswered : Answered (t.trace ++ [⟨op, (s.exec op env).1⟩]))
    (hread : ∀ service, op = .getCached service → FindsCurrent s t.trace service) :
    Reaches (Good s.issuer (issuedAt + 3600)) (fun result => result = some user.verified)
      (t.trace ++ [⟨op, (s.exec op env).1⟩]) (resume (s.exec op env).1) := by
  have hrunning : ∀ result, t.code ≠ .done result := by
    intro result hdone
    rw [hcode] at hdone
    cases hdone
  have hreaches := h.reaches verifier token user issuedAt key hrequest hfresh hanswered.of_append
    hrunning
  rw [hcode] at hreaches
  apply hreaches
  cases op with
  | cached service => exact ⟨_, rfl⟩
  | getCached service =>
      obtain ⟨entry, hentry, hkeys⟩ := hread service rfl
      refine ⟨entry.keys, ?_, hkeys⟩
      show (s.lookup service).elim _ _ = _
      rw [hentry]
      rfl
  | putCached service keys => rfl
  | fetchJwks =>
      cases env with
      | none => rfl
      | some failure =>
          exact absurd (List.mem_append_right _ (List.mem_singleton_self _)) (hanswered failure)
  | now => exact ⟨s.clock, rfl, hfresh.unexpired⟩

theorem threadOk_advance (h : ThreadOk py issuer audience s t) {op : AuthOp}
    {resume : Except PyException (authSig.Answer op) → AuthM (Option JwtUser)}
    (hcode : t.code = .await op resume) (env : Option JwksFailure)
    (hread : ∀ verifier token user issuedAt key service, t.request = .user verifier token →
      Fresh py issuer audience s token user issuedAt key → Answered t.trace → op = .getCached service →
        FindsCurrent s t.trace service) :
    ThreadOk py issuer audience (s.exec op env).2 (Service.advance t op resume (s.exec op env).1) where
  fetched body hbody := by
    rw [keys_exec]
    obtain hbody | hbody := List.mem_append.mp hbody
    · exact h.fetched body hbody
    · cases op with
      | fetchJwks =>
          cases env with
          | none =>
              cases List.mem_singleton.mp hbody
              exact ⟨s.issuer, List.mem_cons_self, rfl⟩
          | some failure => cases List.mem_singleton.mp hbody
      | _ => cases List.mem_singleton.mp hbody
  stores := by
    have hstores := h.stores
    rw [hcode] at hstores
    exact hstores.2 _ trivial
  fails verifier token jwt key hrequest hreads := by
    have hfails := h.fails verifier token jwt key hrequest hreads
    rw [hcode] at hfails
    exact (hfails _).2
  reaches verifier token user issuedAt key hrequest hnew hanswered _ := by
    obtain ⟨hclock, hissuer, -⟩ := s.exec_frame op env
    have hfresh := hnew.of_later hissuer (Int.le_of_eq hclock.symm)
    rw [hissuer]
    apply reaches_advance h hcode env hrequest hfresh hanswered
    intro service hop
    exact hread verifier token user issuedAt key service hrequest hfresh hanswered.of_append hop

/-! ### The caches -/

theorem consistent_start (clock : Int) (key : RsaKey) : Consistent (World.start clock key) where
  distinct := List.nodup_singleton _
  cached verifier entry hentry := by cases hentry

theorem Consistent.restart (h : Consistent s) {key : RsaKey}
    (hnew : key.kid ∉ s.keys.map RsaKey.kid) : Consistent (s.restart key) where
  distinct := List.nodup_cons.mpr ⟨hnew, h.distinct⟩
  cached verifier entry hentry := by
    obtain ⟨old, hold, hkeys⟩ := h.cached verifier entry hentry
    exact ⟨old, List.mem_cons_of_mem key hold, hkeys⟩

theorem Consistent.exec (h : Consistent s) {op : AuthOp} (env : Option JwksFailure)
    (hput : ∀ verifier keys, op = .putCached verifier keys → ∃ key ∈ s.keys, keys = key.keys) :
    Consistent (s.exec op env).2 := by
  cases op with
  | putCached verifier keys =>
      refine ⟨h.distinct, fun service entry hentry => ?_⟩
      simp only [World.exec, World.put] at hentry
      split at hentry
      · cases hentry
        exact hput verifier keys rfl
      · exact h.cached service entry hentry
  | fetchJwks => cases env <;> exact h
  | _ => exact h

/-- Different keys are told apart by their ids. -/
theorem Consistent.kid_ne (h : Consistent s) {key : RsaKey} (hkey : key ∈ s.keys)
    (hne : key ≠ s.issuer) : key.kid ≠ s.issuer.kid := by
  intro hkid
  obtain heq | hearlier := List.mem_cons.mp hkey
  · exact hne heq
  · have hdistinct := (List.nodup_cons.mp h.distinct).1
    exact hdistinct (hkid ▸ List.mem_map_of_mem hearlier)

/-- A request stores the keys of a process that has run. -/
theorem ThreadOk.put (h : ThreadOk py issuer audience s t) {op : AuthOp}
    {resume : Except PyException (authSig.Answer op) → AuthM (Option JwtUser)}
    (hcode : t.code = .await op resume) (verifier : Verifier) (keys : Json)
    (hop : op = .putCached verifier keys) : ∃ key ∈ s.keys, keys = key.keys := by
  subst hop
  have hstores := h.stores
  rw [hcode] at hstores
  obtain ⟨⟨body, hbody, hitem⟩, -⟩ := hstores
  obtain ⟨key, hkey, rfl⟩ := h.fetched body hbody
  exact ⟨key, hkey, (Except.ok.inj hitem).symm⟩

end Steps

/-! ### Runs -/

section Runs

variable {PublicKey : Type} (py : Python PublicKey) (issuer audience : Option String)

theorem inv_start (clock : Int) (key : RsaKey) :
    Inv py issuer audience (Service.start (World.start clock key)) where
  consistent := consistent_start clock key
  threads _ ht := absurd ht List.not_mem_nil

variable {py issuer audience}

/-- A token that does not name the new key is not signed with it. -/
theorem not_fresh_restart {s : World} {key : RsaKey} {token : String} {user : User} {issuedAt : Int}
    {publicKey : PublicKey} (hnames : namesKey py token key.kid = false) :
    ¬ Fresh py issuer audience (s.restart key) token user issuedAt publicKey := by
  intro h
  obtain ⟨header, hheader, hkid⟩ := h.reads.header
  have hnamed : namesKey py token key.kid = true := by
    simp only [namesKey, hheader, hkid]
    exact beq_self_eq_true key.kid
  rw [hnames] at hnamed
  cases hnamed

theorem inv_step {p : AuthPool} {label : Label} {p' : AuthPool} (h : Inv py issuer audience p)
    (hread : ReadsCurrent py issuer audience p label)
    (hmove : (deployment py audience).step p label = some p') : Inv py issuer audience p' := by
  cases label with
  | restart key =>
      obtain ⟨⟨hnew, hnames⟩, hp'⟩ := Option.ite_none_right_eq_some.mp hmove
      cases hp'
      refine ⟨h.consistent.restart hnew, fun t ht => ?_⟩
      show ThreadOk py issuer audience (p.store.restart key) t
      apply (h.threads t ht).mono
      · exact fun old hold => List.mem_cons_of_mem key hold
      · intro user issuedAt publicKey hfresh
        exact absurd hfresh (not_fresh_restart (hnames t ht))
  | tick seconds =>
      cases hmove
      refine ⟨⟨h.consistent.distinct, h.consistent.cached⟩, fun t ht => ?_⟩
      show ThreadOk py issuer audience (p.store.tick seconds) t
      apply (h.threads t ht).mono
      · exact fun key hkey => hkey
      · intro user issuedAt publicKey _
        exact ⟨rfl, Int.le_add_of_nonneg_right (Int.natCast_nonneg seconds)⟩
  | serve move =>
      cases move with
      | arrive request =>
          obtain ⟨-, rfl⟩ := (verifiers py audience).step_arrive hmove
          refine ⟨h.consistent, fun t ht => ?_⟩
          obtain ht | ht := List.mem_append.mp ht
          · exact h.threads t ht
          · rw [List.mem_singleton.mp ht]
            exact threadOk_spawn request
      | resume index env =>
          obtain ⟨t, op, resume, ht, hcode, rfl⟩ := (verifiers py audience).step_resume hmove
          have hthread := h.threads t (List.mem_of_getElem? ht)
          refine ⟨h.consistent.exec env (hthread.put hcode), fun u hu => ?_⟩
          obtain hu | rfl := List.mem_or_eq_of_mem_set hu
          · apply (h.threads u hu).mono
            · intro key hkey
              exact (keys_exec op env).symm ▸ hkey
            · intro user issuedAt publicKey _
              obtain ⟨hclock, hissuer, -⟩ := p.store.exec_frame op env
              exact ⟨hissuer, Int.le_of_eq hclock.symm⟩
          · apply threadOk_advance hthread hcode env
            intro verifier token user issuedAt key service hrequest hfresh hanswered hop
            subst hop
            exact hread t verifier token user issuedAt key service resume ht hrequest hfresh
              hanswered hcode

/-- A bad read: the entry has expired, or it has the key of another process. -/
theorem bad_read {s : World} (hs : Consistent s) {trace : List (authSig.Event PyException)}
    {service : Verifier} (env : Option JwksFailure) (h : ¬ FindsCurrent s trace service) :
    Bad s.issuer.kid trace (.getCached service) (s.exec (.getCached service) env).1 := by
  show (s.lookup service).elim _ _ = _ ∨ _
  cases hlookup : s.lookup service with
  | none => exact Or.inl rfl
  | some entry =>
      have hother : ¬ (logging trace = false → entry.keys = s.issuer.keys) :=
        fun hkeys => h ⟨entry, hlookup, hkeys⟩
      obtain ⟨hlogging, hne⟩ := Classical.not_imp.mp hother
      obtain ⟨key, hkey, hkeys⟩ := hs.cached service entry (World.lookup_eq_some hlookup).1
      have hkeyne : key ≠ s.issuer := by
        intro hissuer
        rw [hissuer] at hkeys
        exact hne hkeys
      refine Or.inr ⟨hlogging, key, hs.kid_ne hkey hkeyne, ?_⟩
      show (s.lookup service).elim _ _ = _
      rw [hlookup, ← hkeys]
      rfl

/-- A request that arrives with a fresh token is not refused before it has asked for the keys. -/
theorem honours_arrive {p : AuthPool} {request : Request} {label : Label} :
    Honours py issuer audience p label
      ⟨p.store, p.threads ++ [(verifiers py audience).spawn request]⟩ := by
  intro index t verifier token user issuedAt key result ht hchanged hrequest hdone hfresh _
  obtain hlt | hge := Nat.lt_or_ge index p.threads.length
  · rw [List.getElem?_append_left hlt] at ht
    exact absurd ht hchanged
  · rw [List.getElem?_append_right hge, List.getElem?_singleton] at ht
    split at ht
    · cases ht
      cases hrequest
      have hreaches := reaches_authenticate ⟨p.store.issuer, issuer, audience⟩ hfresh.reads
        hfresh.built verifier []
      obtain ⟨value, hvalue, rfl⟩ := Eq.subst hdone hreaches
      exact hvalue
    · cases ht

/-- A step of one request is about that request only. -/
theorem honours_resume {p : AuthPool} {index : Nat} {label : Label} {op : AuthOp}
    {t : Thread authSig PyException Request (Option JwtUser)}
    {resume : Except PyException (authSig.Answer op) → AuthM (Option JwtUser)}
    (ht : p.threads[index]? = some t) (env : Option JwksFailure) :
    Honours py issuer audience p label ⟨(p.store.exec op env).2,
        p.threads.set index (Service.advance t op resume (p.store.exec op env).1)⟩ ↔
      ∀ verifier token user issuedAt key result, t.request = .user verifier token →
        resume (p.store.exec op env).1 = .done result →
        Fresh py issuer audience p.store token user issuedAt key →
        Answered (t.trace ++ [⟨op, (p.store.exec op env).1⟩]) → result = .ok (some user.verified) := by
  obtain ⟨hclock, hissuer, -⟩ := p.store.exec_frame op env
  have hindex := (List.getElem?_eq_some_iff.mp ht).1
  constructor
  · intro h verifier token user issuedAt key result hrequest hdone hfresh hanswered
    have hchanged : p.threads[index]? ≠ some (Service.advance t op resume (p.store.exec op env).1) := by
      intro hsame
      have htrace := congrArg (fun t => t.trace.length) (Option.some.inj (ht.symm.trans hsame))
      rw [Service.advance, List.length_append] at htrace
      exact Nat.ne_of_lt (Nat.lt_succ_self _) htrace
    apply h index _ verifier token user issuedAt key result (List.getElem?_set_self hindex) hchanged
      hrequest hdone _ hanswered
    exact hfresh.of_later hissuer.symm (Int.le_of_eq hclock)
  · intro h index' u verifier token user issuedAt key result hu hchanged hrequest hdone hnew hanswered
    rw [List.getElem?_set] at hu
    split at hu
    · cases hu
      exact h verifier token user issuedAt key result hrequest hdone
        (hnew.of_later hissuer (Int.le_of_eq hclock.symm)) hanswered
    · exact absurd hu hchanged

theorem honours_iff {p : AuthPool} {label : Label} {p' : AuthPool} (h : Inv py issuer audience p)
    (hmove : (deployment py audience).step p label = some p') :
    Honours py issuer audience p label p' ↔ ReadsCurrent py issuer audience p label := by
  cases label with
  | restart key =>
      obtain ⟨-, hp'⟩ := Option.ite_none_right_eq_some.mp hmove
      cases hp'
      exact iff_of_true (fun _ _ _ _ _ _ _ _ ht hchanged => absurd ht hchanged) trivial
  | tick seconds =>
      cases hmove
      exact iff_of_true (fun _ _ _ _ _ _ _ _ ht hchanged => absurd ht hchanged) trivial
  | serve move =>
      cases move with
      | arrive request =>
          obtain ⟨-, rfl⟩ := (verifiers py audience).step_arrive hmove
          exact iff_of_true honours_arrive trivial
      | resume index env =>
          obtain ⟨t, op, resume, ht, hcode, rfl⟩ := (verifiers py audience).step_resume hmove
          have hthread := h.threads t (List.mem_of_getElem? ht)
          apply (honours_resume ht env).trans
          constructor
          · intro hhonours u verifier token user issuedAt key service resume' hu hrequest hfresh
              hanswered hcode'
            cases ht.symm.trans hu
            cases hcode.symm.trans hcode'
            by_contra hread
            have hfails := hthread.fails verifier token _ key hrequest hfresh.reads
            rw [hcode] at hfails
            obtain ⟨err, herr⟩ := (hfails _).1 (bad_read h.consistent env hread)
            have hok : Except.error err = .ok (some user.verified) := by
              apply hhonours verifier token user issuedAt key _ hrequest herr hfresh
              intro failure hfailure
              obtain hfailure | hfailure := List.mem_append.mp hfailure
              · exact hanswered failure hfailure
              · cases List.mem_singleton.mp hfailure
            cases hok
          · intro hread verifier token user issuedAt key result hrequest hdone hfresh hanswered
            have hcurrent : ∀ service, op = .getCached service →
                FindsCurrent p.store t.trace service := by
              intro service hop
              subst hop
              exact hread t verifier token user issuedAt key service resume ht hrequest hfresh
                hanswered.of_append hcode
            have hreaches := reaches_advance hthread hcode env hrequest hfresh hanswered hcurrent
            rw [hdone] at hreaches
            obtain ⟨value, hvalue, rfl⟩ := hreaches
            exact hvalue

/-- No request reads in a step that is not enabled. -/
theorem readsCurrent_stuck (p : AuthPool) (label : Label)
    (h : (deployment py audience).step p label = none) : ReadsCurrent py issuer audience p label := by
  cases label with
  | serve move =>
      cases move with
      | resume index env =>
          intro t _ _ _ _ _ service resume ht _ _ _ hcode
          simp only [deployment, Service.machine, Service.step, ht, hcode] at h
          cases h
      | arrive request => trivial
  | _ => trivial

/-- A token of the process that runs is accepted in every request of a run exactly when the requests
that present one find its key in the cache. -/
theorem honoured_iff (clock : Int) (key : RsaKey) (labels : List Label) :
    (deployment py audience).Each (Honours py issuer audience) (Service.start (World.start clock key))
        labels ↔
      (deployment py audience).Meets (ReadsCurrent py issuer audience)
        (Service.start (World.start clock key)) labels :=
  Machine.each_iff_meets (fun _ _ _ hinv hread hmove => inv_step hinv hread hmove)
    (fun _ _ _ hinv hmove => honours_iff hinv hmove) readsCurrent_stuck
    (inv_start py issuer audience clock key)

end Runs

/-! ### A restart that the cache outlives -/

def firstKey : RsaKey := ⟨"kid-a", "6NbKYWM", "AQAB", by decide⟩

def secondKey : RsaKey := ⟨"kid-b", "6NkswKM", "AQAB", by decide⟩

def reader : User := ⟨7, "Emma", "emma@bookhub.com", "reader"⟩

/-- A token of each process. -/
def issuedTokens : String → Jwt
  | "first-token" =>
      TokenService.generateUserToken ⟨firstKey, none, some "bookhub-api-gateway"⟩ 0 reader
  | _ => TokenService.generateUserToken ⟨secondKey, none, some "bookhub-api-gateway"⟩ 0 reader

abbrev smallDeployment : Machine AuthPool Label :=
  deployment (plainPython issuedTokens) (some "bookhub-api-gateway")

/-- A request fills the cache, the auth service starts again, and a request comes with a new token. -/
def restarted : List Label :=
  .serve (.arrive (.user .book "first-token")) ::
    List.replicate 6 (.serve (.resume 0 none)) ++
    [.restart secondKey, .serve (.arrive (.user .book "second-token")), .serve (.resume 1 none)]

def refusal (t : Thread authSig PyException Request (Option JwtUser)) : Option (Nat × String) :=
  match t.code with
  | .done (.error (.http status detail)) => some (status, detail)
  | _ => none

/-- The endpoint was not asked. -/
def unasked (trace : List (authSig.Event PyException)) : Bool :=
  trace.all fun event =>
    match event with
    | ⟨.fetchJwks, _⟩ => false
    | _ => true

theorem answered_of_unasked {trace : List (authSig.Event PyException)} (h : unasked trace = true) :
    Answered trace := by
  intro failure hfailure
  cases List.all_eq_true.mp h _ hfailure

theorem done_of_refusal {t : Thread authSig PyException Request (Option JwtUser)}
    {refused : Nat × String} (h : refusal t = some refused) :
    t.code = .done (.error (.http refused.1 refused.2)) := by
  unfold refusal at h
  split at h
  · rename_i hcode
    cases h
    exact hcode
  · cases h

/-- The new token is refused for its key id. -/
theorem not_honoured : ¬ ∀ labels : List Label,
    smallDeployment.Each (Honours (plainPython issuedTokens) none (some "bookhub-api-gateway"))
      (Service.start (World.start 0 firstKey)) labels := by
  intro h
  have hbefore : (smallDeployment.run (Service.start (World.start 0 firstKey)) restarted).map
      (fun p => p.threads[1]?.bind refusal) = some none := by
    decide +kernel
  have hafter : ((smallDeployment.run (Service.start (World.start 0 firstKey)) restarted).bind fun p =>
        smallDeployment.step p (.serve (.resume 1 none))).map
          (fun p => (p.store.issuer, p.store.clock)) = some (secondKey, 0) := by
    decide +kernel
  have hthread : ((smallDeployment.run (Service.start (World.start 0 firstKey)) restarted).bind fun p =>
        smallDeployment.step p (.serve (.resume 1 none))).bind (fun p => p.threads[1]?.map fun t =>
            (t.request, refusal t, unasked t.trace)) =
      some (.user .book "second-token", some (401, "Invalid token: unknown key ID"), true) := by
    decide +kernel
  obtain ⟨mid, hmid, hearlier⟩ := Option.map_eq_some_iff.mp hbefore
  rw [hmid, Option.bind_some] at hafter hthread
  obtain ⟨p, hmove, hstore⟩ := Option.map_eq_some_iff.mp hafter
  rw [hmove, Option.bind_some] at hthread
  obtain ⟨t, ht, hview⟩ := Option.map_eq_some_iff.mp hthread
  simp only [Prod.mk.injEq] at hstore hview
  obtain ⟨hissuer, hclock⟩ := hstore
  obtain ⟨hrequest, hrefusal, hunasked⟩ := hview
  have hfresh : Fresh (plainPython issuedTokens) none (some "bookhub-api-gateway") p.store
      "second-token" reader 0 (65537, 1000076001443) := by
    refine ⟨?_, ?_, ?_⟩
    · rw [hissuer]
      exact plainPython_reads issuedTokens "second-token" (by decide +kernel)
    · rw [hissuer]
      decide +kernel
    · rw [hclock]
      decide
  have hchanged : mid.threads[1]? ≠ some t := by
    intro hsame
    rw [hsame, Option.bind_some, hrefusal] at hearlier
    cases hearlier
  have hok := Machine.each_last (h (restarted ++ [_])) hmid hmove 1 t .book "second-token" reader 0 _ _
    ht hchanged hrequest (done_of_refusal hrefusal) hfresh (answered_of_unasked hunasked)
  cases hok

end BookHub.Auth
