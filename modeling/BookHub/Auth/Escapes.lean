import BookHub.Auth.Deployment

/-!
# Which exceptions leave `get_current_user`

The two `except` clauses translate what the JWT library raises, and `get_jwks` what the request for the
keys raises. The rest of the function is not covered: the entry of the cache may expire between two
accesses, the keys may be no list of JWKs, the JWK may give no RSA key, and the claims of a token, those
of a service token for one, may not make a user. `Answerable` collects the four.
-/

namespace BookHub.Auth

open BookService (JwtUser)

/-! ### One request -/

/-- What one access meets: the clock, what the endpoint answers, and what other requests have made of
the cache while that answer was awaited. -/
structure Reading where
  clock : Int
  response : JwksResponse
  meanwhile : Option CacheEntry

/-- The cache, and what the accesses of one request will meet. -/
structure Met where
  cache : Option CacheEntry
  readings : Nat → Reading

namespace Met

def clock (s : Met) : Int := (s.readings 0).clock

/-- The access is over. -/
def next (s : Met) : Met := { s with readings := fun n => s.readings (n + 1) }

def lookup (s : Met) : Option CacheEntry := s.cache.filter fun entry => s.clock < entry.expires

/-- Membership and lookup each read the clock. -/
def exec (s : Met) : (op : AuthOp) → Unit → Except PyException (authSig.Answer op) × Met
  | .cached _, _ => (.ok s.lookup.isSome, s.next)
  | .getCached _, _ => (s.lookup.elim (.error .keyError) fun entry => .ok entry.keys, s.next)
  | .putCached _ keys, _ => (.ok (), { s.next with cache := some ⟨keys, s.clock + 3600⟩ })
  | .fetchJwks, _ => (.ok (s.readings 0).response, { s.next with cache := (s.readings 0).meanwhile })
  | .now, _ => (.ok s.clock, s.next)

end Met

/-- The entry is there at one access of the cache and has expired at the next: before it is read, or
between the log line and the `return`. -/
def EntryExpires (s : Met) : Prop :=
  match s.lookup with
  | some entry => entry.expires ≤ (s.readings 1).clock
  | none => ∃ body keys, (s.readings 1).response = .body (some body) ∧
      item "keys" body = .ok keys ∧ (s.readings 3).clock < (s.readings 2).clock + 3600 ∧
      (s.readings 2).clock + 3600 ≤ (s.readings 4).clock

/-- These keys are read, and then the clock for the expiry of the token. -/
def JwksRead (s : Met) (keys : Json) (now : Int) : Prop :=
  match s.lookup with
  | some entry => (s.readings 1).clock < entry.expires ∧ keys = entry.keys ∧
      now = (s.readings 2).clock
  | none => ∃ body, (s.readings 1).response = .body (some body) ∧ item "keys" body = .ok keys ∧
      (s.readings 3).clock < (s.readings 2).clock + 3600 ∧
      (s.readings 4).clock < (s.readings 2).clock + 3600 ∧ now = (s.readings 5).clock

section Escapes

variable {PublicKey : Type} (py : Python PublicKey)

/-! ### What the keys and the claims have to be -/

/-- Each key up to the first one with this id is an object with an id. -/
def Scannable (kid : Json) : List Json → Prop
  | [] => True
  | key :: rest => ∃ keyId, item "kid" key = .ok keyId ∧
      (py.eq keyId kid = true ∨ Scannable kid rest)

/-- The first key with this id. -/
def Names (kid : Json) : List Json → Json → Prop
  | [], _ => False
  | key :: rest, jwk => ∃ keyId, item "kid" key = .ok keyId ∧
      (py.eq keyId kid = true ∧ jwk = key ∨ py.eq keyId kid = false ∧ Names kid rest jwk)

/-- The key has a modulus and an exponent, written as base64url texts of the numbers of an RSA key. -/
def Builds (jwk : Json) (key : PublicKey) : Prop :=
  ∃ n e modulus exponent, item "n" jwk = .ok (.str n) ∧ item "e" jwk = .ok (.str e) ∧
    py.decodeInt n = .ok modulus ∧ py.decodeInt e = .ok exponent ∧
    py.publicKey exponent modulus = .ok key

/-- Each field of the model is a string. -/
def UserClaims (payload : Claims) : Prop :=
  ∃ user : JwtUser, payload.get "sub" = .str user.id ∧ payload.get "name" = .str user.name ∧
    payload.get "email" = .str user.email ∧ payload.get "role" = .str user.role

/-- The keys can be searched, the one that is named is an RSA key, and a payload that is verified with
it and has a subject has the claims of a user. -/
def KeysAnswer (audience : Option String) (token : String) (kid keys : Json) (now : Int) : Prop :=
  ∃ items, iterate keys = .ok items ∧ Scannable py kid items ∧
    ∀ jwk, Names py kid items jwk → ∃ key, Builds py jwk key ∧
      ∀ payload, py.decode token key audience now = .ok payload →
        truthy py (payload.get "sub") = true → UserClaims payload

/-- If the token names a key, the entry of the cache holds on and the keys that are read are good. -/
def Answerable (audience : Option String) (token : String) (s : Met) : Prop :=
  ∀ header, py.getUnverifiedHeader token = .ok header → truthy py (header.get "kid") = true →
    ¬EntryExpires s ∧
      ∀ keys now, JwksRead s keys now → KeysAnswer py audience token (header.get "kid") keys now

/-- The user whose id is the subject of the payload that was verified, or an HTTP error. -/
def AnswersOrRefuses (audience : Option String) (token : String) (s : Met) :
    Except PyException JwtUser → Prop
  | .ok user => ∃ header keys now items jwk key payload,
      py.getUnverifiedHeader token = .ok header ∧ JwksRead s keys now ∧
      iterate keys = .ok items ∧ Names py (header.get "kid") items jwk ∧ Builds py jwk key ∧
      py.decode token key audience now = .ok payload ∧ payload.get "sub" = .str user.id
  | .error (.http _ _) => True
  | .error _ => False

/-- Neither of the two conversions raises an exception that is translated. -/
structure PythonRaises : Prop where
  decodeInt : ∀ text err, py.decodeInt text = .error err → err = .valueError
  publicKey : ∀ e n err, py.publicKey e n = .error err → err = .valueError

/-! ### The keys that are read -/

variable {py}

theorem lookup_next {s : Met} {entry : CacheEntry} (h : s.lookup = some entry) :
    s.next.lookup = if (s.readings 1).clock < entry.expires then some entry else none := by
  have hcache : s.cache = some entry := (Option.filter_eq_some_iff.mp h).1
  show s.cache.filter _ = _
  rw [hcache, Option.filter_some]
  simp only [decide_eq_true_eq]
  rfl

theorem eval_getJwks_hit {s : Met} {entry : CacheEntry} (h : s.lookup = some entry)
    (verifier : Verifier) :
    (getJwks py verifier).eval Met.exec (fun _ => ()) s =
      (if (s.readings 1).clock < entry.expires then .ok entry.keys else .error .keyError,
        s.next.next) := by
  simp only [getJwks, call, Coroutine.perform, Coroutine.await_bind, Coroutine.eval_await, Met.exec,
    h, Option.isSome_some, Coroutine.ok_bind, if_true, Coroutine.eval_done, lookup_next h]
  split <;> rfl

/-- The state in which the answer of the endpoint is stored. -/
def Met.fetched (s : Met) : Met := { s.next.next with cache := (s.readings 1).meanwhile }

theorem eval_getJwks_miss {s : Met} (h : s.lookup = none) (verifier : Verifier) :
    (getJwks py verifier).eval Met.exec (fun _ => ()) s =
      match (storeKeys py verifier (s.readings 1).response).eval Met.exec (fun _ => ()) s.fetched with
      | (.ok _, s') => (s'.lookup.elim (.error .keyError) fun entry => .ok entry.keys, s'.next)
      | (.error err, s') => (.error err, s') := by
  simp only [getJwks, fetchKeys, call, Coroutine.perform, Coroutine.await_bind, Coroutine.eval_await,
    Met.exec, h, Option.isSome_none, Coroutine.ok_bind, Bool.false_eq_true, if_false]
  rw [Coroutine.eval_bind_const]
  cases hstored : (storeKeys py verifier (s.readings 1).response).eval Met.exec (fun _ => ())
      s.fetched with
  | mk result s' =>
      have hsame : (storeKeys py verifier (s.next.readings 0).response).eval Met.exec (fun _ => ())
          { cache := (s.next.readings 0).meanwhile, readings := s.next.next.readings } =
            (result, s') := hstored
      rw [hsame]
      cases result <;> rfl

/-- Keys that were fetched are stored, and read once for the log line. -/
theorem eval_storeKeys {s : Met} {body keys : Json} (hkeys : item "keys" body = .ok keys)
    (verifier : Verifier) :
    (storeKeys py verifier (.body (some body))).eval Met.exec (fun _ => ()) s =
      (if (s.readings 1).clock < s.clock + 3600 then .ok ()
        else .error (.http 500 ("Unexpected error: " ++ py.text .keyError)),
        { s.next.next with cache := some ⟨keys, s.clock + 3600⟩ }) := by
  simp only [storeKeys, Option.elim_some, Coroutine.ok_bind, hkeys, call, Coroutine.perform,
    Coroutine.await_bind, Met.exec, Coroutine.eval_tryCatch_const, Coroutine.eval_await]
  simp only [Met.lookup, Option.filter_some, Met.next, Met.clock]
  by_cases hlt : (s.readings 1).clock < (s.readings 0).clock + 3600
  · simp [hlt]
  · simp [hlt]

variable (py)

/-- Every other answer is an HTTP error. -/
theorem eval_storeKeys_refused {s : Met} {response : JwksResponse}
    (h : ∀ body, response = .body (some body) → ∀ keys, item "keys" body ≠ .ok keys)
    (verifier : Verifier) :
    ∃ status detail, (storeKeys py verifier response).eval Met.exec (fun _ => ()) s =
      (.error (.http status detail), s) := by
  cases response with
  | failed failure => cases failure <;> exact ⟨_, _, rfl⟩
  | body json =>
      cases json with
      | none => exact ⟨_, _, rfl⟩
      | some body =>
          cases hkeys : item "keys" body with
          | ok keys => exact absurd hkeys (h body rfl keys)
          | error err =>
              simp only [storeKeys, Option.elim_some, Coroutine.ok_bind, hkeys, Coroutine.error_bind,
                Coroutine.eval_tryCatch_const]
              exact ⟨_, _, rfl⟩

/-- After a miss the entry is new, and there until it expires. -/
theorem eval_getJwks_stored {s : Met} (h : s.lookup = none) {body keys : Json}
    (hbody : (s.readings 1).response = .body (some body)) (hkeys : item "keys" body = .ok keys)
    (hlog : (s.readings 3).clock < (s.readings 2).clock + 3600) (verifier : Verifier) :
    ∃ s', (getJwks py verifier).eval Met.exec (fun _ => ()) s =
        (if (s.readings 4).clock < (s.readings 2).clock + 3600 then .ok keys else .error .keyError, s') ∧
      s'.clock = (s.readings 5).clock := by
  rw [eval_getJwks_miss h, hbody, eval_storeKeys hkeys]
  have hfirst : (s.fetched.readings 1).clock < s.fetched.clock + 3600 := hlog
  rw [if_pos hfirst]
  refine ⟨_, Prod.ext ?_ rfl, rfl⟩
  show ((some ⟨keys, (s.readings 2).clock + 3600⟩ : Option CacheEntry).filter fun entry =>
    (s.readings 4).clock < entry.expires).elim _ _ = _
  by_cases hlt : (s.readings 4).clock < (s.readings 2).clock + 3600
  · simp [hlt, Option.filter_some]
  · simp [hlt, Option.filter_some]

theorem eval_of_jwksRead {s : Met} {keys : Json} {now : Int} (h : JwksRead s keys now)
    (verifier : Verifier) :
    ∃ s', (getJwks py verifier).eval Met.exec (fun _ => ()) s = (.ok keys, s') ∧ s'.clock = now := by
  unfold JwksRead at h
  split at h
  · rename_i entry hentry
    obtain ⟨hread, rfl, rfl⟩ := h
    rw [eval_getJwks_hit hentry, if_pos hread]
    exact ⟨_, rfl, rfl⟩
  · rename_i hnone
    obtain ⟨body, hbody, hkeys, hlog, hread, rfl⟩ := h
    obtain ⟨s', heval, hclock⟩ := eval_getJwks_stored py hnone hbody hkeys hlog verifier
    rw [if_pos hread] at heval
    exact ⟨s', heval, hclock⟩

theorem eval_of_entryExpires {s : Met} (h : EntryExpires s) (verifier : Verifier) :
    ∃ s', (getJwks py verifier).eval Met.exec (fun _ => ()) s = (.error .keyError, s') := by
  unfold EntryExpires at h
  split at h
  · rename_i entry hentry
    rw [eval_getJwks_hit hentry, if_neg (Int.not_lt.mpr h)]
    exact ⟨_, rfl⟩
  · rename_i hnone
    obtain ⟨body, keys, hbody, hkeys, hlog, hread⟩ := h
    obtain ⟨s', heval, -⟩ := eval_getJwks_stored py hnone hbody hkeys hlog verifier
    rw [if_neg (Int.not_lt.mpr hread)] at heval
    exact ⟨s', heval⟩

/-- If the entry does not expire, keys are read or the request is refused. -/
theorem jwksRead_or_refused {s : Met} (h : ¬EntryExpires s) (verifier : Verifier) :
    (∃ keys now, JwksRead s keys now) ∨
      ∃ status detail s', (getJwks py verifier).eval Met.exec (fun _ => ()) s =
        (.error (.http status detail), s') := by
  unfold EntryExpires at h
  unfold JwksRead
  split at h
  · rename_i entry hentry
    exact Or.inl ⟨_, _, Int.not_le.mp h, rfl, rfl⟩
  · rename_i hnone
    rw [eval_getJwks_miss hnone]
    by_cases hfound : ∃ body keys, (s.readings 1).response = .body (some body) ∧
        item "keys" body = .ok keys
    · obtain ⟨body, keys, hbody, hkeys⟩ := hfound
      by_cases hlog : (s.readings 3).clock < (s.readings 2).clock + 3600
      · left
        refine ⟨keys, _, body, hbody, hkeys, hlog, ?_, rfl⟩
        by_contra hread
        exact h ⟨body, keys, hbody, hkeys, hlog, Int.not_lt.mp hread⟩
      · right
        have hfirst : ¬(s.fetched.readings 1).clock < s.fetched.clock + 3600 := hlog
        rw [hbody, eval_storeKeys hkeys, if_neg hfirst]
        exact ⟨_, _, _, rfl⟩
    · right
      have hrefused : ∀ body, (s.readings 1).response = .body (some body) →
          ∀ keys, item "keys" body ≠ .ok keys := by
        intro body hbody keys hkeys
        exact hfound ⟨body, keys, hbody, hkeys⟩
      obtain ⟨status, detail, heval⟩ :=
        eval_storeKeys_refused py hrefused verifier (s := s.fetched)
      rw [heval]
      exact ⟨_, _, _, rfl⟩

variable {py}

/-! ### The key that is found -/

/-- What the `except` clauses turn into an HTTP error, or leave as one. -/
def PyException.translated : PyException → Bool
  | .http _ _ => true
  | .jose _ => true
  | _ => false

theorem item_error {name : String} {value : Json} {err : PyException}
    (h : item name value = .error err) : err.translated = false := by
  unfold item at h
  split at h
  · split at h
    · cases h
    · cases h
      rfl
  · cases h
    rfl

theorem iterate_error {keys : Json} {err : PyException} (h : iterate keys = .error err) :
    err.translated = false := by
  unfold iterate at h
  split at h
  · cases h
  · cases h
  · cases h
  · cases h
    rfl

theorem findSigningKey_cons {kid key keyId : Json} {rest : List Json}
    (h : item "kid" key = .ok keyId) :
    findSigningKey py kid (key :: rest) =
      if py.eq keyId kid then .ok key else findSigningKey py kid rest := by
  rw [findSigningKey, h]
  rfl

theorem findSigningKey_of_names {kid jwk : Json} {items : List Json}
    (h : Names py kid items jwk) : findSigningKey py kid items = .ok jwk := by
  induction items with
  | nil => cases h
  | cons key rest ih =>
      obtain ⟨keyId, hkey, hmatch⟩ := h
      rw [findSigningKey_cons hkey]
      obtain ⟨heq, rfl⟩ | ⟨heq, hrest⟩ := hmatch
      · rw [if_pos heq]
      · rw [heq, if_neg Bool.false_ne_true, ih hrest]

theorem findSigningKey_of_scannable {kid : Json} {items : List Json} (h : Scannable py kid items) :
    (∃ jwk, Names py kid items jwk) ∨
      findSigningKey py kid items = .error (.http 401 "Invalid token: unknown key ID") := by
  induction items with
  | nil => exact Or.inr rfl
  | cons key rest ih =>
      obtain ⟨keyId, hkey, hmatch⟩ := h
      rw [findSigningKey_cons hkey]
      cases heq : py.eq keyId kid with
      | true => exact Or.inl ⟨key, keyId, hkey, Or.inl ⟨heq, rfl⟩⟩
      | false =>
          rw [heq] at hmatch
          obtain ⟨jwk, hjwk⟩ | hnone := ih (hmatch.resolve_left Bool.false_ne_true)
          · exact Or.inl ⟨jwk, keyId, hkey, Or.inr ⟨heq, hjwk⟩⟩
          · exact Or.inr hnone

theorem findSigningKey_of_not_scannable {kid : Json} {items : List Json}
    (h : ¬Scannable py kid items) :
    ∃ err, findSigningKey py kid items = .error err ∧ err.translated = false := by
  induction items with
  | nil => exact absurd trivial h
  | cons key rest ih =>
      cases hkey : item "kid" key with
      | error err =>
          refine ⟨err, ?_, item_error hkey⟩
          rw [findSigningKey, hkey]
          rfl
      | ok keyId =>
          have hne : py.eq keyId kid = false := by
            rw [← Bool.not_eq_true]
            intro heq
            exact h ⟨keyId, hkey, Or.inl heq⟩
          rw [findSigningKey_cons hkey, hne, if_neg Bool.false_ne_true]
          exact ih fun hrest => h ⟨keyId, hkey, Or.inr hrest⟩

/-- One of the two numbers of a key. -/
def keyNumber (py : Python PublicKey) (name : String) (jwk : Json) : Except PyException Nat := do
  py.decodeInt (← encode (← item name jwk))

theorem keyNumber_cases (hraises : PythonRaises py) (name : String) (jwk : Json) :
    (∃ text value, item name jwk = .ok (.str text) ∧ py.decodeInt text = .ok value ∧
        keyNumber py name jwk = .ok value) ∨
      ∃ err, keyNumber py name jwk = .error err ∧ err.translated = false := by
  unfold keyNumber
  cases hitem : item name jwk with
  | error err => exact Or.inr ⟨err, rfl, item_error hitem⟩
  | ok value =>
      cases value with
      | str text =>
          cases hnumber : py.decodeInt text with
          | ok number => exact Or.inl ⟨text, number, rfl, hnumber, hnumber⟩
          | error err =>
              refine Or.inr ⟨err, hnumber, ?_⟩
              rw [hraises.decodeInt text err hnumber]
              rfl
      | _ => exact Or.inr ⟨.attributeError, rfl, rfl⟩

theorem buildRsaKey_eq (jwk : Json) :
    buildRsaKey py jwk =
      keyNumber py "n" jwk >>= fun n => keyNumber py "e" jwk >>= fun e => py.publicKey e n := by
  unfold buildRsaKey keyNumber
  simp only [bind_assoc]

theorem buildRsaKey_of_builds {jwk : Json} {key : PublicKey} (h : Builds py jwk key) :
    buildRsaKey py jwk = .ok key := by
  obtain ⟨n, e, modulus, exponent, hn, he, hmodulus, hexponent, hkey⟩ := h
  simp only [buildRsaKey, hn, he, encode, hmodulus, hexponent, hkey, bind, Except.bind]

/-- Where no key is built, what is raised is not translated. -/
theorem buildRsaKey_cases (hraises : PythonRaises py) (jwk : Json) :
    (∃ key, Builds py jwk key) ∨
      ∃ err, buildRsaKey py jwk = .error err ∧ err.translated = false := by
  rw [buildRsaKey_eq]
  obtain ⟨n, modulus, hn, hmodulus, hfirst⟩ | ⟨err, herr, hraised⟩ := keyNumber_cases hraises "n" jwk
  · obtain ⟨e, exponent, he, hexponent, hsecond⟩ | ⟨err, herr, hraised⟩ :=
      keyNumber_cases hraises "e" jwk
    · rw [hfirst, hsecond]
      cases hkey : py.publicKey exponent modulus with
      | ok key => exact Or.inl ⟨key, n, e, modulus, exponent, hn, he, hmodulus, hexponent, hkey⟩
      | error err =>
          refine Or.inr ⟨err, hkey, ?_⟩
          rw [hraises.publicKey exponent modulus err hkey]
          rfl
    · rw [hfirst, herr]
      exact Or.inr ⟨err, rfl, hraised⟩
  · rw [herr]
    exact Or.inr ⟨err, rfl, hraised⟩

/-! ### One request -/

theorem answersOrRefuses_rethrow {audience : Option String} {token : String} {s s' : Met}
    (err : PyException) :
    AnswersOrRefuses py audience token s
        ((rethrow err : AuthM JwtUser).eval Met.exec (fun _ => ()) s').1 ↔ err.translated = true := by
  cases err with
  | jose error => cases error <;> exact iff_of_true trivial rfl
  | http status detail => exact iff_of_true trivial rfl
  | keyError => exact iff_of_false id Bool.false_ne_true
  | typeError => exact iff_of_false id Bool.false_ne_true
  | attributeError => exact iff_of_false id Bool.false_ne_true
  | valueError => exact iff_of_false id Bool.false_ne_true
  | validationError => exact iff_of_false id Bool.false_ne_true

/-- What is made of the keys, once they are there. -/
def payloadOf (py : Python PublicKey) (audience : Option String) (token : String) (kid keys : Json)
    (now : Int) : Except PyException Claims := do
  let signingKey ← getSigningKey py keys kid
  let publicKey ← buildRsaKey py signingKey
  (py.decode token publicKey audience now).mapError .jose

/-- What is made of a verified payload. -/
def userOf (py : Python PublicKey) (payload : Claims) : Except PyException JwtUser :=
  if truthy py (payload.get "sub") then
    jwtUser (payload.get "sub") (payload.get "name") (payload.get "email") (payload.get "role")
  else .error (.http 401 "Missing subject in token")

section PayloadOf

variable {audience : Option String} {token : String} {kid keys jwk : Json} {now : Int}

theorem payloadOf_of_not_found {err : PyException} (hfind : getSigningKey py keys kid = .error err) :
    payloadOf py audience token kid keys now = .error err := by
  rw [payloadOf, hfind]
  rfl

theorem payloadOf_of_not_built {err : PyException} (hfind : getSigningKey py keys kid = .ok jwk)
    (hbuild : buildRsaKey py jwk = .error err) :
    payloadOf py audience token kid keys now = .error err := by
  simp only [payloadOf, hfind, hbuild, bind, Except.bind]

theorem payloadOf_of_built {key : PublicKey} (hfind : getSigningKey py keys kid = .ok jwk)
    (hbuild : buildRsaKey py jwk = .ok key) :
    payloadOf py audience token kid keys now = (py.decode token key audience now).mapError .jose := by
  simp only [payloadOf, hfind, hbuild, bind, Except.bind]

end PayloadOf

theorem eval_verifiedPayload {token : String} {header : Claims}
    (hheader : py.getUnverifiedHeader token = .ok header)
    (htruthy : truthy py (header.get "kid") = true) (verifier : Verifier)
    (audience : Option String) (s : Met) :
    ((verifiedPayload py verifier audience token).eval Met.exec (fun _ => ()) s).1 =
      match (getJwks py verifier).eval Met.exec (fun _ => ()) s with
      | (.ok keys, s') => payloadOf py audience token (header.get "kid") keys s'.clock
      | (.error err, _) => .error err := by
  simp only [verifiedPayload, hheader, Except.mapError, Coroutine.ok_bind, require, htruthy, if_true,
    Coroutine.pure_eq]
  rw [Coroutine.eval_bind_const]
  cases hkeys : (getJwks py verifier).eval Met.exec (fun _ => ()) s with
  | mk result s' =>
      cases result with
      | error err => rfl
      | ok keys =>
          dsimp only
          cases hfind : getSigningKey py keys (header.get "kid") with
          | error err =>
              rw [payloadOf_of_not_found hfind]
              rfl
          | ok jwk =>
              rw [Coroutine.ok_bind]
              cases hbuild : buildRsaKey py jwk with
              | error err =>
                  rw [payloadOf_of_not_built hfind hbuild]
                  rfl
              | ok key =>
                  rw [payloadOf_of_built hfind hbuild]
                  rfl

variable (py)

theorem eval_getCurrentUser (verifier : Verifier) (audience : Option String) (token : String)
    (s : Met) :
    ∃ s', ((getCurrentUser py verifier audience token).eval Met.exec (fun _ => ()) s).1 =
      match ((verifiedPayload py verifier audience token).eval Met.exec (fun _ => ()) s).1 >>=
          userOf py with
      | .ok user => .ok user
      | .error err => ((rethrow err : AuthM JwtUser).eval Met.exec (fun _ => ()) s').1 := by
  rw [getCurrentUser, Coroutine.eval_tryCatch_const, Coroutine.eval_bind_const]
  cases hpayload : (verifiedPayload py verifier audience token).eval Met.exec (fun _ => ()) s with
  | mk result s' =>
      refine ⟨s', ?_⟩
      cases result with
      | error err => rfl
      | ok payload =>
          have hbind : (Except.ok payload >>= userOf py) = userOf py payload := rfl
          rw [hbind, userOf]
          cases htruthy : truthy py (payload.get "sub") with
          | false =>
              simp only [require, htruthy]
              rfl
          | true =>
              simp only [require, htruthy, if_true, Coroutine.pure_eq, Coroutine.ok_bind,
                Coroutine.eval_done]
              cases jwtUser (payload.get "sub") (payload.get "name") (payload.get "email")
                (payload.get "role") <;> rfl

variable {py}

/-- Every exception of the result is translated. -/
def Handled {α : Type} (result : Except PyException α) : Prop :=
  ∀ err, result = .error err → err.translated = true

theorem not_handled {α : Type} {err : PyException} (h : err.translated = false) :
    ¬Handled (.error err : Except PyException α) := by
  intro hhandled
  rw [hhandled err rfl] at h
  cases h

theorem handled_of_translated {α : Type} {err : PyException} (h : err.translated = true) :
    Handled (.error err : Except PyException α) := by
  intro other hother
  cases hother
  exact h

/-- A user that is made of a payload has its subject for an id. -/
theorem userOf_ok {payload : Claims} {user : JwtUser} (h : userOf py payload = .ok user) :
    payload.get "sub" = .str user.id := by
  rw [userOf] at h
  split at h
  · exact (jwtUser_ok h).1
  · cases h

theorem handled_userOf (payload : Claims) :
    Handled (userOf py payload) ↔ (truthy py (payload.get "sub") = true → UserClaims payload) := by
  rw [userOf]
  split
  · rename_i hsubject
    rw [forall_prop_of_true hsubject]
    unfold jwtUser
    split
    · rename_i id name email role hid hname hemail hrole
      refine iff_of_true ?_ ⟨⟨id, name, email, role⟩, hid, hname, hemail, hrole⟩
      intro err herr
      cases herr
    · rename_i hnot
      refine iff_of_false (not_handled rfl) ?_
      intro hclaims
      obtain ⟨user, hid, hname, hemail, hrole⟩ := hclaims
      exact hnot user.id user.name user.email user.role hid hname hemail hrole
  · rename_i hsubject
    exact iff_of_true (handled_of_translated rfl) fun htruthy => absurd htruthy hsubject

/-- What the keys lead to: an exception that is not translated, a refusal, or the key that is named. -/
theorem payloadOf_cases (hraises : PythonRaises py) (audience : Option String) (token : String)
    (kid keys : Json) (now : Int) :
    (∃ err, payloadOf py audience token kid keys now = .error err ∧ err.translated = false ∧
        ¬KeysAnswer py audience token kid keys now) ∨
      (∃ err, payloadOf py audience token kid keys now = .error err ∧ err.translated = true ∧
        KeysAnswer py audience token kid keys now) ∨
      ∃ items jwk key, iterate keys = .ok items ∧ Scannable py kid items ∧ Names py kid items jwk ∧
        Builds py jwk key ∧ payloadOf py audience token kid keys now =
          (py.decode token key audience now).mapError .jose := by
  cases hitems : iterate keys with
  | error err =>
      have hfind : getSigningKey py keys kid = .error err := by
        rw [getSigningKey, hitems]
        rfl
      refine Or.inl ⟨err, payloadOf_of_not_found hfind, iterate_error hitems, ?_⟩
      intro hanswer
      obtain ⟨items, hok, -⟩ := hanswer
      cases hitems.symm.trans hok
  | ok items =>
      have hget : getSigningKey py keys kid = findSigningKey py kid items := by
        rw [getSigningKey, hitems]
        rfl
      by_cases hscan : Scannable py kid items
      · obtain ⟨jwk, hnames⟩ | hunknown := findSigningKey_of_scannable hscan
        · have hfind := hget.trans (findSigningKey_of_names hnames)
          obtain ⟨key, hbuilds⟩ | ⟨err, hbuild, hraised⟩ := buildRsaKey_cases hraises jwk
          · right
            right
            exact ⟨items, jwk, key, rfl, hscan, hnames, hbuilds,
              payloadOf_of_built hfind (buildRsaKey_of_builds hbuilds)⟩
          · refine Or.inl ⟨err, payloadOf_of_not_built hfind hbuild, hraised, ?_⟩
            intro hanswer
            obtain ⟨items', hok, -, hkey⟩ := hanswer
            cases hitems.symm.trans hok
            obtain ⟨key, hbuilds, -⟩ := hkey jwk hnames
            rw [buildRsaKey_of_builds hbuilds] at hbuild
            cases hbuild
        · right
          left
          refine ⟨_, payloadOf_of_not_found (hget.trans hunknown), rfl, items, hitems, hscan, ?_⟩
          intro jwk hnames
          rw [findSigningKey_of_names hnames] at hunknown
          cases hunknown
      · obtain ⟨err, hfind, hraised⟩ := findSigningKey_of_not_scannable hscan
        refine Or.inl ⟨err, payloadOf_of_not_found (hget.trans hfind), hraised, ?_⟩
        intro hanswer
        obtain ⟨items', hok, hscan', -⟩ := hanswer
        cases hitems.symm.trans hok
        exact hscan hscan'

/-- From the keys on, everything that is raised is translated exactly if the keys are good. -/
theorem handled_payloadOf (hraises : PythonRaises py) (audience : Option String) (token : String)
    (kid keys : Json) (now : Int) :
    Handled (payloadOf py audience token kid keys now >>= userOf py) ↔
      KeysAnswer py audience token kid keys now := by
  obtain ⟨err, herr, hraised, hanswer⟩ | ⟨err, herr, hraised, hanswer⟩ |
    ⟨items, jwk, key, hitems, hscan, hnames, hbuilds, hpayload⟩ :=
      payloadOf_cases hraises audience token kid keys now
  · rw [herr]
    exact iff_of_false (not_handled hraised) hanswer
  · rw [herr]
    exact iff_of_true (handled_of_translated hraised) hanswer
  · rw [hpayload]
    constructor
    · intro h
      refine ⟨items, hitems, hscan, ?_⟩
      intro other hother
      have hsame : other = jwk := Except.ok.inj
        ((findSigningKey_of_names hother).symm.trans (findSigningKey_of_names hnames))
      refine ⟨key, hsame ▸ hbuilds, ?_⟩
      intro payload hdecoded
      rw [hdecoded] at h
      exact (handled_userOf payload).mp h
    · intro h
      obtain ⟨items', hok, -, hkey⟩ := h
      cases hitems.symm.trans hok
      obtain ⟨key', hbuilds', hclaims⟩ := hkey jwk hnames
      have hsame : key' = key := Except.ok.inj
        ((buildRsaKey_of_builds hbuilds').symm.trans (buildRsaKey_of_builds hbuilds))
      subst hsame
      cases hdecoded : py.decode token key' audience now with
      | error err => exact handled_of_translated rfl
      | ok payload => exact (handled_userOf payload).mpr (hclaims payload hdecoded)

/-- A payload was verified with a key that the keys have under the id. -/
theorem payloadOf_ok (hraises : PythonRaises py) {audience : Option String} {token : String}
    {kid keys : Json} {now : Int} {payload : Claims}
    (h : payloadOf py audience token kid keys now = .ok payload) :
    ∃ items jwk key, iterate keys = .ok items ∧ Names py kid items jwk ∧ Builds py jwk key ∧
      py.decode token key audience now = .ok payload := by
  obtain ⟨err, herr, -⟩ | ⟨err, herr, -⟩ | ⟨items, jwk, key, hitems, -, hnames, hbuilds, hpayload⟩ :=
    payloadOf_cases hraises audience token kid keys now
  · cases h.symm.trans herr
  · cases h.symm.trans herr
  · refine ⟨items, jwk, key, hitems, hnames, hbuilds, ?_⟩
    rw [hpayload] at h
    cases hdecoded : py.decode token key audience now with
    | error err =>
        rw [hdecoded] at h
        cases h
    | ok other =>
        rw [hdecoded] at h
        exact congrArg Except.ok (Except.ok.inj h)

theorem jwksRead_of_eval {s s' : Met} {keys : Json} {verifier : Verifier}
    (h : (getJwks py verifier).eval Met.exec (fun _ => ()) s = (.ok keys, s')) :
    JwksRead s keys s'.clock := by
  by_cases hexpires : EntryExpires s
  · obtain ⟨_, heval⟩ := eval_of_entryExpires py hexpires verifier
    cases h.symm.trans heval
  · obtain ⟨keys', now, hread⟩ | ⟨_, _, _, heval⟩ := jwksRead_or_refused py hexpires verifier
    · obtain ⟨s'', heval, rfl⟩ := eval_of_jwksRead py hread verifier
      cases h.symm.trans heval
      exact hread
    · cases h.symm.trans heval

/-- A token names a key in its header, or it does not. -/
theorem names_key_or_not (py : Python PublicKey) (token : String) :
    (∃ header, py.getUnverifiedHeader token = .ok header ∧ truthy py (header.get "kid") = true) ∨
      ∀ header, py.getUnverifiedHeader token = .ok header → truthy py (header.get "kid") = false := by
  by_cases hnamed : ∃ header, py.getUnverifiedHeader token = .ok header ∧
      truthy py (header.get "kid") = true
  · exact .inl hnamed
  · right
    intro header hheader
    rw [← Bool.not_eq_true]
    exact fun htruthy => hnamed ⟨header, hheader, htruthy⟩

/-- A token that names no key is refused. -/
theorem verifiedPayload_of_no_key {token : String}
    (h : ∀ header, py.getUnverifiedHeader token = .ok header → truthy py (header.get "kid") = false)
    (verifier : Verifier) (audience : Option String) (s : Met) :
    ∃ err, ((verifiedPayload py verifier audience token).eval Met.exec (fun _ => ()) s).1 =
      .error err ∧ err.translated = true := by
  cases hheader : py.getUnverifiedHeader token with
  | error err =>
      simp only [verifiedPayload, hheader, Except.mapError, Coroutine.error_bind,
        Coroutine.eval_done]
      exact ⟨_, rfl, rfl⟩
  | ok header =>
      simp only [verifiedPayload, hheader, Except.mapError, Coroutine.ok_bind, require,
        h header hheader]
      exact ⟨_, rfl, rfl⟩

/-- A payload that was verified came by way of the header, the cache and the key. -/
theorem verifiedPayload_ok (hraises : PythonRaises py) {verifier : Verifier}
    {audience : Option String} {token : String} {s : Met} {payload : Claims}
    (h : ((verifiedPayload py verifier audience token).eval Met.exec (fun _ => ()) s).1 =
      .ok payload) :
    ∃ header keys now items jwk key, py.getUnverifiedHeader token = .ok header ∧
      JwksRead s keys now ∧ iterate keys = .ok items ∧ Names py (header.get "kid") items jwk ∧
      Builds py jwk key ∧ py.decode token key audience now = .ok payload := by
  obtain ⟨header, hheader, htruthy⟩ | hfalse := names_key_or_not py token
  · rw [eval_verifiedPayload hheader htruthy] at h
    cases heval : (getJwks py verifier).eval Met.exec (fun _ => ()) s with
    | mk result s' =>
        rw [heval] at h
        cases result with
        | error err => cases h
        | ok keys =>
            obtain ⟨items, jwk, key, hitems, hnames, hbuilds, hdecoded⟩ := payloadOf_ok hraises h
            exact ⟨header, keys, _, items, jwk, key, hheader, jwksRead_of_eval heval, hitems, hnames,
              hbuilds, hdecoded⟩
  · obtain ⟨err, herr, -⟩ := verifiedPayload_of_no_key hfalse verifier audience s
    cases h.symm.trans herr

/-- A user is always the one that was verified, so a request is answered well if each exception of
the `try` is translated. -/
theorem answersOrRefuses_iff (hraises : PythonRaises py) (verifier : Verifier)
    (audience : Option String) (token : String) (s : Met) :
    AnswersOrRefuses py audience token s
        ((getCurrentUser py verifier audience token).eval Met.exec (fun _ => ()) s).1 ↔
      Handled (((verifiedPayload py verifier audience token).eval Met.exec (fun _ => ()) s).1 >>=
        userOf py) := by
  obtain ⟨s', heval⟩ := eval_getCurrentUser py verifier audience token s
  rw [heval]
  cases hpayload : ((verifiedPayload py verifier audience token).eval Met.exec (fun _ => ()) s).1 with
  | error err =>
      refine (answersOrRefuses_rethrow err).trans ⟨handled_of_translated, ?_⟩
      exact fun hhandled => hhandled err rfl
  | ok payload =>
      have hbind : (Except.ok payload >>= userOf py) = userOf py payload := rfl
      rw [hbind]
      cases huser : userOf py payload with
      | error err =>
          refine (answersOrRefuses_rethrow err).trans ⟨handled_of_translated, ?_⟩
          exact fun hhandled => hhandled err rfl
      | ok user =>
          obtain ⟨header, keys, now, items, jwk, key, hheader, hread, hitems, hnames, hbuilds,
            hdecoded⟩ := verifiedPayload_ok hraises hpayload
          refine iff_of_true ⟨header, keys, now, items, jwk, key, payload, hheader, hread, hitems,
            hnames, hbuilds, hdecoded, userOf_ok huser⟩ ?_
          intro err herr
          cases herr

/-- A request is answered, with the user or with an HTTP error, exactly if the cache, the keys and the
claims that it meets are such that nothing is raised beside. -/
theorem getCurrentUser_answers_iff (hraises : PythonRaises py) (verifier : Verifier)
    (audience : Option String) (token : String) (s : Met) :
    AnswersOrRefuses py audience token s
        ((getCurrentUser py verifier audience token).eval Met.exec (fun _ => ()) s).1 ↔
      Answerable py audience token s := by
  rw [answersOrRefuses_iff hraises]
  obtain ⟨header, hheader, htruthy⟩ | hfalse := names_key_or_not py token
  · have hanswerable : Answerable py audience token s ↔ ¬EntryExpires s ∧
        ∀ keys now, JwksRead s keys now →
          KeysAnswer py audience token (header.get "kid") keys now := by
      constructor
      · exact fun h => h header hheader htruthy
      · intro h header' hheader' _
        cases hheader.symm.trans hheader'
        exact h
    rw [hanswerable, eval_verifiedPayload hheader htruthy]
    by_cases hexpires : EntryExpires s
    · obtain ⟨s', heval⟩ := eval_of_entryExpires py hexpires verifier
      rw [heval]
      exact iff_of_false (not_handled rfl) fun h => h.1 hexpires
    · obtain ⟨keys, now, hread⟩ | ⟨status, detail, s', heval⟩ :=
        jwksRead_or_refused py hexpires verifier
      · obtain ⟨s', heval, rfl⟩ := eval_of_jwksRead py hread verifier
        rw [heval]
        refine (handled_payloadOf hraises audience token _ keys s'.clock).trans ?_
        constructor
        · intro hanswer
          refine ⟨hexpires, ?_⟩
          intro keys' now' hread'
          obtain ⟨s'', heval', rfl⟩ := eval_of_jwksRead py hread' verifier
          cases heval.symm.trans heval'
          exact hanswer
        · exact fun h => h.2 keys s'.clock hread
      · rw [heval]
        refine iff_of_true (handled_of_translated rfl) ⟨hexpires, ?_⟩
        intro keys now hread
        obtain ⟨s'', heval', -⟩ := eval_of_jwksRead py hread verifier
        cases heval.symm.trans heval'
  · obtain ⟨err, herr, htranslated⟩ := verifiedPayload_of_no_key hfalse verifier audience s
    rw [herr]
    refine iff_of_true (handled_of_translated htranslated) ?_
    intro header hheader htruthy
    rw [hfalse header hheader] at htruthy
    cases htruthy

end Escapes

/-! ### A service token -/

def reviewKey : RsaKey := ⟨"kid-r", "6N9fxFM", "AQAB", by decide⟩

/-- Every string is a token of the review service for the book service. -/
def serviceTokens : Python (Nat × Nat) :=
  plainPython fun _ => TokenService.generateServiceToken ⟨reviewKey, none, none⟩ 0 "review-service"
    "book-service"

/-- The keys have been in the cache for a minute. -/
def warmCache : Met := ⟨some ⟨reviewKey.keys, 3600⟩, fun _ => ⟨60, .body none, none⟩⟩

theorem serviceTokens_raises : PythonRaises serviceTokens where
  decodeInt text err h := by
    unfold serviceTokens plainPython fromBase64Url at h
    dsimp only at h
    split at h
    · cases h
    · exact (Except.error.inj h).symm
  publicKey e n err h := by
    unfold serviceTokens plainPython rsaPublicKey at h
    dsimp only at h
    split at h
    · cases h
    · exact (Except.error.inj h).symm

/-- The claims make no user, and the validation error escapes. -/
theorem not_answers_serviceToken :
    ((getCurrentUser serviceTokens .media none "t").eval Met.exec (fun _ => ()) warmCache).1 =
        .error .validationError ∧
      ¬AnswersOrRefuses serviceTokens none "t" warmCache
        ((getCurrentUser serviceTokens .media none "t").eval Met.exec (fun _ => ()) warmCache).1 := by
  have hescapes : ((getCurrentUser serviceTokens .media none "t").eval Met.exec (fun _ => ())
      warmCache).1 = .error .validationError := by
    rfl
  refine ⟨hescapes, ?_⟩
  rw [hescapes]
  exact id

theorem getCurrentUser_answers_iff_serviceToken :
    AnswersOrRefuses serviceTokens none "t" warmCache
        ((getCurrentUser serviceTokens .media none "t").eval Met.exec (fun _ => ()) warmCache).1 ↔
      Answerable serviceTokens none "t" warmCache :=
  getCurrentUser_answers_iff serviceTokens_raises .media none "t" warmCache

end BookHub.Auth
