import BookHub.Auth.Tokens
import BookHub.Base.Base64
import BookHub.Base.Pool
import BookHub.BookService.Handlers

/-!
# The authenticators of the book and media services

`get_current_user`, which both services have in the same words, and `get_service_auth` of the book
service. Each service keeps the keys of the auth service in a cache whose entries expire, and asks the
JWKS endpoint when it has none. An access of the cache is an operation, since it reads the clock, and
so are the request to the endpoint and the clock reading of `jwt.decode`.

The JWT library is a parameter, and so are the conversions of numbers that the comparison of two JSON
values, the truth of a float and the text of an exception need.
-/

namespace BookHub.Auth

open BookService (JwtUser)

/-- The two services, each with its own cache. -/
inductive Verifier where
  | book
  | media
  deriving DecidableEq, Repr

inductive JoseError where
  | expiredSignature
  | jwt (text : String)
  deriving DecidableEq, Repr

/-- What is raised on the way. -/
inductive PyException where
  | http (status : Nat) (detail : String)
  | jose (error : JoseError)
  | keyError
  | typeError
  | attributeError
  | valueError
  | validationError
  deriving DecidableEq, Repr

/-- The libraries that the authenticators call. `decodeInt` is the number of a base64url text,
`publicKey` the key of an exponent and a modulus. -/
structure Python (PublicKey : Type) where
  eq : Json → Json → Bool
  eq_str : ∀ x y, eq (.str x) (.str y) = (x == y)
  truthyFloat : String → Bool
  text : PyException → String
  decodeInt : String → Except PyException Nat
  publicKey : Nat → Nat → Except PyException PublicKey
  getUnverifiedHeader : String → Except JoseError Claims
  decode : String → PublicKey → Option String → Int → Except JoseError Claims

/-- `claims.get(name)`. -/
def Claims.get (claims : Claims) (name : String) : Json := (claims.lookup name).getD .null

/-- `value[name]`; of fields with the same name the last one counts. -/
def item (name : String) : Json → Except PyException Json
  | .obj fields =>
      match fields.reverse.lookup name with
      | some value => .ok value
      | none => .error .keyError
  | _ => .error .typeError

/-! ### The operations -/

/-- Why the JWKS endpoint gave no body. -/
inductive JwksFailure where
  | requestError (text : String)
  | statusError (status : Nat) (text : String)
  | unexpected (text : String)
  deriving DecidableEq, Repr

/-- What the request to the JWKS endpoint comes to; the body is `none` when it is not JSON. -/
inductive JwksResponse where
  | failed (failure : JwksFailure)
  | body (json : Option Json)

inductive AuthOp where
  | cached (verifier : Verifier)
  | getCached (verifier : Verifier)
  | putCached (verifier : Verifier) (keys : Json)
  | fetchJwks
  | now

abbrev authSig : Signature where
  Op := AuthOp
  Answer
    | .cached _ => Bool
    | .getCached _ => Json
    | .putCached _ _ => Unit
    | .fetchJwks => JwksResponse
    | .now => Int

abbrev AuthM : Type → Type := Coroutine authSig PyException

def call (op : AuthOp) : AuthM (authSig.Answer op) := @Coroutine.perform authSig PyException op

section Authenticators

variable {PublicKey : Type} (py : Python PublicKey)

def truthy : Json → Bool
  | .null => false
  | .bool value => value
  | .int value => value ≠ 0
  | .frac literal => py.truthyFloat literal
  | .str value => value ≠ ""
  | .arr items => !items.isEmpty
  | .obj fields => !fields.isEmpty

/-! ### The keys -/

/-- The body of the `try`, on a response. Its second access of the cache is that of the log line. -/
def storeKeys (verifier : Verifier) : JwksResponse → AuthM Unit
  | .failed (.requestError text) =>
      throw (.http 503 s!"Could not connect to JWKS endpoint: {text}")
  | .failed (.statusError status text) =>
      throw (.http status s!"JWKS endpoint returned error: {text}")
  | .failed (.unexpected text) => throw (.http 500 s!"Unexpected error: {text}")
  | .body json =>
      tryCatch
        (do
          let body ← Coroutine.done (json.elim (.error .valueError) Except.ok)
          let keys ← Coroutine.done (item "keys" body)
          call (.putCached verifier keys)
          let _line ← call (.getCached verifier)
          return ())
        fun err => throw (.http 500 ("Unexpected error: " ++ py.text err))

def fetchKeys (verifier : Verifier) : AuthM Unit := do
  let response ← call .fetchJwks
  storeKeys py verifier response

def getJwks (verifier : Verifier) : AuthM Json := do
  let cached ← call (.cached verifier)
  if cached then call (.getCached verifier)
  else
    fetchKeys py verifier
    call (.getCached verifier)

def findSigningKey (kid : Json) : List Json → Except PyException Json
  | [] => .error (.http 401 "Invalid token: unknown key ID")
  | key :: rest => do
      let keyId ← item "kid" key
      if py.eq keyId kid then return key else findSigningKey kid rest

/-- What a `for` loop goes over: the items of a list, the names of an object, the characters of a
string. -/
def iterate : Json → Except PyException (List Json)
  | .arr items => .ok items
  | .obj fields => .ok (fields.map fun field => .str field.1)
  | .str text => .ok (text.toList.map fun c => .str (String.singleton c))
  | _ => .error .typeError

def getSigningKey (jwks kid : Json) : Except PyException Json := do
  findSigningKey py kid (← iterate jwks)

/-- `value.encode('utf-8')`. -/
def encode : Json → Except PyException String
  | .str text => .ok text
  | _ => .error .attributeError

def buildRsaKey (jwk : Json) : Except PyException PublicKey := do
  let n ← py.decodeInt (← encode (← item "n" jwk))
  let e ← py.decodeInt (← encode (← item "e" jwk))
  py.publicKey e n

/-! ### The authenticators -/

/-- `if not value: raise ..` -/
def require (value : Json) (err : PyException) : AuthM Unit :=
  if truthy py value then pure () else throw err

/-- The part that both authenticators begin with. -/
def verifiedPayload (verifier : Verifier) (audience : Option String) (token : String) :
    AuthM Claims := do
  let unverifiedHeader ← Coroutine.done ((py.getUnverifiedHeader token).mapError .jose)
  let kid := unverifiedHeader.get "kid"
  require py kid (.http 401 "Invalid token header")
  let jwks ← getJwks py verifier
  let signingKey ← Coroutine.done (getSigningKey py jwks kid)
  let publicKey ← Coroutine.done (buildRsaKey py signingKey)
  let now ← call .now
  Coroutine.done ((py.decode token publicKey audience now).mapError .jose)

/-- The two `except` clauses. -/
def rethrow {α : Type} : PyException → AuthM α
  | .jose .expiredSignature => throw (.http 401 "Token expired")
  | .jose (.jwt text) => throw (.http 401 s!"Token invalid: {text}")
  | err => throw err

/-- The model validates that each of its fields is a string. -/
def jwtUser (userId userName userEmail userRole : Json) : Except PyException JwtUser :=
  match userId, userName, userEmail, userRole with
  | .str id, .str name, .str email, .str role => .ok ⟨id, name, email, role⟩
  | _, _, _, _ => .error .validationError

def getCurrentUser (verifier : Verifier) (audience : Option String) (token : String) :
    AuthM JwtUser :=
  tryCatch
    (do
      let payload ← verifiedPayload py verifier audience token
      let userId := payload.get "sub"
      require py userId (.http 401 "Missing subject in token")
      Coroutine.done (jwtUser userId (payload.get "name") (payload.get "email") (payload.get "role")))
    rethrow

def getServiceAuth (audience : Option String) (token : String) : AuthM Unit :=
  tryCatch
    (do
      let payload ← verifiedPayload py .book audience token
      let requestingService := payload.get "sub"
      let targetService := payload.get "azp"
      require py requestingService (.http 401 "Missing subject in token")
      require py targetService (.http 401 "Missing target service in token")
      if py.eq targetService (.str "book-service") then return ()
      else throw (.http 401 "Target service invalid"))
    rethrow

/-- A user has a string for each of its fields. -/
theorem jwtUser_ok {userId userName userEmail userRole : Json} {user : JwtUser}
    (h : jwtUser userId userName userEmail userRole = .ok user) :
    userId = .str user.id ∧ userName = .str user.name ∧ userEmail = .str user.email ∧
      userRole = .str user.role := by
  unfold jwtUser at h
  split at h
  · cases h
    exact ⟨rfl, rfl, rfl, rfl⟩
  · cases h

end Authenticators

/-! ### What the tokens say -/

namespace TokenService

variable (service : TokenService)

/-- The claims of a token beside its expiry, issuer and audience. -/
theorem get_sign (claims : List (String × String)) (expires : Int) (name : String)
    (hexp : name ≠ "exp") (hiss : name ≠ "iss") (haud : name ≠ "aud") :
    Claims.get (service.sign claims expires).payload name =
      ((claims.lookup name).map Json.str).getD .null := by
  have hmap : (claims.map fun claim => (claim.1, Json.str claim.2)).lookup name =
      (claims.lookup name).map Json.str := by
    induction claims with
    | nil => rfl
    | cons claim rest ih =>
        rw [List.map_cons, List.lookup_cons, List.lookup_cons, ih]
        split <;> rfl
  have hrest : (("exp", Json.int expires) ::
      (service.issuer.toList.map (fun issuer => ("iss", Json.str issuer)) ++
        service.audience.toList.map fun audience => ("aud", Json.str audience))).lookup name =
          none := by
    rw [List.lookup_eq_none_iff]
    intro claim hclaim
    obtain rfl | hclaim := List.mem_cons.mp hclaim
    · simpa using hexp
    · obtain hclaim | hclaim := List.mem_append.mp hclaim
      · obtain ⟨_, _, rfl⟩ := List.mem_map.mp hclaim
        simpa using hiss
      · obtain ⟨_, _, rfl⟩ := List.mem_map.mp hclaim
        simpa using haud
  rw [Claims.get, sign, List.lookup_append, hmap, hrest, Option.or_none]

/-- A token of a user has no target. -/
theorem get_userToken (now : Int) (user : User) :
    let payload := (service.generateUserToken now user).payload
    payload.get "sub" = .str (toString user.id) ∧ payload.get "name" = .str user.name ∧
      payload.get "email" = .str user.email ∧ payload.get "role" = .str user.role ∧
      payload.get "azp" = .null := by
  have hget := service.get_sign [("sub", toString user.id), ("name", user.name),
    ("email", user.email), ("role", user.role)] (now + 3600)
  refine ⟨?_, ?_, ?_, ?_, ?_⟩
  · exact hget "sub" (by decide) (by decide) (by decide)
  · exact hget "name" (by decide) (by decide) (by decide)
  · exact hget "email" (by decide) (by decide) (by decide)
  · exact hget "role" (by decide) (by decide) (by decide)
  · exact hget "azp" (by decide) (by decide) (by decide)

/-- A token of a service has no name of a user. -/
theorem get_serviceToken (now : Int) (serviceName targetServiceName : String) :
    let payload := (service.generateServiceToken now serviceName targetServiceName).payload
    payload.get "name" = .null ∧ payload.get "azp" = .str targetServiceName := by
  have hget := service.get_sign [("sub", serviceName), ("azp", targetServiceName)] (now + 300)
  refine ⟨?_, ?_⟩
  · exact hget "name" (by decide) (by decide) (by decide)
  · exact hget "azp" (by decide) (by decide) (by decide)

end TokenService

/-! ### What the library reads -/

/-- The string is the token written down: the library reads the header that was written, and a payload
that it takes is the one that was signed. It takes it under the public key of the signer, for its
audience, until it expires. -/
structure PythonReads {PublicKey : Type} (py : Python PublicKey) (token : String) (jwt : Jwt)
    (publicKey : PublicKey) : Prop where
  header : ∃ header, py.getUnverifiedHeader token = .ok header ∧ header.get "kid" = .str jwt.key.kid
  decoded : ∀ key audience now payload, py.decode token key audience now = .ok payload →
    payload = jwt.payload
  accepted : ∀ now, now < jwt.expires → py.decode token publicKey jwt.audience now = .ok jwt.payload

/-! ### A library -/

/-- `int.from_bytes(base64url_decode(text.encode('utf-8')), 'big')`. -/
def fromBase64Url (text : String) : Except PyException Nat :=
  match Base64.decodeUrl (Base64.latin1 (Utf8.encode text.toList)) with
  | .ok bytes => .ok (Base64.fromBytes bytes)
  | .error _ => .error .valueError

/-- `RSAPublicNumbers(e, n).public_key()`, which checks the two numbers. -/
def rsaPublicKey (e n : Nat) : Except PyException (Nat × Nat) :=
  if 3 ≤ n ∧ 3 ≤ e ∧ e < n ∧ e % 2 = 1 then .ok (e, n) else .error .valueError

/-- The exponent and the modulus. -/
def RsaKey.numbers (key : RsaKey) : Except PyException (Nat × Nat) :=
  fromBase64Url key.n >>= fun n => fromBase64Url key.e >>= fun e => .ok (e, n)

/-- A library for which each string is one token, and a signature is good if it is that of the key. -/
def plainPython (read : String → Jwt) : Python (Nat × Nat) where
  eq
    | .str x, .str y => x == y
    | _, _ => false
  eq_str _ _ := rfl
  truthyFloat literal := literal.toList.any fun c => '1' ≤ c && c ≤ '9'
  text _ := ""
  decodeInt := fromBase64Url
  publicKey := rsaPublicKey
  getUnverifiedHeader token := .ok [("alg", .str "RS256"), ("kid", .str (read token).key.kid)]
  decode token publicKey audience now :=
    if (read token).key.numbers = .ok publicKey then
      if audience = (read token).audience then
        if now < (read token).expires then .ok (read token).payload else .error .expiredSignature
      else .error (.jwt "Invalid audience")
    else .error (.jwt "Signature verification failed.")

theorem plainPython_reads (read : String → Jwt) (token : String) {publicKey : Nat × Nat}
    (hkey : (read token).key.numbers = .ok publicKey) :
    PythonReads (plainPython read) token (read token) publicKey where
  header := ⟨_, rfl, rfl⟩
  decoded key audience now payload h := by
    simp only [plainPython] at h
    split at h
    · split at h
      · split at h
        · exact (Except.ok.inj h).symm
        · cases h
      · cases h
    · cases h
  accepted now h := by simp [plainPython, hkey, h]

end BookHub.Auth
