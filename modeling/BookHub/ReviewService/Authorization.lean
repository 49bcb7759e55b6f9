import BookHub.Auth.Tokens
import BookHub.ReviewService.Books

/-!
# The authenticator of the review service

`JWTAuthMiddleware` lets a request through with the claims of its token. The JWT library is a
parameter; its `ParseWithClaims` decodes the payload into the struct of the claims, verifies the
signature with the key that the key function finds and checks the expiry, but not the audience.
-/

namespace BookHub.ReviewService.Authorization

open Auth (Claims)

/-- The claims that are read of a token; the registered ones beside the subject are left out. -/
structure JwtUser where
  name : String
  email : String
  role : String
  subject : String
  deriving DecidableEq, Repr

namespace JwtUser

def zero : JwtUser := ⟨"", "", "", ""⟩

/-- The decoder matches field names up to case, and `null` leaves a field alone. -/
def decodeField (user : JwtUser) : String × Json → Option JwtUser
  | (_, .null) => some user
  | (name, value) =>
      if foldName name = foldName "Name" then (decodeString value).map fun name => { user with name }
      else if foldName name = foldName "Email" then
        (decodeString value).map fun email => { user with email }
      else if foldName name = foldName "Role" then (decodeString value).map fun role => { user with role }
      else if foldName name = foldName "sub" then
        (decodeString value).map fun subject => { user with subject }
      else some user

def decode (payload : Claims) : Option JwtUser := payload.foldlM decodeField zero

end JwtUser

/-- What the middleware answers itself, or the claims with which it calls the next handler. -/
inductive Outcome where
  | error (text : String) (code : Nat)
  | next (claims : JwtUser)
  deriving DecidableEq, Repr

/-- `ParseWithClaims` under a key function, at a time; `none` when it returns an error or the token is
not valid. -/
abbrev ParseWithClaims (PublicKey : Type) : Type :=
  String → (String → Option PublicKey) → Int → Option JwtUser

def trimPrefix (text start : String) : String :=
  if start.toList.isPrefixOf text.toList then String.ofList (text.toList.drop start.length) else text

/-- `jwks` is the key function of the set of keys, `none` when it could not be loaded. -/
def jwtAuthMiddleware {PublicKey : Type} (parseWithClaims : ParseWithClaims PublicKey)
    (jwks : Option (String → Option PublicKey)) (now : Int) (authHeader : String) : Outcome :=
  if authHeader = "" then .error "Missing Authorization header" 401
  else
    let tokenStr := trimPrefix authHeader "Bearer "
    if tokenStr = authHeader then .error "Invalid Authorization header format" 401
    else
      match jwks with
      | none => .error "JWKS service unavailable." 503
      | some keyfunc =>
          match parseWithClaims tokenStr keyfunc now with
          | none => .error "Invalid or expired token" 401
          | some claims =>
              if claims.subject = "" then .error "Subject claim doesnt exist" 401 else .next claims

theorem trimPrefix_append (start text : String) : trimPrefix (start ++ text) start = text := by
  have hprefix : start.toList.isPrefixOf (start ++ text).toList = true := by
    rw [String.toList_append, List.isPrefixOf_iff_prefix]
    exact List.prefix_append _ _
  rw [trimPrefix, if_pos hprefix, String.toList_append, ← String.length_toList, List.drop_left,
    String.ofList_toList]

theorem bearer_ne (token : String) : token ≠ "Bearer " ++ token := by
  intro h
  have hlength := congrArg String.length h
  rw [String.length_append] at hlength
  have hbearer : "Bearer ".length = 7 := by decide
  omega

/-- What becomes of a bearer token. -/
theorem jwtAuthMiddleware_bearer {PublicKey : Type} (parseWithClaims : ParseWithClaims PublicKey)
    (jwks : Option (String → Option PublicKey)) (now : Int) (token : String) :
    jwtAuthMiddleware parseWithClaims jwks now ("Bearer " ++ token) =
      match jwks with
      | none => .error "JWKS service unavailable." 503
      | some keyfunc =>
          match parseWithClaims token keyfunc now with
          | none => .error "Invalid or expired token" 401
          | some claims =>
              if claims.subject = "" then .error "Subject claim doesnt exist" 401
              else .next claims := by
  have hsome : "Bearer " ++ token ≠ "" := by
    intro h
    have hlength := congrArg String.length h
    rw [String.length_append] at hlength
    have hbearer : "Bearer ".length = 7 := by decide
    have hempty : "".length = 0 := by decide
    omega
  unfold jwtAuthMiddleware
  rw [if_neg hsome, trimPrefix_append]
  show (if token = "Bearer " ++ token then _ else _) = _
  rw [if_neg (bearer_ne token)]

/-! ### Decoding the claims -/

theorem decodeField_subject (user : JwtUser) (subject : String) :
    user.decodeField ("sub", .str subject) = some { user with subject } := by
  have hname : foldName "sub" ≠ foldName "Name" := by decide
  have hemail : foldName "sub" ≠ foldName "Email" := by decide
  have hrole : foldName "sub" ≠ foldName "Role" := by decide
  simp only [JwtUser.decodeField, hname, hemail, hrole, if_true, if_false, decodeString,
    Option.map_some]

/-- A claim of another name is skipped. -/
theorem decodeField_other {name : String} (h : foldName name ∉
    [foldName "Name", foldName "Email", foldName "Role", foldName "sub"]) (user : JwtUser)
    (value : Json) : user.decodeField (name, value) = some user := by
  simp only [List.mem_cons, List.not_mem_nil, not_or] at h
  unfold JwtUser.decodeField
  split
  · rfl
  · rename_i hfield
    cases hfield
    simp only [h, if_false]

/-! ### What the library reads -/

/-- The string is the token written down: claims that the library returns are decoded from the payload
that was signed. It returns them when the key function finds the public key of the signer, until the
token expires. -/
structure GoReads {PublicKey : Type} (parseWithClaims : ParseWithClaims PublicKey) (token : String)
    (jwt : Auth.Jwt) (publicKey : PublicKey) : Prop where
  parsed : ∀ keyfunc now claims, parseWithClaims token keyfunc now = some claims →
    JwtUser.decode jwt.payload = some claims
  valid : ∀ keyfunc now, keyfunc jwt.key.kid = some publicKey → now < jwt.expires →
    parseWithClaims token keyfunc now = JwtUser.decode jwt.payload

/-- A library for which each string is one token, written with the only key there is. -/
def plainParse (read : String → Auth.Jwt) : ParseWithClaims Unit := fun token keyfunc now =>
  if (keyfunc (read token).key.kid).isSome ∧ now < (read token).expires then
    JwtUser.decode (read token).payload
  else none

theorem plainParse_reads (read : String → Auth.Jwt) (token : String) :
    GoReads (plainParse read) token (read token) () where
  parsed keyfunc now claims h := by
    unfold plainParse at h
    split at h
    · exact h
    · cases h
  valid keyfunc now hkey hlt := by simp [plainParse, hkey, hlt]

end BookHub.ReviewService.Authorization
