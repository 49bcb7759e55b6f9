import BookHub.Base.Json

/-!
# The tokens of the auth service

One RSA key signs the tokens of users and those of services, with the same issuer and the same
audience; what tells them apart is which claims they have. The key is made when the process starts,
with a new id, and its public part is what the JWKS endpoint answers.
-/

namespace BookHub.Auth

/-- The key of one process of the auth service: its id, a GUID, and, as they are published, its modulus
and its exponent. -/
structure RsaKey where
  kid : String
  n : String
  e : String
  named : kid.isEmpty = false
  deriving DecidableEq, Repr

structure User where
  id : Int
  name : String
  email : String
  role : String
  deriving DecidableEq, Repr

/-- The claims of a token; their names are distinct. -/
abbrev Claims : Type := List (String × Json)

/-- A signed token, before it is written as a string. Times are in seconds. -/
structure Jwt where
  key : RsaKey
  payload : Claims
  audience : Option String
  expires : Int

structure TokenService where
  key : RsaKey
  issuer : Option String
  audience : Option String

namespace TokenService

/-- `new JwtSecurityToken(..)`, signed. -/
def sign (service : TokenService) (claims : List (String × String)) (expires : Int) : Jwt where
  key := service.key
  payload := claims.map (fun claim => (claim.1, .str claim.2)) ++ ("exp", .int expires) ::
    (service.issuer.toList.map (fun issuer => ("iss", .str issuer)) ++
      service.audience.toList.map fun audience => ("aud", .str audience))
  audience := service.audience
  expires := expires

def generateUserToken (service : TokenService) (now : Int) (user : User) : Jwt :=
  service.sign [("sub", toString user.id), ("name", user.name), ("email", user.email),
    ("role", user.role)] (now + 3600)

def generateServiceToken (service : TokenService) (now : Int)
    (serviceName targetServiceName : String) : Jwt :=
  service.sign [("sub", serviceName), ("azp", targetServiceName)] (now + 300)

end TokenService

namespace RsaKey

theorem kid_ne (key : RsaKey) : key.kid ≠ "" := by
  intro hkid
  have hnamed := key.named
  rw [hkid] at hnamed
  cases hnamed

def jwk (key : RsaKey) : Json :=
  .obj [("kty", .str "RSA"), ("use", .str "sig"), ("kid", .str key.kid), ("e", .str key.e),
    ("n", .str key.n), ("alg", .str "RS256")]

def keys (key : RsaKey) : Json := .arr [key.jwk]

/-- What the JWKS endpoint answers. -/
def jwks (key : RsaKey) : Json := .obj [("keys", key.keys)]

end RsaKey

end BookHub.Auth
