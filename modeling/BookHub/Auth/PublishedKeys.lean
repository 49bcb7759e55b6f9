import BookHub.Auth.Answers
import BookHub.Base.Base64
import BookHub.Base.JsonText

/-!
# The published key

How the public key of the auth service travels: `JwksController.Get` writes the modulus and the exponent in
base64url, the response is JSON in UTF-8, and the book and media services look the key up by its id and
make numbers of the two texts again. A library in which tokens are JSON texts goes with them.
-/

namespace BookHub.Auth

open Base64

/-- `Base64UrlEncoder.Encode` of the bytes of a number, as `ExportParameters` gives them. -/
def base64UrlEncode (number : Nat) : String := String.ofList (encodeUrl (toBytes number))

/-- The key of a process with these parameters, as `JwksController.Get` writes it. -/
def RsaKey.ofParameters (kid : String) (named : kid.isEmpty = false) (modulus exponent : Nat) : RsaKey :=
  ⟨kid, base64UrlEncode modulus, base64UrlEncode exponent, named⟩

/-- The bytes of the response. -/
def RsaKey.response (key : RsaKey) : List UInt8 := Utf8.encode (Json.serialize.write key.jwks)

/-- What a service makes of the bytes of a response, for a token that names this key. -/
def readKey {PublicKey : Type} (py : Python PublicKey) (response : List UInt8) (kid : String) :
    Except PyException PublicKey := do
  let body ← (Json.read (Utf8.decode response)).elim (.error .valueError) Except.ok
  let jwks ← item "keys" body
  buildRsaKey py (← getSigningKey py jwks (.str kid))

theorem fromBase64Url_encode (number : Nat) : fromBase64Url (base64UrlEncode number) = .ok number := by
  rw [fromBase64Url, base64UrlEncode, String.toList_ofList, latin1_encode (encodeUrl_ascii _),
    decodeUrl_encodeUrl _ fun _ => lt_of_mem_toBytes]
  exact congrArg Except.ok (fromBytes_toBytes number)

theorem read_response (key : RsaKey) : Json.read (Utf8.decode key.response) = some key.jwks := by
  rw [RsaKey.response, Utf8.decode_encode]
  apply Json.read_write
  exact ⟨⟨⟨trivial, trivial, trivial, trivial, trivial, trivial, trivial⟩, trivial⟩, trivial⟩

section Services

variable {PublicKey : Type} (py : Python PublicKey)

theorem buildRsaKey_jwk (key : RsaKey) : buildRsaKey py key.jwk =
    (py.decodeInt key.n >>= fun n => py.decodeInt key.e >>= fun e => py.publicKey e n) := rfl

theorem buildRsaKey_of_decodeInt {key : RsaKey} {n e : Nat} (hn : py.decodeInt key.n = .ok n)
    (he : py.decodeInt key.e = .ok e) : buildRsaKey py key.jwk = py.publicKey e n := by
  rw [buildRsaKey_jwk, hn, he]
  rfl

/-- The key is found by its id in what was published. -/
theorem readKey_eq (key : RsaKey) (kid : String) :
    readKey py key.response kid = if kid = key.kid then buildRsaKey py key.jwk
      else .error (.http 401 "Invalid token: unknown key ID") := by
  have hkeys : readKey py key.response kid =
      (getSigningKey py key.keys (.str kid) >>= fun jwk => buildRsaKey py jwk) := by
    rw [readKey, read_response]
    rfl
  rw [hkeys]
  by_cases hkid : kid = key.kid
  · rw [if_pos hkid, hkid, getSigningKey_keys]
    rfl
  · rw [if_neg hkid, getSigningKey_other fun h => hkid h.symm]
    rfl

end Services

/-! ### Tokens that are written as texts -/

namespace Jwt

/-- A token and the key that it is signed with, as a text. -/
def toJson (jwt : Jwt) : Json :=
  .arr [.str jwt.key.kid, .str jwt.key.n, .str jwt.key.e, .obj jwt.payload, jwt.audience.elim .null .str,
    .int jwt.expires]

def ofJson : Json → Option Jwt
  | .arr [.str kid, .str n, .str e, .obj payload, audience, .int expires] =>
      if named : kid.isEmpty = false then
        match audience with
        | .null => some ⟨⟨kid, n, e, named⟩, payload, none, expires⟩
        | .str audience => some ⟨⟨kid, n, e, named⟩, payload, some audience, expires⟩
        | _ => none
      else none
  | _ => none

def text (jwt : Jwt) : String := String.ofList (Json.dumps.write jwt.toJson)

def ofText (text : String) : Option Jwt := (Json.read text.toList).bind ofJson

theorem ofText_text (jwt : Jwt) (h : Json.WellFormedFields jwt.payload) : ofText jwt.text = some jwt := by
  have hread : Json.read (Json.dumps.write jwt.toJson) = some jwt.toJson := by
    apply Json.read_write
    refine ⟨trivial, trivial, trivial, h, ?_, trivial, trivial⟩
    cases jwt.audience <;> trivial
  rw [ofText, text, String.toList_ofList, hread]
  obtain ⟨⟨kid, n, e, named⟩, payload, audience, expires⟩ := jwt
  cases audience <;> simp only [toJson, Option.bind_some, ofJson, Option.elim, named, dite_true]

end Jwt

theorem wellFormed_sign (service : TokenService) (claims : List (String × String)) (expires : Int) :
    Json.WellFormedFields (service.sign claims expires).payload := by
  induction claims with
  | nil =>
      obtain ⟨key, issuer, audience⟩ := service
      cases issuer <;> cases audience <;> exact ⟨trivial, by trivial⟩
  | cons claim claims ih => exact ⟨trivial, ih⟩

/-- A signature is good if it is that of the key. -/
def decodeText (token : String) (publicKey : Nat × Nat) (audience : Option String) (now : Int) :
    Except JoseError Claims :=
  match Jwt.ofText token with
  | none => .error (.jwt "Error decoding token headers.")
  | some jwt =>
      if jwt.key.numbers ≠ .ok publicKey then .error (.jwt "Signature verification failed.")
      else if audience ≠ jwt.audience then .error (.jwt "Invalid audience")
      else if jwt.expires < now then .error .expiredSignature
      else .ok jwt.payload

theorem decodeText_ok {token : String} {publicKey : Nat × Nat} {audience : Option String} {now : Int}
    {payload : Claims} (h : decodeText token publicKey audience now = .ok payload) :
    ∃ jwt, Jwt.ofText token = some jwt ∧ jwt.key.numbers = .ok publicKey ∧ payload = jwt.payload ∧
      now ≤ jwt.expires := by
  unfold decodeText at h
  split at h
  · cases h
  · rename_i jwt hjwt
    split at h
    · cases h
    · rename_i hkey
      split at h
      · cases h
      · split at h
        · cases h
        · rename_i hexpires
          cases h
          exact ⟨jwt, hjwt, Decidable.not_not.mp hkey, rfl, Int.not_lt.mp hexpires⟩

def textPython : Python (Nat × Nat) where
  eq x y := (encode x).toOption.any fun text => (encode y).toOption.any (text == ·)
  eq_str _ _ := rfl
  truthyFloat literal := literal.toList.any fun c => '1' ≤ c && c ≤ '9'
  text _ := ""
  decodeInt := fromBase64Url
  publicKey e n := .ok (e, n)
  getUnverifiedHeader token :=
    match Jwt.ofText token with
    | some jwt => .ok [("alg", .str "RS256"), ("kid", .str jwt.key.kid)]
    | none => .error (.jwt "Error decoding token headers.")
  decode := decodeText

theorem buildRsaKey_textPython (key : RsaKey) : buildRsaKey textPython key.jwk = key.numbers :=
  buildRsaKey_jwk textPython key

/-! ### What the services read -/

theorem readKey_of_parameters {PublicKey : Type} (py : Python PublicKey) {key : RsaKey} {modulus exponent : Nat}
    (hn : key.n = base64UrlEncode modulus) (he : key.e = base64UrlEncode exponent) (other : String) :
    readKey { py with decodeInt := fromBase64Url } key.response other =
      if other = key.kid then py.publicKey exponent modulus
      else .error (.http 401 "Invalid token: unknown key ID") := by
  have hmodulus : fromBase64Url key.n = .ok modulus := by rw [hn, fromBase64Url_encode]
  have hexponent : fromBase64Url key.e = .ok exponent := by rw [he, fromBase64Url_encode]
  rw [readKey_eq, buildRsaKey_of_decodeInt { py with decodeInt := fromBase64Url } hmodulus hexponent]

/-- A service has the numbers of the key again, and no key under another id. -/
theorem readKey_response {PublicKey : Type} (py : Python PublicKey) (kid other : String)
    (named : kid.isEmpty = false) (modulus exponent : Nat) :
    readKey { py with decodeInt := fromBase64Url }
        (RsaKey.ofParameters kid named modulus exponent).response other =
      if other = kid then py.publicKey exponent modulus
      else .error (.http 401 "Invalid token: unknown key ID") :=
  readKey_of_parameters py rfl rfl other

/-- The key that is asked for, and another one. -/
theorem readKey_response_two :
    readKey { textPython with decodeInt := fromBase64Url }
        (RsaKey.ofParameters "k1" rfl 3233 17).response "k1" = .ok (17, 3233) ∧
      readKey { textPython with decodeInt := fromBase64Url }
        (RsaKey.ofParameters "k1" rfl 3233 17).response "k2" =
          .error (.http 401 "Invalid token: unknown key ID") :=
  ⟨(readKey_response textPython "k1" "k1" rfl 3233 17).trans (if_pos rfl),
    (readKey_response textPython "k1" "k2" rfl 3233 17).trans (if_neg (by decide))⟩

end BookHub.Auth
