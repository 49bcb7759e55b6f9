import BookHub.Auth.Authorization
import BookHub.ReviewService.Authorization

/-!
# Users and services

A token of a service has no name, e-mail and role, so it never becomes a user in the book and media
services, whose user model requires them; a token of a user has no target service, so it is never
taken for that of a service. The review service asks for a subject only, and every service has one
unless its name is empty.
-/

namespace BookHub.Auth

open Coroutine (Returns returns_bind returns_tryCatch returns_throw returns_trivial)
open ReviewService.Authorization (ParseWithClaims GoReads Outcome jwtAuthMiddleware
  jwtAuthMiddleware_bearer decodeField_subject decodeField_other plainParse plainParse_reads)

/-- The claims as the review service decodes them. -/
abbrev GoUser : Type := ReviewService.Authorization.JwtUser

/-! ### The authenticators in Python -/

section Python

variable {PublicKey : Type} {py : Python PublicKey} {token : String} {jwt : Jwt} {key : PublicKey}

theorem returns_rethrow {α : Type} {post : α → Prop} (err : PyException) :
    Returns post (rethrow err : AuthM α) := by
  unfold rethrow
  split <;> exact returns_throw _

/-- A value that is required to be there is there. -/
theorem returns_require (value : Json) (err : PyException) :
    Returns (fun _ => truthy py value = true) (require py value err) := by
  unfold require
  split
  · rename_i htruthy
    exact fun _ _ => htruthy
  · exact returns_throw err

/-- The payload that an authenticator works with is the one that was signed. -/
theorem returns_verifiedPayload (h : PythonReads py token jwt key) (verifier : Verifier)
    (audience : Option String) :
    Returns (fun payload => payload = jwt.payload) (verifiedPayload py verifier audience token) := by
  unfold verifiedPayload
  apply returns_bind (returns_trivial _)
  intro header _
  apply returns_bind (returns_trivial _)
  intro _ _
  apply returns_bind (returns_trivial _)
  intro jwks _
  apply returns_bind (returns_trivial _)
  intro signingKey _
  apply returns_bind (returns_trivial _)
  intro publicKey _
  apply returns_bind (returns_trivial _)
  intro now _ payload hpayload
  cases hdecode : py.decode token publicKey audience now with
  | error err =>
      rw [hdecode] at hpayload
      cases hpayload
  | ok decoded =>
      rw [hdecode] at hpayload
      cases hpayload
      exact h.decoded publicKey audience now payload hdecode

/-- A token without a name is no user. -/
theorem getCurrentUser_refuses (h : PythonReads py token jwt key)
    (hname : Claims.get jwt.payload "name" = .null) (verifier : Verifier) (audience : Option String) :
    Returns (fun _ => False) (getCurrentUser py verifier audience token) := by
  apply returns_tryCatch _ returns_rethrow
  apply returns_bind (returns_verifiedPayload h verifier audience)
  intro payload hpayload
  subst hpayload
  apply returns_bind (returns_trivial _)
  intro _ _ user huser
  obtain ⟨-, hstr, -⟩ := jwtUser_ok huser
  rw [hname] at hstr
  cases hstr

/-- What is taken for a service names the book service as its target. -/
theorem getServiceAuth_target (h : PythonReads py token jwt key) (audience : Option String) :
    Returns (fun _ => truthy py (Claims.get jwt.payload "azp") = true ∧
      py.eq (Claims.get jwt.payload "azp") (.str "book-service") = true)
      (getServiceAuth py audience token) := by
  apply returns_tryCatch _ returns_rethrow
  apply returns_bind (returns_verifiedPayload h .book audience)
  intro payload hpayload
  subst hpayload
  apply returns_bind (returns_trivial _)
  intro _ _
  apply returns_bind (returns_require _ _)
  intro _ htruthy
  split
  · rename_i htarget
    exact fun _ _ => ⟨htruthy, htarget⟩
  · exact returns_throw _

end Python

/-! ### The authenticator in Go -/

section Go

variable {PublicKey : Type} {parseWithClaims : ParseWithClaims PublicKey} {token : String} {jwt : Jwt}
  {key : PublicKey}

/-- The middleware lets no bearer token through whose subject is empty. -/
theorem middleware_refuses (h : GoReads parseWithClaims token jwt key)
    {claims : GoUser}
    (hclaims : ReviewService.Authorization.JwtUser.decode jwt.payload = some claims)
    (hsubject : claims.subject = "") (jwks : Option (String → Option PublicKey)) (now : Int)
    (user : GoUser) :
    jwtAuthMiddleware parseWithClaims jwks now ("Bearer " ++ token) ≠ .next user := by
  rw [jwtAuthMiddleware_bearer]
  cases jwks with
  | none => exact Outcome.noConfusion
  | some keyfunc =>
      cases hparse : parseWithClaims token keyfunc now with
      | none => simp only [hparse, ne_eq, reduceCtorEq, not_false_eq_true]
      | some parsed =>
          have hsame : claims = parsed :=
            Option.some.inj (hclaims.symm.trans (h.parsed keyfunc now parsed hparse))
          rw [← hsame] at hparse
          simp only [hparse, hsubject, if_true, ne_eq, reduceCtorEq, not_false_eq_true]

/-- The middleware lets a token that has a subject through while it is valid. -/
theorem middleware_accepts (h : GoReads parseWithClaims token jwt key)
    {claims : GoUser}
    (hclaims : ReviewService.Authorization.JwtUser.decode jwt.payload = some claims)
    (hsubject : claims.subject ≠ "") :
    jwtAuthMiddleware parseWithClaims (some fun _ => some key) (jwt.expires - 1) ("Bearer " ++ token) =
      .next claims := by
  have hparse := h.valid (fun _ => some key) (jwt.expires - 1) rfl (by omega)
  simp only [jwtAuthMiddleware_bearer, hparse, hclaims, if_neg hsubject]

end Go

/-- A token of a service has a subject only, its name. -/
theorem decode_serviceToken (service : TokenService) (now : Int)
    (serviceName targetServiceName : String) :
    ReviewService.Authorization.JwtUser.decode
        (service.generateServiceToken now serviceName targetServiceName).payload =
      some ⟨"", "", "", serviceName⟩ := by
  have hazp := @decodeField_other "azp" (by decide)
  have hexp := @decodeField_other "exp" (by decide)
  have hiss := @decodeField_other "iss" (by decide)
  have haud := @decodeField_other "aud" (by decide)
  unfold TokenService.generateServiceToken TokenService.sign ReviewService.Authorization.JwtUser.decode
  simp only [List.map_cons, List.map_nil, List.cons_append, List.nil_append, List.foldlM_cons,
    decodeField_subject, hazp, hexp, Option.bind_eq_bind, Option.bind_some, List.foldlM_append]
  cases service.issuer <;> cases service.audience <;>
    simp only [Option.toList_some, Option.toList_none, List.map_cons, List.map_nil, List.foldlM_cons,
      List.foldlM_nil, hiss, haud, Option.pure_def, Option.bind_some, Option.bind_eq_bind] <;> rfl

/-! ### Both kinds -/

/-- A token of a service is no user of the book and media services, a token of a user is no service, and
a token of a service is taken by the book service only if it is its target: whatever the caches, the
endpoints and the clocks answer. -/
structure SeparateInPython {PublicKey : Type} (py : Python PublicKey)
    (userToken serviceToken targetServiceName : String) : Prop where
  users : ∀ verifier audience,
    Returns (fun _ => False) (getCurrentUser py verifier audience serviceToken)
  services : ∀ audience, Returns (fun _ => False) (getServiceAuth py audience userToken)
  target : ∀ audience,
    Returns (fun _ => targetServiceName = "book-service") (getServiceAuth py audience serviceToken)

/-- The review service lets no token of a service through, whatever keys it has and when. -/
def SeparateInGo {GoKey : Type} (parseWithClaims : ParseWithClaims GoKey)
    (serviceToken : String) : Prop :=
  ∀ jwks now user,
    jwtAuthMiddleware parseWithClaims jwks now ("Bearer " ++ serviceToken) ≠ .next user

structure NeverConfused {PublicKey GoKey : Type} (py : Python PublicKey)
    (parseWithClaims : ParseWithClaims GoKey) (userToken serviceToken targetServiceName : String) :
    Prop extends SeparateInPython py userToken serviceToken targetServiceName where
  reviews : SeparateInGo parseWithClaims serviceToken

/-- The claims of the two kinds of token keep them apart in the book and media services. -/
theorem separateInPython {PublicKey : Type} {py : Python PublicKey} (service : TokenService)
    (userNow serviceNow : Int) (user : User) (serviceName targetServiceName : String)
    {userToken serviceToken : String} {key : PublicKey}
    (huser : PythonReads py userToken (service.generateUserToken userNow user) key)
    (hservice : PythonReads py serviceToken
      (service.generateServiceToken serviceNow serviceName targetServiceName) key) :
    SeparateInPython py userToken serviceToken targetServiceName where
  users := by
    apply getCurrentUser_refuses hservice
    exact (service.get_serviceToken serviceNow serviceName targetServiceName).1
  services audience := by
    obtain ⟨-, -, -, -, hazp⟩ := service.get_userToken userNow user
    apply Coroutine.returns_mono (getServiceAuth_target huser audience)
    intro _ hservice
    obtain ⟨htruthy, -⟩ := hservice
    rw [hazp] at htruthy
    cases htruthy
  target audience := by
    obtain ⟨-, hazp⟩ := service.get_serviceToken serviceNow serviceName targetServiceName
    apply Coroutine.returns_mono (getServiceAuth_target hservice audience)
    intro _ hservice
    obtain ⟨-, htarget⟩ := hservice
    rw [hazp, py.eq_str] at htarget
    exact eq_of_beq htarget

/-- The review service looks at the name of the service only. -/
theorem separateInGo_iff {GoKey : Type} {parseWithClaims : ParseWithClaims GoKey}
    (service : TokenService) (serviceNow : Int) (serviceName targetServiceName : String)
    {serviceToken : String} {key : GoKey}
    (hgo : GoReads parseWithClaims serviceToken
      (service.generateServiceToken serviceNow serviceName targetServiceName) key) :
    SeparateInGo parseWithClaims serviceToken ↔ serviceName = "" := by
  have hdecode := decode_serviceToken service serviceNow serviceName targetServiceName
  constructor
  · intro h
    by_contra hname
    exact h _ _ _ (middleware_accepts hgo hdecode hname)
  · intro hname
    exact middleware_refuses hgo hdecode hname

/-- The two kinds of token are never confused in the book and media services; in the review service, and
so in all three, exactly when the service has no name. -/
theorem neverConfused_iff {PublicKey GoKey : Type} {py : Python PublicKey}
    {parseWithClaims : ParseWithClaims GoKey} (service : TokenService) (userNow serviceNow : Int)
    (user : User) (serviceName targetServiceName : String) {userToken serviceToken : String}
    {key : PublicKey} {goKey : GoKey}
    (huser : PythonReads py userToken (service.generateUserToken userNow user) key)
    (hservice : PythonReads py serviceToken
      (service.generateServiceToken serviceNow serviceName targetServiceName) key)
    (hgo : GoReads parseWithClaims serviceToken
      (service.generateServiceToken serviceNow serviceName targetServiceName) goKey) :
    SeparateInPython py userToken serviceToken targetServiceName ∧
      (SeparateInGo parseWithClaims serviceToken ↔ serviceName = "") ∧
      (NeverConfused py parseWithClaims userToken serviceToken targetServiceName ↔
        serviceName = "") := by
  have hpython := separateInPython service userNow serviceNow user serviceName targetServiceName huser
    hservice
  have hreviews := separateInGo_iff service serviceNow serviceName targetServiceName hgo
  refine ⟨hpython, hreviews, ?_⟩
  rw [← hreviews]
  exact ⟨fun h => h.reviews, fun h => ⟨hpython, h⟩⟩

def tokenService : TokenService :=
  ⟨⟨"kid-1", "6NbKYWM", "AQAB", by decide⟩, some "http://localhost:8001", some "bookhub-api-gateway"⟩

def emma : User := ⟨7, "Emma", "emma@bookhub.com", "reader"⟩

/-- Two strings, the token of a user and that of a service. -/
def readTokens (serviceName : String) : String → Jwt
  | "user-token" => tokenService.generateUserToken 0 emma
  | _ => tokenService.generateServiceToken 0 serviceName "book-service"

theorem numbers_tokenService : tokenService.key.numbers = .ok (65537, 1000036000099) := by
  decide +kernel

/-- The token that the auth service issues to the review service. -/
theorem neverConfused_iff_issued :
    SeparateInPython (plainPython (readTokens "review-service")) "user-token" "service-token"
        "book-service" ∧
      ¬SeparateInGo (plainParse (readTokens "review-service")) "service-token" ∧
      ¬NeverConfused (plainPython (readTokens "review-service"))
        (plainParse (readTokens "review-service")) "user-token" "service-token" "book-service" := by
  have h := neverConfused_iff tokenService 0 0 emma "review-service" "book-service"
    (plainPython_reads (readTokens "review-service") "user-token" numbers_tokenService)
    (plainPython_reads (readTokens "review-service") "service-token" numbers_tokenService)
    (plainParse_reads (readTokens "review-service") "service-token")
  obtain ⟨hpython, hreviews, hall⟩ := h
  exact ⟨hpython, fun h => absurd (hreviews.mp h) (by decide), fun h => absurd (hall.mp h) (by decide)⟩

/-- The token that the review service gets of the auth service passes for that of a user. -/
theorem not_neverConfused :
    ¬ ∀ serviceName : String, NeverConfused (plainPython (readTokens serviceName))
      (plainParse (readTokens serviceName)) "user-token" "service-token" "book-service" := by
  intro h
  have haccepts := middleware_accepts (plainParse_reads (readTokens "review-service") "service-token")
    (decode_serviceToken tokenService 0 "review-service" "book-service") (by decide)
  exact (h "review-service").reviews _ _ _ haccepts

end BookHub.Auth
