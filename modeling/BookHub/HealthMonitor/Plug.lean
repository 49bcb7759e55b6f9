import BookHub.HealthMonitor.Signers

/-!
# The plug that authorizes

Every request to the health monitor comes to `Authorization.call` first. Four patterns are matched one
after the other, and what does not match one of them has to match a clause of the `else`: the clauses
are for no header, no signer and an error, so that another scheme, a second header and a token whose
header names no key are left over.
-/

namespace BookHub.HealthMonitor

open Elixir

/-- What was sent. -/
structure PlugResponse where
  status : Nat
  contentType : Option String
  body : String
  deriving DecidableEq, Repr

/-- What the plugs read and write of a connection. -/
structure Conn where
  method : String
  pathInfo : List String
  reqHeaders : List (String × String)
  currentUser : Option Entries
  response : Option PlugResponse
  halted : Bool
  deriving DecidableEq, Repr

namespace Conn

/-- All values of a header. -/
def getReqHeader (conn : Conn) (key : String) : List String :=
  (conn.reqHeaders.filter fun header => header.1 = key).map Prod.snd

/-- `assign(conn, :current_user, claims)`. -/
def assign (conn : Conn) (claims : Entries) : Conn := { conn with currentUser := some claims }

def sendResp (conn : Conn) (status : Nat) (contentType : Option String) (body : String) : Conn :=
  { conn with response := some ⟨status, contentType, body⟩ }

def halt (conn : Conn) : Conn := { conn with halted := true }

/-- What `put_resp_content_type("application/json")` puts. -/
def json : Option String := some "application/json; charset=utf-8"

/-- The messages need no escape in JSON. -/
def sendUnauthorized (conn : Conn) (message : String) : Conn :=
  (conn.sendResp 401 json ("\x7b\"error\":\"" ++ message ++ "\"\x7d")).halt

end Conn

section Plug

variable {Signer : Type} (joken : Joken Signer) (strategy : Option (JwksStrategy Signer)) (now : Int)

/-- `call(conn, _opts)`. -/
def Authorization.callConn (conn : Conn) : Except Fault Conn := do
  match ← Authorization.call joken strategy now (conn.getReqHeader "authorization") with
  | .assigned claims => return conn.assign claims
  | .unauthorized message => return conn.sendUnauthorized message

/-- The claims were verified with the signer of the key that the token names. -/
def VerifiedClaims (values : List String) (claims : Entries) : Prop :=
  ∃ value token header kid signer, values = [value] ∧ bearer? value = some token ∧
    joken.peekHeader token = some header ∧ header.find? "kid" = some kid ∧
    getSigner strategy kid = .ok (some signer) ∧
    joken.verifyAndValidate now token signer = some claims

/-- The user is assigned, or the caller is answered with 401 and the connection is halted. -/
def Decided (conn conn' : Conn) : Prop :=
  (∃ claims, VerifiedClaims joken strategy now (conn.getReqHeader "authorization") claims ∧
    conn' = conn.assign claims) ∨
  (∃ response, conn'.response = some response ∧ response.status = 401 ∧ conn'.halted = true)

/-- There is no header, or one, with a bearer token; and if the token's own header can be read, it
names a key, and there is a table to look it up in. -/
def Covered : List String → Prop
  | [] => True
  | [value] => ∃ token, bearer? value = some token ∧
      ∀ header, joken.peekHeader token = some header →
        (header.find? "kid").isSome ∧ strategy.isSome
  | _ => False

/-! ### One call -/

variable {joken strategy now}

/-- Once a signer is found or not, nothing raises. -/
theorem getSigner_ok_iff {kid : Term} :
    (∃ found, getSigner strategy kid = .ok found) ↔ strategy.isSome := by
  cases strategy with
  | none =>
      constructor
      · intro ⟨found, hfound⟩
        cases hfound
      · intro hsome
        cases hsome
  | some s =>
      constructor
      · intro _
        rfl
      · intro _
        exact ⟨_, rfl⟩

/-- With a signer, it is for the library to decide. -/
theorem call_of_signer {value token : String} {header : Entries} {kid : Term} {signer : Signer}
    (hbearer : bearer? value = some token) (hheader : joken.peekHeader token = some header)
    (hkid : header.find? "kid" = some kid) (hsigner : getSigner strategy kid = .ok (some signer)) :
    Authorization.call joken strategy now [value] =
      .ok (((joken.verifyAndValidate now token signer).map PlugOutcome.assigned).getD
        (.unauthorized "Unauthorized")) := by
  cases hverified : joken.verifyAndValidate now token signer with
  | none =>
      simp only [Authorization.call, hbearer, hheader, hkid, hsigner, bind, Except.bind, hverified]
      rfl
  | some claims =>
      simp only [Authorization.call, hbearer, hheader, hkid, hsigner, bind, Except.bind, hverified]
      rfl

/-- A token with a header is decided on where that names a key and the table is there. -/
theorem call_ok_iff_of_header {value token : String} {header : Entries}
    (hbearer : bearer? value = some token) (hheader : joken.peekHeader token = some header) :
    (∃ outcome, Authorization.call joken strategy now [value] = .ok outcome) ↔
      (header.find? "kid").isSome ∧ strategy.isSome := by
  cases hkid : header.find? "kid" with
  | none => simp [Authorization.call, hbearer, hheader, hkid]
  | some kid =>
      rw [Option.isSome_some, eq_self, true_and]
      cases hfound : getSigner strategy kid with
      | error err =>
          have hnone : ¬ strategy.isSome := by
            rw [← @getSigner_ok_iff _ _ kid, hfound]
            simp
          refine iff_of_false ?_ hnone
          rintro ⟨outcome, houtcome⟩
          simp only [Authorization.call, hbearer, hheader, hkid, hfound] at houtcome
          cases houtcome
      | ok found =>
          have hsome : strategy.isSome := getSigner_ok_iff.mp ⟨found, hfound⟩
          refine iff_of_true ?_ hsome
          cases found with
          | none =>
              refine ⟨.unauthorized "Invalid Token Key", ?_⟩
              simp only [Authorization.call, hbearer, hheader, hkid, hfound]
              rfl
          | some signer => exact ⟨_, call_of_signer hbearer hheader hkid hfound⟩

/-- The clauses cover exactly these headers. -/
theorem call_ok_iff (values : List String) :
    (∃ outcome, Authorization.call joken strategy now values = .ok outcome) ↔
      Covered joken strategy values := by
  match values with
  | [] => exact iff_of_true ⟨_, rfl⟩ trivial
  | [value] =>
      cases hbearer : bearer? value with
      | none => simp [Authorization.call, Covered, hbearer]
      | some token =>
          cases hheader : joken.peekHeader token with
          | none => simp [Authorization.call, Covered, hbearer, hheader]
          | some header =>
              rw [call_ok_iff_of_header hbearer hheader]
              simp [Covered, hbearer, hheader]
  | _ :: _ :: _ =>
      refine iff_of_false ?_ id
      rintro ⟨outcome, houtcome⟩
      cases houtcome

/-- Who is let in has claims that a signer of the table verified. -/
theorem verifiedClaims_of_assigned {values : List String} {claims : Entries}
    (h : Authorization.call joken strategy now values = .ok (.assigned claims)) :
    VerifiedClaims joken strategy now values claims := by
  match values with
  | [] => cases h
  | _ :: _ :: _ => cases h
  | [value] =>
      cases hbearer : bearer? value with
      | none =>
          simp only [Authorization.call, hbearer] at h
          cases h
      | some token =>
          cases hheader : joken.peekHeader token with
          | none =>
              simp only [Authorization.call, hbearer, hheader] at h
              cases h
          | some header =>
              cases hkid : header.find? "kid" with
              | none =>
                  simp only [Authorization.call, hbearer, hheader, hkid] at h
                  cases h
              | some kid =>
                  obtain ⟨signer, hsigner⟩ := signer_of_assigned hbearer hheader hkid h
                  refine ⟨value, token, header, kid, signer, rfl, hbearer, hheader, hkid, hsigner, ?_⟩
                  rw [call_of_signer hbearer hheader hkid hsigner] at h
                  cases hverified : joken.verifyAndValidate now token signer with
                  | none =>
                      rw [hverified] at h
                      cases h
                  | some verified =>
                      rw [hverified] at h
                      cases h
                      rfl

variable (joken strategy now)

/-- The plug decides on a request, with no user but one whose claims were verified, exactly if its
headers are covered; on every other request it raises. -/
theorem decided_iff_covered (conn : Conn) :
    (∃ conn', Authorization.callConn joken strategy now conn = .ok conn' ∧
      Decided joken strategy now conn conn') ↔
      Covered joken strategy (conn.getReqHeader "authorization") := by
  rw [← @call_ok_iff _ joken strategy now]
  constructor
  · intro ⟨conn', hcall, _⟩
    cases houtcome : Authorization.call joken strategy now (conn.getReqHeader "authorization") with
    | error err =>
        rw [Authorization.callConn, houtcome] at hcall
        cases hcall
    | ok outcome => exact ⟨outcome, rfl⟩
  · intro ⟨outcome, houtcome⟩
    rw [Authorization.callConn, houtcome]
    cases outcome with
    | assigned claims =>
        exact ⟨_, rfl, .inl ⟨claims, verifiedClaims_of_assigned houtcome, rfl⟩⟩
    | unauthorized message => exact ⟨_, rfl, .inr ⟨_, rfl, rfl, rfl⟩⟩

end Plug

/-- A request for the report with these headers. -/
def report (reqHeaders : List (String × String)) : Conn :=
  ⟨"GET", ["health"], reqHeaders, none, none, false⟩

/-- A library that reads a header without a key from every token. -/
def keyless : Joken Term where
  create _ keyParams := keyParams.find? "kid"
  peekHeader _ := some (.cons "alg" (.binary "HS256") .nil)
  verifyAndValidate _ _ _ := none

/-- Another scheme, a second header, and a token that names no key. -/
theorem not_decided_uncovered :
    Authorization.callConn plainJoken (some .init) 0 (report [("authorization", "Basic eDp5")]) =
        .error .withClause ∧
      Authorization.callConn plainJoken (some .init) 0
          (report [("authorization", "Bearer k1"), ("authorization", "Bearer k1")]) =
        .error .withClause ∧
      Authorization.callConn keyless (some .init) 0 (report [("authorization", "Bearer t")]) =
        .error .withClause ∧
      ¬ ∀ conn, ∃ conn', Authorization.callConn plainJoken (some .init) 0 conn = .ok conn' ∧
        Decided plainJoken (some .init) 0 conn conn' := by
  refine ⟨rfl, rfl, rfl, ?_⟩
  intro h
  obtain ⟨conn', hcall, -⟩ := h (report [("authorization", "Basic eDp5")])
  cases hcall

end BookHub.HealthMonitor
