import BookHub.UserService.Users

/-!
# The user service

The nine routes of the user service. A handler waits at each call of the model and at `bcrypt.hash`;
`bcrypt.compareSync` runs in place. What a handler throws outside its `try` reaches the framework,
which answers for it.
-/

namespace BookHub.UserService

abbrev UserM : Type → Type := Coroutine userSig JsError

def call (op : UserOp) : UserM (userSig.Answer op) := @Coroutine.perform userSig JsError op

/-! ### Requests and responses -/

/-- The claims of a verified token that the service reads. -/
structure Claims where
  sub : Option String
  role : Option String
  deriving DecidableEq, Repr

/-- What `verify` makes of the `Authorization` header. -/
inductive Token where
  | missing
  | invalid
  | verified (claims : Claims)
  deriving DecidableEq, Repr

/-- A segment of a path. -/
structure PathId where
  value : String
  nonempty : value ≠ ""
  deriving DecidableEq

inductive Route where
  | verifyCredentials
  | registerUser
  | getAll
  | updateById
  | passwordReset
  | getMine
  | updateMine
  | passwordChangeMine
  | deleteUser (id : PathId)
  deriving DecidableEq

/-- A request; `body` is `undefined` where none was parsed. -/
structure Request where
  route : Route
  token : Token
  body : JsValue

structure Response where
  status : Nat
  body : JsValue

namespace Response

def json (body : JsValue) : Response := ⟨200, body⟩

def error (status : Nat) (message : String) : Response :=
  ⟨status, .object [("error", .string message)]⟩

end Response

namespace ServiceResponse

def success (data : JsValue) (message : String := "Success") : JsValue :=
  .object [("data", data), ("message", .string message)]

def fail (message : String) : JsValue := .object [("data", .null), ("message", .string message)]

end ServiceResponse

def userNotFound : Response := ⟨404, ServiceResponse.fail "User not found"⟩

/-! ### Instances -/

/-- The fields of an instance that a response shows. -/
structure UserInstance where
  id : Nat
  name : JsValue
  email : JsValue
  role : JsValue

def User.instance (user : User) : UserInstance :=
  ⟨user.id, .string user.name, .string user.email, .string user.role.label⟩

/-- The instance after an `update`; it holds the values as they were given. -/
def UserInstance.updated (user : UserInstance) (values : UserValues) : UserInstance :=
  { user with
    name := if values.name matches .undefined then user.name else values.name
    role := if values.role matches .undefined then user.role else values.role }

def toUserDto (user : UserInstance) : JsValue :=
  .object [("id", .ofNat user.id), ("name", user.name), ("email", user.email), ("role", user.role)]

variable (rt : Runtime)

/-- The row as `JSON.stringify` writes an instance. -/
def User.toJSON (user : User) : JsValue :=
  .object [("id", .ofNat user.id), ("name", .string user.name), ("email", .string user.email),
    ("password", .string user.password), ("role", .string user.role.label),
    ("updatedAt", .string (rt.isoString user.updatedAt)),
    ("createdAt", .string (rt.isoString user.createdAt))]

/-! ### The handlers -/

/-- `const { first, .. } = request.body` -/
def destructure (first : String) : JsValue → UserM (String → JsValue)
  | .undefined => throw ⟨"Cannot destructure property '" ++ first ++
      "' of 'request.body' as it is undefined."⟩
  | .null => throw ⟨"Cannot destructure property '" ++ first ++ "' of 'request.body' as it is null."⟩
  | body => return body.property

def compareSync (data : JsValue) (hash : String) : UserM Bool :=
  match data with
  | .string value => return rt.compareSync value hash
  | _ => throw ⟨rt.compareRefusal data⟩

def looseEq (x y : JsValue) : UserM Bool :=
  match rt.looseEq? x y with
  | some result => return result
  | none => throw ⟨"Cannot convert object to primitive value"⟩

/-- Load the row with this key and go on with it; every route that works on one row begins so. -/
def withUser (param : JsValue) (next : User → UserM Response) : UserM Response := do
  match ← call (.findByPk param) with
  | none => return userNotFound
  | some user => next user

def verifyCredentials (body : JsValue) : UserM Response := do
  let fields ← destructure "email" body
  match ← call (.findOneByEmail (fields "email")) with
  | none => return .error 401 "Invalid credentials"
  | some user =>
      if !(← compareSync rt (fields "password") user.password) then
        return .error 401 "Invalid credentials"
      return .json (toUserDto user.instance)

def registerUser (body : JsValue) : UserM Response :=
  tryCatch
    (do
      let fields ← destructure "name" body
      let hash ← call (.hash (fields "password"))
      let user ← call (.create ⟨fields "name", fields "email", hash, fields "role"⟩)
      return ⟨201, user.toJSON rt⟩)
    fun err => return .error 400 err.message

def getAll : UserM Response := do
  let users ← call .findAll
  let userDtos := (users.mergeSort fun x y => x.id ≤ y.id).map fun user => toUserDto user.instance
  return .json (ServiceResponse.success (.array userDtos))

def Claims.subValue (user : Claims) : JsValue := user.sub.elim .undefined .string

def getMine (user : Claims) : UserM Response :=
  withUser user.subValue fun user =>
    return .json (ServiceResponse.success (toUserDto user.instance))

/-- `user.update` in its `try`, with the response. -/
def updateAndAnswer (user : User) (values : UserValues) (response : JsValue) : UserM Response :=
  tryCatch
    (do
      call (.update user values)
      return .json response)
    fun err => return ⟨400, ServiceResponse.fail err.message⟩

def updateMine (user : Claims) (body : JsValue) : UserM Response :=
  withUser user.subValue fun user => do
    let fields ← destructure "name" body
    let values : UserValues := { name := fields "name", role := fields "role" }
    updateAndAnswer user values (ServiceResponse.success (toUserDto (user.instance.updated values)))

def updateById (body : JsValue) : UserM Response := do
  let fields ← destructure "id" body
  withUser (fields "id") fun user =>
    let values : UserValues := { name := fields "name", role := fields "role" }
    updateAndAnswer user values (ServiceResponse.success (toUserDto (user.instance.updated values)))

def passwordChangeMine (user : Claims) (body : JsValue) : UserM Response :=
  withUser user.subValue fun user => do
    let fields ← destructure "password" body
    if !(← looseEq rt (fields "newPassword") (fields "newPasswordRepeat")) then
      return ⟨400, ServiceResponse.fail "The new password and confirmation password did not match."⟩
    tryCatch
      (do
        if !(← compareSync rt (fields "password") user.password) then
          return ⟨400, ServiceResponse.fail "Invalid current password."⟩
        let hash ← call (.hash (fields "newPassword"))
        call (.update user { password := .string hash })
        return .json (ServiceResponse.success (.ofNat user.id) "Password changed successfully."))
      fun err => return ⟨400, ServiceResponse.fail err.message⟩

def passwordReset (body : JsValue) : UserM Response := do
  let fields ← destructure "id" body
  withUser (fields "id") fun user => do
    let hash ← call (.hash (.string "1234"))
    updateAndAnswer user { password := .string hash } (ServiceResponse.success (fields "id")
      "Your password has been successfully reset. You can now log in with your new credentials.")

def deleteUser (id : PathId) : UserM Response :=
  withUser (.string id.value) fun user => do
    call (.destroy user.id)
    return .json (ServiceResponse.success (.ofNat user.id) "User deleted")

/-! ### The routes -/

def jwtAuthMiddleware (token : Token) (next : Claims → UserM Response) : UserM Response :=
  match token with
  | .missing => return .error 401 "Missing token"
  | .invalid => return .error 401 "Invalid token"
  | .verified claims => next claims

/-- The role is in the list, and a plain user names no other id in the path. -/
def Claims.admitted (user : Claims) (roles : List Role) (pathId : Option PathId) : Bool :=
  (roles.any fun r => user.role == some r.label) &&
    !(user.role == some Role.user.label && pathId.any fun id => some id.value != user.sub)

def jwtAuthMiddlewareSupportedRoles (roles : List Role) (pathId : Option PathId) (user : Claims)
    (next : UserM Response) : UserM Response :=
  if !user.admitted roles pathId then return .error 403 "Insufficient permissions" else next

namespace Route

/-- The roles of a route that asks for a token. -/
def roles : Route → Option (List Role)
  | verifyCredentials => none
  | registerUser => none
  | getAll => some [.admin, .moderator]
  | updateById => some [.admin]
  | passwordReset => some [.admin]
  | getMine => some [.admin, .moderator, .user]
  | updateMine => some [.admin, .user]
  | passwordChangeMine => some [.admin, .moderator, .user]
  | deleteUser _ => some [.admin, .user]

def pathId : Route → Option PathId
  | deleteUser id => some id
  | _ => none

end Route

/-- The handler of a route, after its middleware. -/
def routeHandler (user : Claims) (body : JsValue) : Route → UserM Response
  | .verifyCredentials => verifyCredentials rt body
  | .registerUser => registerUser rt body
  | .getAll => getAll
  | .updateById => updateById body
  | .passwordReset => passwordReset body
  | .getMine => getMine user
  | .updateMine => updateMine user body
  | .passwordChangeMine => passwordChangeMine rt user body
  | .deleteUser id => deleteUser id

def handler (request : Request) : UserM Response :=
  match request.route.roles with
  | none => routeHandler rt ⟨none, none⟩ request.body request.route
  | some roles => jwtAuthMiddleware request.token fun user =>
      jwtAuthMiddlewareSupportedRoles roles request.route.pathId user
        (routeHandler rt user request.body request.route)

/-- The user service: `server.js` routes each request to its handler. -/
def service : Service userSig JsError UsersTable UserEnv Request Response where
  handler := handler rt
  exec := exec rt

abbrev UserEvent : Type := userSig.Event JsError

abbrev UserPool : Type := Pool userSig JsError UsersTable Request Response

abbrev UserThread : Type := Thread userSig JsError Request Response

abbrev UserMove : Type := Move UserEnv Request

/-! ### A runtime and a table to run the service with -/

/-- The integers that are written in decimal digits only. -/
def decimal (text : String) : Option Int :=
  if text.toList ≠ [] ∧ text.toList.all Char.isDigit ∧ Nat.ofDigitChars 10 text.toList 0 < 2 ^ 31 then
    some (Nat.ofDigitChars 10 text.toList 0)
  else none

theorem decimal_toString (n : Nat) (i : Int) (h : decimal (toString n) = some i) : i = n := by
  have hdigits : (toString n).toList = Nat.toDigits 10 n := Nat.toList_repr
  unfold decimal at h
  split at h
  · rw [hdigits, Nat.ofDigitChars_ten_toDigits] at h
    exact (Option.some.inj h).symm
  · cases h

/-- A hash that keeps the password behind its salt. -/
def plain : Runtime where
  numberOf text := (decimal text).map fun n => .finite n
  numberText
    | .finite value => toString value.num
    | .infinite negative => if negative then "-Infinity" else "Infinity"
  int4In := decimal
  emailFilter _ := none
  isoString millis := toString millis
  bcryptHash password salt := toString salt ++ "$" ++ password
  compareSync password hash := (hash.toList.dropWhile (· != '$')).drop 1 == password.toList
  hashRefusal
    | .undefined => "data and salt arguments required"
    | .null => "data and salt arguments required"
    | _ => "data must be a string or Buffer and salt must either be a salt string or a number of rounds"
  compareRefusal
    | .undefined => "data and hash arguments required"
    | .null => "data and hash arguments required"
    | _ => "data and hash must be strings"

def UserEnv.calm : UserEnv := ⟨false, "", false, 17, 1700000000000⟩

def ada : User := ⟨1, "Ada", "ada@books.org", "17$lovelace", .admin, 0, 0⟩

def eve : User := ⟨2, "Eve", "eve@books.org", "17$secret", .user, 0, 0⟩

/-- An admin and a plain user. -/
def adaAndEve : UsersTable := ⟨[ada, eve], 3, by decide, by decide, by decide⟩

/-- The token that a login of this user gets. -/
def User.token (user : User) : Token :=
  .verified ⟨some (toString user.id), some user.role.label⟩

end BookHub.UserService
