import BookHub.Auth.Authorization

/-!
# The auth service and the caches of its keys

The auth service makes a new key whenever it starts. The book and media services keep the keys that
they fetched for an hour. Requests of both services are served concurrently, while the auth service may
start again and time passes between any two operations.
-/

namespace BookHub.Auth

open BookService (JwtUser)

structure CacheEntry where
  keys : Json
  expires : Int

/-- `issuer` is the key of the process that runs, `earlier` has those of the processes before it. -/
structure World where
  clock : Int
  issuer : RsaKey
  earlier : List RsaKey
  caches : Verifier → Option CacheEntry

namespace World

def start (clock : Int) (issuer : RsaKey) : World := ⟨clock, issuer, [], fun _ => none⟩

def keys (s : World) : List RsaKey := s.issuer :: s.earlier

/-- What a lookup in the cache finds: an entry that has not expired. -/
def lookup (s : World) (verifier : Verifier) : Option CacheEntry :=
  (s.caches verifier).filter fun entry => s.clock < entry.expires

def put (s : World) (verifier : Verifier) (keys : Json) : World :=
  { s with caches := fun v => if v = verifier then some ⟨keys, s.clock + 3600⟩ else s.caches v }

def restart (s : World) (key : RsaKey) : World := { s with issuer := key, earlier := s.keys }

def tick (s : World) (seconds : Nat) : World := { s with clock := s.clock + seconds }

/-- The environment of an operation says whether the endpoint is to fail. -/
def exec (s : World) :
    (op : AuthOp) → Option JwksFailure → Except PyException (authSig.Answer op) × World
  | .cached verifier, _ => (.ok (s.lookup verifier).isSome, s)
  | .getCached verifier, _ =>
      ((s.lookup verifier).elim (.error .keyError) fun entry => .ok entry.keys, s)
  | .putCached verifier keys, _ => (.ok (), s.put verifier keys)
  | .fetchJwks, none => (.ok (.body (some s.issuer.jwks)), s)
  | .fetchJwks, some failure => (.ok (.failed failure), s)
  | .now, _ => (.ok s.clock, s)

end World

/-- A request to a user-facing endpoint of a service, or to the internal one of the book service. -/
inductive Request where
  | user (verifier : Verifier) (token : String)
  | service (token : String)
  deriving DecidableEq, Repr

def Request.token : Request → String
  | .user _ token => token
  | .service token => token

inductive Label where
  | restart (key : RsaKey)
  | tick (seconds : Nat)
  | serve (move : Move (Option JwksFailure) Request)

abbrev AuthPool : Type := Pool authSig PyException World Request (Option JwtUser)

section Deployment

variable {PublicKey : Type} (py : Python PublicKey) (audience : Option String)

def authenticate : Request → AuthM (Option JwtUser)
  | .user verifier token => do return some (← getCurrentUser py verifier audience token)
  | .service token => do
      getServiceAuth py audience token
      return none

/-- The services that verify tokens. -/
def verifiers : Service authSig PyException World (Option JwksFailure) Request (Option JwtUser) where
  handler := authenticate py audience
  exec := World.exec

/-- The token names this key as the one that signed it. -/
def namesKey (token kid : String) : Bool :=
  match py.getUnverifiedHeader token with
  | .ok header =>
      match Claims.get header "kid" with
      | .str named => named == kid
      | _ => false
  | .error _ => false

/-- The id of a new key is a new one: no key had it before, and no token has named it. -/
def deployment : Machine AuthPool Label where
  step p
    | .restart key =>
        if key.kid ∉ p.store.keys.map RsaKey.kid ∧
            ∀ t ∈ p.threads, namesKey py t.request.token key.kid = false then
          some { p with store := p.store.restart key }
        else none
    | .tick seconds => some { p with store := p.store.tick seconds }
    | .serve move => (verifiers py audience).machine.step p move

end Deployment

namespace World

variable {s : World} {verifier : Verifier}

theorem lookup_eq_some {entry : CacheEntry} (h : s.lookup verifier = some entry) :
    s.caches verifier = some entry ∧ s.clock < entry.expires := by
  obtain ⟨hcache, hlt⟩ := Option.filter_eq_some_iff.mp h
  exact ⟨hcache, of_decide_eq_true hlt⟩

/-- Serving a request leaves the clock and the keys alone. -/
theorem exec_frame (s : World) (op : AuthOp) (env : Option JwksFailure) :
    (s.exec op env).2.clock = s.clock ∧ (s.exec op env).2.issuer = s.issuer ∧
      (s.exec op env).2.earlier = s.earlier := by
  cases op with
  | cached verifier => exact ⟨rfl, rfl, rfl⟩
  | getCached verifier => exact ⟨rfl, rfl, rfl⟩
  | putCached verifier keys => exact ⟨rfl, rfl, rfl⟩
  | fetchJwks => cases env <;> exact ⟨rfl, rfl, rfl⟩
  | now => exact ⟨rfl, rfl, rfl⟩

end World

end BookHub.Auth
