import BookHub.Base.Collection
import BookHub.Base.DateTime
import BookHub.Base.Pool

/-!
# The health monitor

The table of the latest heartbeats, with its two writers: the handler of a heartbeat merges what came
in over what is stored, and the recalculation goes over a snapshot of the table and writes back each
record whose status has changed. Both write whole records.

How the body of a message is decoded is a parameter: `jason` is the decoder, and `none` is its error.
-/

namespace BookHub.HealthMonitor

open Elixir

inductive Status where
  | healthy
  | stale
  | offline
  deriving DecidableEq, Repr

/-- What is stored as a timestamp; `min` is the atom `DateTime.MIN`. -/
inductive Timestamp where
  | dateTime (dt : DateTime)
  | min
  deriving DecidableEq, Repr

/-- `DateTime.diff(now, timestamp, :second)`, which is not defined on the atom. -/
def Timestamp.diff (now : DateTime) : Timestamp → Except Raise Int
  | dateTime dt => .ok (now.diff dt)
  | min => .error .diff

/-- A record of the table; the status of what comes in is `nil`. -/
structure ServiceStatus where
  serviceId : Term
  timestamp : Timestamp
  status : Option Status
  stats : Term
  data : Term
  deriving DecidableEq, Repr

def defaultMessage : ServiceStatus := ⟨.atom "unknown", .min, some .offline, .nil, .nil⟩

/-- `Map.merge(existing, structured, fn _k, old, new -> new || old end)`; a timestamp is never falsy. -/
def merge (existing structured : ServiceStatus) : ServiceStatus where
  serviceId := structured.serviceId.orElse existing.serviceId
  timestamp := structured.timestamp
  status := structured.status <|> existing.status
  stats := structured.stats.orElse existing.stats
  data := structured.data.orElse existing.data

abbrev HeartbeatEntry : Type := Term × ServiceStatus

/-- The table, a set with the id as its key. -/
abbrev HeartbeatTable : Type := Collection (Prod.fst : HeartbeatEntry → Term)

/-! ### The operations of the table -/

inductive HeartbeatOp where
  | lookup (id : Term)
  | insert (id : Term) (state : ServiceStatus)
  | tab2list
  deriving DecidableEq, Repr

abbrev heartbeatSig : Signature where
  Op := HeartbeatOp
  Answer
    | .lookup _ => Option ServiceStatus
    | .insert _ _ => Unit
    | .tab2list => List HeartbeatEntry

def HeartbeatTable.lookup (table : HeartbeatTable) (id : Term) : Option ServiceStatus :=
  (table.find? id).map Prod.snd

/-- The entries in the order that the environment names, if that is an order of them. -/
def HeartbeatTable.tab2list (table : HeartbeatTable) (order : List HeartbeatEntry) :
    List HeartbeatEntry :=
  if order.Perm table.docs then order else table.docs

def exec (table : HeartbeatTable) (op : HeartbeatOp) (order : List HeartbeatEntry) :
    Except Raise (heartbeatSig.Answer op) × HeartbeatTable :=
  match op with
  | .lookup id => (.ok (HeartbeatTable.lookup table id), table)
  | .insert id state => (.ok (), table.put (id, state))
  | .tab2list => (.ok (HeartbeatTable.tab2list table order), table)

abbrev HeartbeatM : Type → Type := Coroutine heartbeatSig Raise

def call (op : HeartbeatOp) : HeartbeatM (heartbeatSig.Answer op) :=
  @Coroutine.perform heartbeatSig Raise op

/-! ### The handler of a heartbeat -/

/-- The record that a decoded body stands for. -/
def structuredMessage (decoded : Term) : Except Raise ServiceStatus := do
  let id ← decoded.access "serviceId"
  let timestamp ← DateTime.fromIso8601 (← decoded.access "timestamp")
  let stats ← decoded.access "stats"
  let data ← decoded.access "data"
  return ⟨id, (timestamp.map Timestamp.dateTime).getD .min, none, stats, data⟩

def handleMessage (jason : String → Option Term) (data : String) : HeartbeatM Unit :=
  match jason data with
  | none => pure ()
  | some decoded => do
      let structured ← Coroutine.done (structuredMessage decoded)
      let existing ← call (.lookup structured.serviceId)
      call (.insert structured.serviceId (merge (existing.getD defaultMessage) structured))

/-! ### The recalculation -/

def healthyTreshold : Int := 30

def staleTreshold : Int := 60

def newStatus (diff : Int) : Status :=
  if diff ≤ healthyTreshold then .healthy else if diff ≤ staleTreshold then .stale else .offline

/-- One service of the snapshot. The id is interpolated into the line that is logged. -/
def recalculateStatus (now : DateTime) (entry : HeartbeatEntry) : HeartbeatM Unit := do
  let diff ← Coroutine.done (entry.2.timestamp.diff now)
  if some (newStatus diff) = entry.2.status then
    pure ()
  else
    let _line ← Coroutine.done (interpolate entry.1)
    call (.insert entry.1 { entry.2 with status := some (newStatus diff) })

def recalculateEach (now : DateTime) : List HeartbeatEntry → HeartbeatM Unit
  | [] => pure ()
  | entry :: rest => do
      recalculateStatus now entry
      recalculateEach now rest

def recalculateAllStatuses (now : DateTime) : HeartbeatM Unit := do
  let entries ← call .tab2list
  recalculateEach now entries

end BookHub.HealthMonitor
