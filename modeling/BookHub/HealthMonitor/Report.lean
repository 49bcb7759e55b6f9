import BookHub.Base.Jason
import BookHub.HealthMonitor.Plug
import BookHub.HealthMonitor.Recalculation

/-!
# The report

`GET /health` answers with the table as a JSON object. The ids of the services become the names of its
members: an id without a name makes the encoder raise, and two ids with one name make a member that
stands twice. Any JSON value comes in as an id and none is ever taken out, so the runs in which the
report can always be given are those in which each new id has a name of its own: `healthReported_iff`.
-/

namespace BookHub.HealthMonitor

open Elixir

/-! ### What is encoded -/

def Status.encode : Status → String
  | healthy => Jason.encodeAtom "healthy"
  | stale => Jason.encodeAtom "stale"
  | offline => Jason.encodeAtom "offline"

def Timestamp.encode : Timestamp → String
  | dateTime dt => Jason.encodeString dt.toIso8601
  | min => Jason.encodeAtom "Elixir.DateTime.MIN"

/-- The encoder that is derived for the struct. -/
def ServiceStatus.encode (state : ServiceStatus) : String :=
  Jason.encodeObject [("service_id", Jason.encode state.serviceId),
    ("timestamp", state.timestamp.encode),
    ("status", (state.status.map Status.encode).getD (Jason.encode .nil)),
    ("stats", Jason.encode state.stats), ("data", Jason.encode state.data)]

/-- The members of `:ets.tab2list(@heartbeat_map) |> Map.new()`. -/
def healthMembers (table : HeartbeatTable) (order : List HeartbeatEntry) :
    Except Raise (List (String × String)) :=
  let data : HeartbeatTable := .ofList (HeartbeatTable.tab2list table order)
  Jason.members ServiceStatus.encode data.docs

/-! ### The routes -/

/-- `:match` and `:dispatch`. -/
def dispatch (table : HeartbeatTable) (order : List HeartbeatEntry) (conn : Conn) :
    Except Raise Conn :=
  if conn.method = "GET" ∧ conn.pathInfo = ["health"] then do
    let members ← healthMembers table order
    return conn.sendResp 200 Conn.json (Jason.encodeObject members)
  else return conn.sendResp 404 none "endpoint not found"

/-- A request goes through the plugs, until one of them halts it. -/
def web {Signer : Type} (joken : Joken Signer) (strategy : Option (JwksStrategy Signer)) (now : Int)
    (table : HeartbeatTable) (order : List HeartbeatEntry) (conn : Conn) :
    Except (Fault ⊕ Raise) Conn :=
  match Authorization.callConn joken strategy now conn with
  | .error err => .error (.inl err)
  | .ok conn => if conn.halted then .ok conn else (dispatch table order conn).mapError .inr

/-! ### The property -/

/-- Whoever is let in and asks for the report gets an object with as many members as there are
services, no two of one name. -/
def HealthReported (table : HeartbeatTable) : Prop :=
  ∀ (Signer : Type) (joken : Joken Signer) (strategy : Option (JwksStrategy Signer)) (now : Int)
    (order : List HeartbeatEntry) (conn conn' : Conn),
    Authorization.callConn joken strategy now conn = .ok conn' → conn'.halted = false →
    conn'.method = "GET" → conn'.pathInfo = ["health"] →
    ∃ members, healthMembers table order = .ok members ∧
      web joken strategy now table order conn =
        .ok (conn'.sendResp 200 Conn.json (Jason.encodeObject members)) ∧
      members.length = table.docs.length ∧ (members.map Prod.fst).Nodup

/-- Each id of the table has a name, and no other id has it. -/
structure Named (table : HeartbeatTable) : Prop where
  name : ∀ id ∈ table.keys, ∃ name, Jason.key? id = some name
  unique : ∀ id ∈ table.keys, ∀ id' ∈ table.keys, Jason.key? id = Jason.key? id' → id = id'

/-- If the heartbeat decodes to a record, its id has a name that no other id of the table has. -/
def NameFree (jason : String → Option Term) (table : HeartbeatTable) : HealthStep → Prop
  | .heartbeat data => ∀ decoded structured, jason data = some decoded →
      structuredMessage decoded = .ok structured →
      ∃ name, Jason.key? structured.serviceId = some name ∧
        ∀ id ∈ table.keys, Jason.key? id = some name → id = structured.serviceId
  | .pass _ _ => True

/-! ### One report -/

theorem healthMembers_eq (table : HeartbeatTable) (order : List HeartbeatEntry) :
    healthMembers table order =
      Jason.members ServiceStatus.encode (HeartbeatTable.tab2list table order) := by
  show Jason.members ServiceStatus.encode (Collection.ofList _ : HeartbeatTable).docs = _
  rw [Collection.docs_ofList]
  exact ((tab2list_perm table order).map Prod.fst).nodup_iff.mpr table.nodup

theorem forall_docs_iff_keys {table : HeartbeatTable} {p : Term → Prop} :
    (∀ entry ∈ table.docs, p entry.1) ↔ ∀ id ∈ table.keys, p id := by
  constructor
  · intro h id hid
    obtain ⟨entry, hentry, rfl⟩ := List.mem_map.mp hid
    exact h entry hentry
  · intro h entry hentry
    exact h entry.1 (List.mem_map_of_mem hentry)

theorem healthMembers_ok_iff (table : HeartbeatTable) (order : List HeartbeatEntry) :
    (∃ members, healthMembers table order = .ok members) ↔
      ∀ id ∈ table.keys, ∃ name, Jason.key? id = some name := by
  rw [healthMembers_eq, Jason.members_ok_iff, ← forall_docs_iff_keys]
  simp only [(tab2list_perm table order).mem_iff]

/-- The names of the members are those of the ids, in some order. -/
theorem names_healthMembers {table : HeartbeatTable} {order : List HeartbeatEntry}
    {members : List (String × String)} (h : healthMembers table order = .ok members) :
    ((members.map Prod.fst).map some).Perm (table.keys.map Jason.key?) := by
  rw [healthMembers_eq] at h
  rw [Jason.names_of_members h, Collection.keys, List.map_map]
  exact (tab2list_perm table order).map _

theorem nodup_names_iff {table : HeartbeatTable} {order : List HeartbeatEntry}
    {members : List (String × String)} (h : healthMembers table order = .ok members) :
    (members.map Prod.fst).Nodup ↔
      ∀ id ∈ table.keys, ∀ id' ∈ table.keys, Jason.key? id = Jason.key? id' → id = id' := by
  rw [← List.nodup_map_iff (Option.some_injective String), (names_healthMembers h).nodup_iff]
  constructor
  · intro hnodup id hid id' hid' heq
    exact List.inj_on_of_nodup_map hnodup hid hid' heq
  · intro hinj
    apply List.Nodup.map_on
    · intro id hid id' hid' heq
      exact hinj id hid id' hid' heq
    · exact table.nodup

theorem length_healthMembers {table : HeartbeatTable} {order : List HeartbeatEntry}
    {members : List (String × String)} (h : healthMembers table order = .ok members) :
    members.length = table.docs.length := by
  have hlength := (names_healthMembers h).length_eq
  rw [List.length_map, List.length_map, List.length_map, Collection.keys, List.length_map] at hlength
  exact hlength

/-! ### Who asks -/

section Web

variable {Signer : Type} {joken : Joken Signer} {strategy : Option (JwksStrategy Signer)} {now : Int}
  {conn conn' : Conn}

/-- For a caller who is let in, the report is what the encoder makes of the table. -/
theorem web_of_authorized (hcall : Authorization.callConn joken strategy now conn = .ok conn')
    (hhalted : conn'.halted = false) (hmethod : conn'.method = "GET")
    (hpath : conn'.pathInfo = ["health"]) (table : HeartbeatTable) (order : List HeartbeatEntry) :
    web joken strategy now table order conn =
      ((healthMembers table order).map fun members =>
        conn'.sendResp 200 Conn.json (Jason.encodeObject members)).mapError .inr := by
  rw [web, hcall]
  simp only [hhalted, dispatch, hmethod, hpath, and_self, if_true]
  cases healthMembers table order <;> rfl

end Web

theorem Named.healthReported {table : HeartbeatTable} (h : Named table) : HealthReported table := by
  intro Signer joken strategy now order conn conn' hcall hhalted hmethod hpath
  obtain ⟨members, hmembers⟩ := (healthMembers_ok_iff table order).mpr h.name
  refine ⟨members, hmembers, ?_, length_healthMembers hmembers,
    (nodup_names_iff hmembers).mpr h.unique⟩
  rw [web_of_authorized hcall hhalted hmethod hpath, hmembers]
  rfl

/-- There is a caller who is let in, so that the report has to be given. -/
theorem HealthReported.named {table : HeartbeatTable} (h : HealthReported table) : Named table := by
  have hcall : Authorization.callConn plainJoken
      (some ⟨Collection.empty.put (.binary "k1", .binary "k1"), 0⟩) 0
      (report [("authorization", "Bearer k1")]) =
        .ok ((report [("authorization", "Bearer k1")]).assign .nil) := rfl
  obtain ⟨members, hmembers, -, -, hnodup⟩ := h Term plainJoken _ 0 [] _ _ hcall rfl rfl rfl
  exact ⟨(healthMembers_ok_iff table []).mp ⟨members, hmembers⟩, (nodup_names_iff hmembers).mp hnodup⟩

theorem named_iff_healthReported (table : HeartbeatTable) : Named table ↔ HealthReported table :=
  ⟨Named.healthReported, HealthReported.named⟩

/-! ### One step -/

theorem mem_keys_store {table : HeartbeatTable} {structured : ServiceStatus} {id : Term} :
    id ∈ (store table structured).keys ↔ id ∈ table.keys ∨ id = structured.serviceId :=
  Collection.mem_keys_put

/-- The table stays named if the id that comes in has a name that is free. -/
theorem named_store_iff {table : HeartbeatTable} (h : Named table) (structured : ServiceStatus) :
    Named (store table structured) ↔ ∃ name, Jason.key? structured.serviceId = some name ∧
      ∀ id ∈ table.keys, Jason.key? id = some name → id = structured.serviceId := by
  have hnew : structured.serviceId ∈ (store table structured).keys := mem_keys_store.mpr (.inr rfl)
  constructor
  · intro hafter
    obtain ⟨name, hname⟩ := hafter.name _ hnew
    refine ⟨name, hname, ?_⟩
    intro id hid heq
    exact hafter.unique id (mem_keys_store.mpr (.inl hid)) _ hnew (heq.trans hname.symm)
  · intro ⟨name, hname, hfree⟩
    constructor
    · intro id hid
      obtain hold | rfl := mem_keys_store.mp hid
      · exact h.name id hold
      · exact ⟨name, hname⟩
    · intro id hid id' hid' heq
      obtain hold | rfl := mem_keys_store.mp hid
      · obtain hold' | rfl := mem_keys_store.mp hid'
        · exact h.unique id hold id' hold' heq
        · exact hfree id hold (heq.trans hname)
      · obtain hold' | rfl := mem_keys_store.mp hid'
        · exact (hfree id' hold' (heq.symm.trans hname)).symm
        · rfl

/-- A recalculation writes under ids that are there, whether it comes to its end or not. -/
theorem mem_keys_recalculateEach {now : DateTime} {entries order : List HeartbeatEntry}
    {table : HeartbeatTable} (hentries : ∀ entry ∈ entries, entry.1 ∈ table.keys) (id : Term) :
    id ∈ ((recalculateEach now entries).eval exec (fun _ => order) table).2.keys ↔
      id ∈ table.keys := by
  induction entries generalizing table with
  | nil => exact Iff.rfl
  | cons entry rest ih =>
      rw [List.forall_mem_cons] at hentries
      rw [recalculateEach, Coroutine.eval_bind_const]
      by_cases h : Recalculates now entry
      · obtain ⟨table', heval, htable'⟩ := eval_recalculateStatus_of_ok order table h
        have hkeys : ∀ id, id ∈ table'.keys ↔ id ∈ table.keys := by
          intro id
          obtain rfl | ⟨rfl, -⟩ := htable'
          · rw [Collection.mem_keys_put]
            exact or_iff_left_of_imp fun heq => heq ▸ hentries.1
          · exact Iff.rfl
        rw [heval, ← hkeys]
        exact ih fun other hother => (hkeys other.1).mpr (hentries.2 other hother)
      · obtain ⟨err, heval⟩ := eval_recalculateStatus_of_not order table h
        rw [heval]

theorem mem_keys_passStep (table : HeartbeatTable) (now : DateTime) (order : List HeartbeatEntry)
    (id : Term) : id ∈ (passStep table now order).2.keys ↔ id ∈ table.keys := by
  rw [passStep_eq]
  apply mem_keys_recalculateEach
  intro entry hentry
  exact List.mem_map_of_mem ((tab2list_perm table order).mem_iff.mp hentry)

theorem Named.congr {table table' : HeartbeatTable} (h : ∀ id, id ∈ table'.keys ↔ id ∈ table.keys)
    (hnamed : Named table) : Named table' := by
  constructor
  · intro id hid
    exact hnamed.name id ((h id).mp hid)
  · intro id hid id' hid'
    exact hnamed.unique id ((h id).mp hid) id' ((h id').mp hid')

theorem named_step (jason : String → Option Term) (table : HeartbeatTable) (step : HealthStep)
    (table' : HeartbeatTable) (h : Named table) (hstep : (monitor jason).step table step = some table') :
    Named table' ↔ NameFree jason table step := by
  cases step with
  | pass now order =>
      cases hstep
      exact iff_of_true (h.congr (mem_keys_passStep table now order)) trivial
  | heartbeat data =>
      cases hstep
      exact heartbeatStep_iff h fun structured => named_store_iff h structured

/-! ### All runs -/

/-- In a run from the empty table the report can be given in every state exactly when each heartbeat
of the run brings an id whose name is free when it is handled. -/
theorem healthReported_iff (jason : String → Option Term) (steps : List HealthStep) :
    (monitor jason).Always HealthReported .empty steps ↔
      (monitor jason).Meets (NameFree jason) .empty steps := by
  have hinv : HealthReported = Named := by
    funext table
    exact propext (named_iff_healthReported table).symm
  have hempty : Named .empty := by
    constructor
    · intro id hid
      cases hid
    · intro id hid
      cases hid
  have hstuck : ∀ table step, (monitor jason).step table step = none → NameFree jason table step := by
    intro table step hnone
    exact absurd hnone (monitor_step_ne_none jason table step)
  rw [hinv]
  exact Machine.always_iff_meets (named_step jason) hstuck hempty

/-- A heartbeat whose `serviceId` is this term. -/
def jasonOfId (id : Term) (_data : String) : Option Term :=
  some (.map (.cons "serviceId" id (.cons "timestamp" (.binary "yesterday") .nil)))

/-- The number 1 in the first heartbeat, the string in the second. -/
def jasonOfOnes (data : String) : Option Term :=
  jasonOfId (if data = "\x7b\"serviceId\":1,\"timestamp\":\"yesterday\"\x7d" then .int 1
    else .binary "1") data

/-- An empty map as an id is enough, and so are 1 and "1". -/
theorem not_always_healthReported :
    (¬ (monitor (jasonOfId (.map .nil))).Always HealthReported .empty
        [.heartbeat "\x7b\"serviceId\":\x7b\x7d,\"timestamp\":\"yesterday\"\x7d"]) ∧
      ¬ (monitor jasonOfOnes).Always HealthReported .empty
        [.heartbeat "\x7b\"serviceId\":1,\"timestamp\":\"yesterday\"\x7d",
          .heartbeat "\x7b\"serviceId\":\"1\",\"timestamp\":\"yesterday\"\x7d"] := by
  constructor
  · intro h
    obtain ⟨name, hname⟩ := (h.2 _ rfl).named.name (.map .nil) (List.mem_singleton.mpr rfl)
    cases hname
  · intro h
    have hnamed := ((h.2 _ rfl).2 _ rfl).named
    have hsame := hnamed.unique (.int 1) (by decide) (.binary "1") (by decide) (by decide)
    cases hsame

end BookHub.HealthMonitor
