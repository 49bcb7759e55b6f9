import BookHub.Base.JasonText
import BookHub.Base.JsonParse
import BookHub.Base.Utf8
import BookHub.HealthMonitor.Members

/-!
# The dashboard

The page of the administrators asks for the report and shows a card for each member of the object that
it gets. The report goes there as bytes: what the encoder makes of the table is a JSON text in UTF-8, and
the page parses it. Whatever bodies the heartbeats had, the cards are the records of the table, with the
numbers that the language has for theirs.
-/

namespace BookHub.HealthMonitor

open Elixir

/-! ### The page -/

namespace AdminDashboard

/-- The fields of an object. -/
def ownFields : Json → Option (List (String × Json))
  | .obj fields => some fields
  | _ => none

/-- `{ serviceId, ...details }` -/
def serviceHealthDetails (entry : String × Json) : Option (List (String × Json)) :=
  (ownFields entry.2).map fun details => Json.object (("serviceId", .str entry.1) :: details)

/-- What is shown of the body of a response, if it is an object of objects. -/
def health (body : List UInt8) : Option (List (List (String × Json))) := do
  let response ← Json.read (Utf8.decode body)
  let entries ← ownFields response.parse
  entries.mapM serviceHealthDetails

end AdminDashboard

/-! ### The report as a value -/

def Timestamp.json : Timestamp → Json
  | dateTime dt => .str dt.toIso8601
  | min => .str "Elixir.DateTime.MIN"

def Status.label : Status → String
  | healthy => "healthy"
  | stale => "stale"
  | offline => "offline"

namespace ServiceStatus

def fields (state : ServiceStatus) : List (String × Json) :=
  [("service_id", state.serviceId.json), ("timestamp", state.timestamp.json),
    ("status", (state.status.map fun status => Json.str status.label).getD .null),
    ("stats", state.stats.json), ("data", state.data.json)]

/-- The fields as they are parsed. -/
def parsed (state : ServiceStatus) : List (String × Json) := Json.parseFields state.fields

/-- The numbers of a record are as they can be written, and its maps have their keys in order. -/
structure Writable (state : ServiceStatus) : Prop where
  serviceId : state.serviceId.json.Normal
  stats : state.stats.json.Normal
  data : state.data.json.Normal

/-- The integers of a record are ones that doubles keep apart, and its maps have no indices for keys. -/
structure Kept (state : ServiceStatus) : Prop where
  serviceId : state.serviceId.json.Kept
  stats : state.stats.json.Kept
  data : state.data.json.Kept

end ServiceStatus

/-- The name of the member of a service. -/
def memberName (id : Term) : String := (Jason.key? id).getD ""

/-- What the page shows of a record. -/
def card (entry : HeartbeatEntry) : List (String × Json) :=
  ("serviceId", .str (memberName entry.1)) :: entry.2.parsed

/-- Where each service has a name of its own, the report of the table, in whatever order it is given, is
shown as one card for each record, with the very fields of the record where doubles keep its numbers. -/
def Shown (table : HeartbeatTable) : Prop :=
  Named table → ∀ order, ∃ members cards, healthMembers table order = .ok members ∧
    AdminDashboard.health (Utf8.encode (Jason.encodeObject members).toList) = some cards ∧
    cards.Perm (table.docs.map card) ∧
    ∀ entry ∈ table.docs, entry.2.Kept →
      card entry = ("serviceId", .str (memberName entry.1)) :: entry.2.fields

/-! ### Records -/

namespace ServiceStatus

variable {state : ServiceStatus}

theorem Writable.fields (h : state.Writable) : Json.NormalFields state.fields := by
  refine ⟨h.serviceId, ?_, ?_, h.stats, h.data, trivial⟩
  · cases state.timestamp <;> trivial
  · cases state.status <;> trivial

theorem Kept.fields (h : state.Kept) : Json.KeptFields state.fields := by
  refine ⟨h.serviceId, ?_, ?_, h.stats, h.data, trivial⟩
  · cases state.timestamp <;> trivial
  · cases state.status <;> trivial

/-- What doubles keep is parsed as it was. -/
theorem parsed_of_kept (h : state.Writable) (hkept : state.Kept) : state.parsed = state.fields :=
  Json.parseFields_of_kept _ h.fields hkept.fields

theorem names_fields (state : ServiceStatus) :
    state.fields.map Prod.fst = ["service_id", "timestamp", "status", "stats", "data"] := rfl

theorem nodup_fields (state : ServiceStatus) : (state.fields.map Prod.fst).Nodup := by
  rw [names_fields]
  decide

theorem encode_eq (h : state.Writable) : state.encode = Jason.render (.obj state.fields) := by
  have htimestamp : state.timestamp.encode = Jason.render state.timestamp.json := by
    cases state.timestamp with
    | dateTime dt => exact Jason.encodeString_eq _
    | min => exact Jason.encodeAtom_eq _
  have hstatus : (state.status.map Status.encode).getD (Jason.encode .nil) =
      Jason.render ((state.status.map fun status => Json.str status.label).getD .null) := by
    cases state.status with
    | none => exact Jason.encodeAtom_eq "nil"
    | some status =>
        cases status with
        | healthy => exact Jason.encodeAtom_eq "healthy"
        | stale => exact Jason.encodeAtom_eq "stale"
        | offline => exact Jason.encodeAtom_eq "offline"
  rw [encode, htimestamp, hstatus, Jason.encode_eq _ h.serviceId.wellFormed,
    Jason.encode_eq _ h.stats.wellFormed, Jason.encode_eq _ h.data.wellFormed]
  exact Jason.encodeObject_eq state.fields

theorem writable_default : defaultMessage.Writable := ⟨trivial, trivial, trivial⟩

theorem Writable.reclassify (h : state.Writable) (now : DateTime) : (reclassify now state).Writable := by
  unfold HealthMonitor.reclassify
  split
  · exact ⟨h.serviceId, h.stats, h.data⟩
  · exact h

theorem Writable.merge {structured : ServiceStatus} (h : state.Writable) (hnew : structured.Writable) :
    (merge state structured).Writable := by
  have horElse : ∀ new old : Term, new.json.Normal → old.json.Normal →
      (new.orElse old).json.Normal := by
    intro new old hnew hold
    unfold Term.orElse
    split
    · exact hnew
    · exact hold
  exact ⟨horElse _ _ hnew.serviceId h.serviceId, horElse _ _ hnew.stats h.stats,
    horElse _ _ hnew.data h.data⟩

end ServiceStatus

/-! ### Decoded bodies can be written -/

/-- The keys of the entries increase, and their values can be written. -/
def Increasing (entries : Entries) : Prop :=
  (entries.json.map Prod.fst).Pairwise (· < ·) ∧ Json.NormalFields entries.json

theorem mem_names_putEntry {key name : String} {value : Term} {entries : Entries}
    (h : name ∈ (putEntry key value entries).json.map Prod.fst) :
    name = key ∨ name ∈ entries.json.map Prod.fst := by
  fun_induction putEntry key value entries with
  | case1 => exact .inl (List.mem_singleton.mp h)
  | case2 => exact .inr h
  | case3 => exact List.mem_cons.mp h
  | case4 key' value' rest _ _ ih =>
      obtain rfl | hmem := List.mem_cons.mp h
      · exact .inr List.mem_cons_self
      · exact (ih hmem).imp_right (List.mem_cons_of_mem _)

theorem increasing_putEntry {key : String} {value : Term} {entries : Entries}
    (hvalue : value.json.Normal) (h : Increasing entries) : Increasing (putEntry key value entries) := by
  fun_induction putEntry key value entries with
  | case1 => exact ⟨List.pairwise_singleton _ _, hvalue, trivial⟩
  | case2 => exact ⟨h.1, hvalue, h.2.2⟩
  | case3 key' value' rest _ hless =>
      refine ⟨List.pairwise_cons.mpr ⟨?_, h.1⟩, hvalue, h.2⟩
      intro name hname
      obtain rfl | hmem := List.mem_cons.mp hname
      · exact hless
      · exact String.lt_trans hless ((List.pairwise_cons.mp h.1).1 name hmem)
  | case4 key' value' rest hne hnot ih =>
      obtain ⟨hfirst, hrest⟩ := List.pairwise_cons.mp h.1
      obtain ⟨hnames, hvalues⟩ := ih ⟨hrest, h.2.2⟩
      refine ⟨List.pairwise_cons.mpr ⟨?_, hnames⟩, h.2.1, hvalues⟩
      intro name hname
      obtain rfl | hmem := mem_names_putEntry hname
      · exact String.not_le.mp fun hle => hne (String.le_antisymm hle (String.not_lt.mp hnot))
      · exact hfirst name hmem

mutual

theorem normal_decodeJson : (value : Json) → value.WellFormed → (decodeJson value).json.Normal
  | .null, _ => trivial
  | .bool value, _ => by cases value <;> trivial
  | .int _, _ => trivial
  | .frac _, h => h
  | .str _, _ => trivial
  | .arr items, h => normal_decodeItems items h
  | .obj fields, h => increasing_decodeFields fields .nil h ⟨List.Pairwise.nil, trivial⟩

theorem normal_decodeItems : (items : List Json) → Json.WellFormedItems items →
    Json.NormalItems (decodeItems items).json
  | [], _ => trivial
  | item :: rest, h => ⟨normal_decodeJson item h.1, normal_decodeItems rest h.2⟩

theorem increasing_decodeFields : (fields : List (String × Json)) → (entries : Entries) →
    Json.WellFormedFields fields → Increasing entries → Increasing (decodeFields fields entries)
  | [], _, _, hentries => hentries
  | (key, value) :: rest, entries, h, hentries => by
      rw [decodeFields]
      apply increasing_decodeFields rest _ h.2
      exact increasing_putEntry (normal_decodeJson value h.1) hentries

end

theorem normal_find? : (entries : Entries) → Json.NormalFields entries.json →
    ∀ name value, entries.find? name = some value → value.json.Normal
  | .nil, _, _, _, hfind => by cases hfind
  | .cons key value rest, h, name, found, hfind => by
      rw [Entries.find?] at hfind
      split at hfind
      · cases hfind
        exact h.1
      · exact normal_find? rest h.2 name found hfind

theorem normal_access {term value : Term} {name : String} (h : term.json.Normal)
    (haccess : term.access name = .ok value) : value.json.Normal := by
  unfold Term.access at haccess
  split at haccess
  · rename_i entries
    cases haccess
    cases hfind : entries.find? name with
    | none => trivial
    | some value => exact normal_find? entries h.2 name value hfind
  · split at haccess
    · cases haccess
      trivial
    · cases haccess
  · cases haccess

/-- What a decoder makes of a body can be written: its floats are numbers, and its maps have their keys in
order. -/
def DecodesNormal (jason : String → Option Term) : Prop :=
  ∀ data decoded, jason data = some decoded → decoded.json.Normal

theorem normal_jasonDecode : DecodesNormal jasonDecode := by
  intro data decoded hdecoded
  obtain ⟨value, hvalue, rfl⟩ := Option.map_eq_some_iff.mp hdecoded
  exact normal_decodeJson value (Json.wellFormed_of_read hvalue)

theorem writable_structured {decoded : Term} {structured : ServiceStatus}
    (hnormal : decoded.json.Normal) (h : structuredMessage decoded = .ok structured) :
    structured.Writable := by
  obtain ⟨id, hid, h⟩ := bind_eq_ok_iff.mp h
  obtain ⟨term, -, h⟩ := bind_eq_ok_iff.mp h
  obtain ⟨parsed, -, h⟩ := bind_eq_ok_iff.mp h
  obtain ⟨stats, hstats, h⟩ := bind_eq_ok_iff.mp h
  obtain ⟨data, hdata, h⟩ := bind_eq_ok_iff.mp h
  cases h
  exact ⟨normal_access hnormal hid, normal_access hnormal hstats, normal_access hnormal hdata⟩

theorem writable_step {jason : String → Option Term} (hjason : DecodesNormal jason)
    {table table' : HeartbeatTable} {step : HealthStep} (h : ∀ entry ∈ table.docs, entry.2.Writable)
    (hstep : (monitor jason).step table step = some table') : ∀ entry ∈ table'.docs, entry.2.Writable := by
  apply records_step ServiceStatus.writable_default _ (fun now _ hstate => hstate.reclassify now) h hstep
  intro data decoded structured existing hdecoded hstructured hexisting
  exact hexisting.merge (writable_structured (hjason data decoded hdecoded) hstructured)

/-! ### The cards -/

theorem members_eq {encodeValue : ServiceStatus → String} {entries : List HeartbeatEntry}
    {members : List (String × String)} (h : Jason.members encodeValue entries = .ok members) :
    members = entries.map fun entry => (memberName entry.1, encodeValue entry.2) := by
  apply mapM_eq_map _ h
  intro entry member hmember
  obtain ⟨hname, hvalue⟩ := Jason.member_eq_ok_iff.mp hmember
  rw [memberName, hname, ← hvalue]
  rfl

/-- The report is the text of an object. -/
theorem encodeObject_members {entries : List HeartbeatEntry} {members : List (String × String)}
    (hmembers : Jason.members ServiceStatus.encode entries = .ok members)
    (h : ∀ entry ∈ entries, entry.2.Writable) :
    Jason.encodeObject members =
      Jason.render (.obj (entries.map fun entry => (memberName entry.1, .obj entry.2.fields))) := by
  rw [members_eq hmembers, ← Jason.encodeObject_eq, List.map_map]
  congr 1
  apply List.map_congr_left
  intro entry hentry
  rw [ServiceStatus.encode_eq (h entry hentry)]
  rfl

theorem wellFormed_report {entries : List HeartbeatEntry} (h : ∀ entry ∈ entries, entry.2.Writable) :
    (Json.obj (entries.map fun entry => (memberName entry.1, .obj entry.2.fields))).WellFormed := by
  show Json.WellFormedFields _
  induction entries with
  | nil => trivial
  | cons entry rest ih =>
      rw [List.forall_mem_cons] at h
      exact ⟨Json.NormalFields.wellFormed _ h.1.fields, ih h.2⟩

theorem parse_fields (state : ServiceStatus) : Json.parse (.obj state.fields) = .obj state.parsed := by
  have hnames : state.parsed.map Prod.fst = state.fields.map Prod.fst := Json.names_parseFields _
  have hnodup : (state.parsed.map Prod.fst).Nodup := hnames ▸ state.nodup_fields
  have hindices : ∀ name ∈ state.parsed.map Prod.fst, Json.arrayIndex? name = none := by
    rw [hnames, state.names_fields]
    decide
  rw [Json.parse, ← ServiceStatus.parsed, Json.object_of_nodup hnodup, Json.ordered_of_none]
  exact fun field hfield => hindices field.1 (List.mem_map_of_mem hfield)

theorem serviceHealthDetails_eq (name : String) (state : ServiceStatus) :
    AdminDashboard.serviceHealthDetails (name, .obj state.parsed) =
      some (("serviceId", .str name) :: state.parsed) := by
  have hnodup : ((("serviceId", Json.str name) :: state.parsed).map Prod.fst).Nodup := by
    rw [List.map_cons, ServiceStatus.parsed, Json.names_parseFields, state.names_fields]
    show ["serviceId", "service_id", "timestamp", "status", "stats", "data"].Nodup
    decide
  rw [AdminDashboard.serviceHealthDetails, AdminDashboard.ownFields, Option.map_some,
    Json.object_of_nodup hnodup]

/-- What is shown of the text of an object whose members have different names. -/
theorem health_encodeObject {entries : List HeartbeatEntry} {members : List (String × String)}
    (hmembers : Jason.members ServiceStatus.encode entries = .ok members)
    (hnames : (members.map Prod.fst).Nodup) (h : ∀ entry ∈ entries, entry.2.Writable) :
    ∃ cards, AdminDashboard.health (Utf8.encode (Jason.encodeObject members).toList) = some cards ∧
      cards.Perm (entries.map card) := by
  let fields : List (String × Json) := entries.map fun entry => (memberName entry.1, .obj entry.2.parsed)
  have hparse : Json.parse (.obj (entries.map fun entry => (memberName entry.1, .obj entry.2.fields))) =
      .obj (Json.ordered fields) := by
    have hfields : Json.parseFields
        (entries.map fun entry => (memberName entry.1, .obj entry.2.fields)) = fields := by
      rw [Json.parseFields_eq, List.map_map]
      apply List.map_congr_left
      intro entry _
      exact congrArg (Prod.mk (memberName entry.1)) (parse_fields entry.2)
    have hnodup : (fields.map Prod.fst).Nodup := by
      rw [members_eq hmembers, List.map_map] at hnames
      rw [List.map_map]
      exact hnames
    rw [Json.parse, hfields, Json.object_of_nodup hnodup]
  let shown : String × Json → List (String × Json) := fun field =>
    (AdminDashboard.serviceHealthDetails field).getD []
  have hshown : ∀ field ∈ Json.ordered fields,
      AdminDashboard.serviceHealthDetails (id field) = some (shown field) := by
    intro field hfield
    obtain ⟨entry, -, rfl⟩ := List.mem_map.mp ((Json.ordered_perm fields).mem_iff.mp hfield)
    show AdminDashboard.serviceHealthDetails _ = some (Option.getD (AdminDashboard.serviceHealthDetails _) [])
    rw [id, serviceHealthDetails_eq]
    rfl
  have hall := mapM_map_append hshown []
  rw [List.map_id, List.append_nil] at hall
  refine ⟨(Json.ordered fields).map shown, ?_, ?_⟩
  · rw [AdminDashboard.health, Utf8.decode_encode, encodeObject_members hmembers h,
      Jason.read_render (wellFormed_report h)]
    rw [Option.bind_eq_bind, Option.bind_some, hparse]
    show (Json.ordered fields).mapM _ = _
    rw [hall]
    show some (List.map shown _ ++ []) = _
    rw [List.append_nil]
  · have hcards : fields.map shown = entries.map card := by
      rw [List.map_map]
      apply List.map_congr_left
      intro entry _
      show (AdminDashboard.serviceHealthDetails (memberName entry.1, .obj entry.2.parsed)).getD [] =
        card entry
      rw [serviceHealthDetails_eq]
      rfl
    rw [← hcards]
    exact (Json.ordered_perm fields).map shown

theorem shown_of_writable {table : HeartbeatTable} (h : ∀ entry ∈ table.docs, entry.2.Writable) :
    Shown table := by
  intro hnamed order
  obtain ⟨members, hmembers⟩ := (healthMembers_ok_iff table order).mpr hnamed.name
  have hnames := (nodup_names_iff hmembers).mpr hnamed.unique
  have hperm := tab2list_perm table order
  rw [healthMembers_eq] at hmembers
  have hentries : ∀ entry ∈ HeartbeatTable.tab2list table order, entry.2.Writable := fun entry hentry =>
    h entry (hperm.mem_iff.mp hentry)
  obtain ⟨cards, hcards, hsame⟩ := health_encodeObject hmembers hnames hentries
  refine ⟨members, cards, ?_, hcards, hsame.trans (hperm.map card), ?_⟩
  · rw [healthMembers_eq]
    exact hmembers
  · intro entry hentry hkept
    rw [card, entry.2.parsed_of_kept (h entry hentry) hkept]

/-! ### All runs -/

/-- Whatever bodies the heartbeats have had: what the page shows is what the monitor has, with the numbers
of the language. -/
theorem always_shown {jason : String → Option Term} (hjason : DecodesNormal jason)
    (steps : List HealthStep) : (monitor jason).Always Shown .empty steps := by
  apply @Machine.always_of_meets _ _ _ (fun _ _ => True)
    fun table => ∀ entry ∈ table.docs, entry.2.Writable
  · exact fun table step table' h _ hstep => writable_step hjason h hstep
  · exact fun table h => shown_of_writable h
  · exact nofun
  · exact Machine.meets_of_forall (fun _ _ => trivial) _ steps

/-- A heartbeat with a load and a memory that is no double. -/
def loadedBody : String :=
  "\x7b\"serviceId\":\"search\",\"timestamp\":\"2026-11-20T12:00:00Z\",\"stats\":" ++
    "\x7b\"load\":0.5,\"memory\":12345678901234567890\x7d\x7d"

theorem always_shown_loaded :
    ((monitor jasonDecode).run .empty [.heartbeat loadedBody]).map (fun table => table.docs.length) = some 1 ∧
      (monitor jasonDecode).Always Shown .empty [.heartbeat loadedBody] :=
  ⟨by decide +kernel, always_shown normal_jasonDecode _⟩

/-! ### The members -/

/-- The card of a member, by a recalculation at this time: its status is that of the age of its last
heartbeat, and its time reads as the time of that heartbeat. -/
structure CardOf (now : DateTime) (member : Member) (clock : Int) (card : List (String × Json)) : Prop where
  serviceId : card.lookup "serviceId" = some (.str member.serviceId)
  status : card.lookup "status" =
    some (.str (newStatus (now.micros / 1000000 - clock / 1000000)).label)
  timestamp : ∃ text, card.lookup "timestamp" = some (.str text) ∧
    DateTime.fromIso8601 (.binary text) = .ok (some (member.instant clock))

/-- After these events and a recalculation, the page shows one card for each member that has been heard
of, and no others. -/
def Presented (events : List MemberEvent) (now : DateTime) (order order' : List HeartbeatEntry) : Prop :=
  ∃ table members cards,
    (monitor jasonDecode).run .empty ((events ++ [MemberEvent.pass now order]).map
      MemberEvent.healthStep) = some table ∧
    healthMembers table order' = .ok members ∧
    AdminDashboard.health (Utf8.encode (Jason.encodeObject members).toList) = some cards ∧
    (cards.map fun card => card.lookup "serviceId").Nodup ∧
    (∀ member clock, lastClock member events.reverse = some clock →
      ∃ card ∈ cards, CardOf now member clock card) ∧
    ∀ card ∈ cards, ∃ member clock, lastClock member events.reverse = some clock ∧
      CardOf now member clock card

theorem lastClock_cons {member : Member} {events : List MemberEvent} {clock : Int}
    (h : lastClock member events = some clock) (event : MemberEvent) :
    ∃ clock', lastClock member (event :: events) = some clock' := by
  cases event with
  | heartbeat sender sent usage =>
      by_cases hsender : sender = member
      · exact ⟨sent, if_pos hsender⟩
      · exact ⟨clock, (if_neg hsender).trans h⟩
  | pass now order => exact ⟨clock, h⟩

theorem mem_of_lastClock {member : Member} {events : List MemberEvent} {clock : Int}
    (h : lastClock member events = some clock) : ∃ usage, .heartbeat member clock usage ∈ events := by
  induction events with
  | nil => cases h
  | cons event rest ih =>
      cases event with
      | heartbeat sender sent usage =>
          by_cases hsender : sender = member
          · cases (if_pos hsender).symm.trans h
            exact ⟨usage, hsender ▸ List.mem_cons_self⟩
          · obtain ⟨usage', hmem⟩ := ih ((if_neg hsender).symm.trans h)
            exact ⟨usage', List.mem_cons_of_mem _ hmem⟩
      | pass now order =>
          obtain ⟨usage, hmem⟩ := ih h
          exact ⟨usage, List.mem_cons_of_mem _ hmem⟩

/-- Every id of the table is that of a member that has been heard of. -/
theorem heard_of_run {events : List MemberEvent} (hevents : ∀ event ∈ events, event.InYears)
    {table : HeartbeatTable}
    (hrun : (monitor jasonDecode).run .empty (events.map MemberEvent.healthStep) = some table) :
    ∀ id ∈ table.keys, ∃ member clock, id = .binary member.serviceId ∧
      lastClock member events.reverse = some clock := by
  induction events using List.reverseRecOn generalizing table with
  | nil =>
      cases hrun
      exact nofun
  | append_singleton events event ih =>
      rw [List.map_append, Machine.run_append] at hrun
      obtain ⟨before, hbefore, hstep⟩ := Option.bind_eq_some_iff.mp hrun
      obtain ⟨after, hstep, hafter⟩ := Option.bind_eq_some_iff.mp hstep
      cases hafter
      have hold := ih (fun other hother => hevents other (List.mem_append_left _ hother)) hbefore
      have hevent := hevents event (List.mem_append_right _ (List.mem_singleton_self event))
      have hkept : ∀ id ∈ before.keys, ∃ member clock, id = .binary member.serviceId ∧
          lastClock member (events ++ [event]).reverse = some clock := by
        intro id hid
        obtain ⟨member, clock, hmember, hlast⟩ := hold id hid
        obtain ⟨clock', hlast'⟩ := lastClock_cons hlast event
        refine ⟨member, clock', hmember, ?_⟩
        rw [List.reverse_append]
        exact hlast'
      cases event with
      | heartbeat sender sent usage =>
          obtain ⟨structured, hstore, hsender, -⟩ := monitor_heartbeat hevent before
          cases hstore.symm.trans hstep
          intro id hid
          obtain hid | rfl := mem_keys_store.mp hid
          · exact hkept id hid
          · refine ⟨sender, sent, hsender, ?_⟩
            rw [List.reverse_append]
            exact if_pos rfl
      | pass now order =>
          cases hstep
          exact fun id hid => hkept id ((mem_keys_passStep before now order id).mp hid)

theorem cardOf_of_state {now : DateTime} {member : Member} {clock : Int} {state : ServiceStatus}
    (hyears : InYears clock) (htimestamp : state.timestamp = .dateTime (member.instant clock))
    (hstatus : state.status = some (newStatus (now.micros / 1000000 - clock / 1000000))) :
    CardOf now member clock (card (.binary member.serviceId, state)) where
  serviceId := rfl
  status := by
    show some (Json.parse ((state.status.map fun status => Json.str status.label).getD .null)) = _
    rw [hstatus]
    rfl
  timestamp := by
    refine ⟨(member.instant clock).toIso8601, ?_,
      DateTime.fromIso8601_toIso8601 (fromIso8601_timestamp hyears member)⟩
    show some (Json.parse state.timestamp.json) = _
    rw [htimestamp]
    rfl

theorem nodup_memberName {table : HeartbeatTable} (h : Named table) :
    (table.docs.map fun entry => memberName entry.1).Nodup := by
  have hkeys : (table.keys.map memberName).Nodup := by
    apply List.Nodup.map_on _ table.nodup
    intro id hid id' hid' heq
    obtain ⟨name, hname⟩ := h.name id hid
    obtain ⟨name', hname'⟩ := h.name id' hid'
    rw [memberName, memberName, hname, hname'] at heq
    apply h.unique id hid id' hid'
    rw [hname, hname']
    exact congrArg some heq
  rwa [Collection.keys, List.map_map] at hkeys

/-- As long as only the members publish, the page of the administrators says of each of them how old its
last heartbeat is. -/
theorem monitored_dashboard {events : List MemberEvent} (hevents : ∀ event ∈ events, event.InYears)
    (now : DateTime) (order order' : List HeartbeatEntry) : Presented events now order order' := by
  obtain ⟨before, hbefore⟩ := Machine.exists_run (monitor_total jasonDecode) .empty
    (events.map MemberEvent.healthStep)
  let table := (passStep before now order).2
  have hrun : (monitor jasonDecode).run .empty
      ((events ++ [MemberEvent.pass now order]).map MemberEvent.healthStep) = some table := by
    rw [List.map_append, Machine.run_append, hbefore]
    rfl
  have hmembers := memberTable_run hevents memberTable_empty hbefore
  have hafter : MemberTable table := @memberTable_step (.pass now order) trivial _ _ hmembers rfl
  have hnamed : Named table := hafter.reported.2.named
  have hwritable : ∀ entry ∈ table.docs, entry.2.Writable := by
    apply @Machine.invariant _ _ _ (fun table => ∀ entry ∈ table.docs, entry.2.Writable) _ _ _ _ nofun hrun
    exact fun _ _ _ h hstep => writable_step normal_jasonDecode h hstep
  obtain ⟨members, cards, hreport, hhealth, hperm, -⟩ := shown_of_writable hwritable hnamed order'
  have hstate : ∀ member clock, lastClock member events.reverse = some clock →
      ∃ entry ∈ table.docs, entry.1 = .binary member.serviceId ∧ CardOf now member clock (card entry) := by
    intro member clock hlast
    obtain ⟨state, hstate, htimestamp, hstatus⟩ := state_of_pass hevents hrun hlast
    obtain ⟨usage, hmem⟩ := mem_of_lastClock hlast
    have hyears : InYears clock := hevents _ (List.mem_reverse.mp hmem)
    exact ⟨(.binary member.serviceId, state), mem_docs_iff_lookup.mpr hstate, rfl,
      cardOf_of_state hyears htimestamp hstatus⟩
  refine ⟨table, members, cards, hrun, hreport, hhealth, ?_, ?_, ?_⟩
  · have hids : (cards.map fun card => card.lookup "serviceId").Perm
        ((table.docs.map fun entry => memberName entry.1).map fun name => some (Json.str name)) := by
      rw [List.map_map]
      exact (hperm.map _).trans (List.Perm.of_eq (by rw [List.map_map]; rfl))
    rw [hids.nodup_iff]
    apply (nodup_memberName hnamed).map
    intro name name' heq
    cases heq
    rfl
  · intro member clock hlast
    obtain ⟨entry, hentry, -, hcard⟩ := hstate member clock hlast
    exact ⟨card entry, hperm.mem_iff.mpr (List.mem_map_of_mem hentry), hcard⟩
  · intro shown hshown
    obtain ⟨entry, hentry, rfl⟩ := List.mem_map.mp (hperm.mem_iff.mp hshown)
    have hkey : entry.1 ∈ before.keys :=
      (mem_keys_passStep before now order entry.1).mp (List.mem_map_of_mem hentry)
    obtain ⟨member, clock, hid, hlast⟩ := heard_of_run hevents hbefore entry.1 hkey
    obtain ⟨entry', hentry', hid', hcard⟩ := hstate member clock hlast
    have hsame : entry = entry' :=
      List.inj_on_of_nodup_map table.nodup hentry hentry' (hid.trans hid'.symm)
    exact ⟨member, clock, hlast, hsame ▸ hcard⟩

theorem monitored_dashboard_noon : Presented [.heartbeat .reviewService 63934488000000000 .idle,
    .heartbeat .bookService 63934488000012345 .idle] ⟨63934488045000000, 0⟩ [] [] := by
  apply monitored_dashboard
  intro event hevent
  obtain rfl | hevent := List.mem_cons.mp hevent
  · exact ⟨by decide, by decide⟩
  · cases List.mem_singleton.mp hevent
    exact ⟨by decide, by decide⟩

end BookHub.HealthMonitor
