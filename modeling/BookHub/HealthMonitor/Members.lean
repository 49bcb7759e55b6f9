import BookHub.Base.Calendar
import BookHub.Base.JsonText
import BookHub.HealthMonitor.Report

/-!
# The services that are monitored

The five services that publish heartbeats, each with the text that its language makes of the body, and
with the timestamp that its language writes: Python with six decimals or none, JavaScript with three, Go
with none and C# with six. The monitor reads all of them, so as long as only these services publish,
nothing stops a recalculation, the report can always be given, and after a recalculation the status of a
service says how old its last heartbeat is by the clock of that service.
-/

namespace BookHub.HealthMonitor

open Elixir

/-! ### Decoded bodies -/

/-- An entry under its key, in the order of the keys. -/
def putEntry (key : String) (value : Term) : Entries → Entries
  | .nil => .cons key value .nil
  | .cons key' value' rest =>
      if key = key' then .cons key value rest
      else if key < key' then .cons key value (.cons key' value' rest)
      else .cons key' value' (putEntry key value rest)

mutual

/-- The term that a JSON value decodes to. -/
def decodeJson : Json → Term
  | .null => .nil
  | .bool value => .atom (toString value)
  | .int value => .int value
  | .frac literal => .float literal
  | .str value => .binary value
  | .arr items => .list (decodeItems items)
  | .obj fields => .map (decodeFields fields .nil)

def decodeItems : List Json → Terms
  | [] => .nil
  | item :: rest => .cons (decodeJson item) (decodeItems rest)

/-- Of two fields of one name the last one stays. -/
def decodeFields : List (String × Json) → Entries → Entries
  | [], entries => entries
  | (key, value) :: rest, entries => decodeFields rest (putEntry key (decodeJson value) entries)

end

/-- `Jason.decode`; a float keeps the literal that it was read from. -/
def jasonDecode (text : String) : Option Term := (Json.read text.toList).map decodeJson

theorem find?_putEntry (key : String) (value : Term) (entries : Entries) (name : String) :
    (putEntry key value entries).find? name =
      if key = name then some value else entries.find? name := by
  match entries with
  | .nil => rfl
  | .cons key' value' rest =>
      rw [putEntry]
      by_cases hkey : key = key'
      · rw [if_pos hkey]
        subst hkey
        simp only [Entries.find?]
        by_cases hname : key = name
        · simp only [if_pos hname]
        · simp only [if_neg hname]
      · rw [if_neg hkey]
        by_cases hlt : key < key'
        · rw [if_pos hlt]
          rfl
        · rw [if_neg hlt, Entries.find?, Entries.find?, find?_putEntry key value rest name]
          by_cases hname : key' = name
          · rw [if_pos hname, if_pos hname, if_neg]
            rintro rfl
            exact hkey hname.symm
          · rw [if_neg hname, if_neg hname]

/-! ### Timestamps -/

/-- `str.replace(old, new)`. -/
def replace (old new : List Char) : List Char → List Char
  | [] => []
  | c :: rest =>
      if old.isPrefixOf (c :: rest) then new ++ replace old new (rest.drop (old.length - 1))
      else c :: replace old new rest
termination_by text => text.length
decreasing_by
  · simp only [List.length_drop, List.length_cons]
    omega
  · simp

/-- `datetime.now(timezone.utc).isoformat()`. -/
def isoformat (micros : Int) : List Char :=
  DateTime.dateText micros ++ 'T' :: (DateTime.timeText micros ++
    ((if micros % 1000000 = 0 then [] else '.' :: pad 6 (micros % 1000000).toNat) ++
      ['+', '0', '0', ':', '0', '0']))

/-- `isoformat().replace("+00:00", "Z")`. -/
def pythonTimestamp (micros : Int) : String :=
  String.ofList (replace ['+', '0', '0', ':', '0', '0'] ['Z'] (isoformat micros))

/-- The date of `toISOString`; a year of more than four digits gets a sign and six of them. -/
def isoDate (micros : Int) : List Char :=
  let (year, month, day) := DateTime.dateFromIsoDays (micros / 86400000000)
  if 0 ≤ year ∧ year ≤ 9999 then DateTime.dateText micros
  else (if year < 0 then '-' else '+') :: pad 6 year.natAbs ++ '-' :: pad 2 month ++ '-' :: pad 2 day

/-- `new Date().toISOString()`, of a time in milliseconds. -/
def toISOString (ms : Int) : String :=
  String.ofList (isoDate (ms * 1000) ++ 'T' :: (DateTime.timeText (ms * 1000) ++
    ('.' :: pad 3 (ms % 1000).toNat ++ ['Z'])))

/-- `time.Now().UTC().Format(time.RFC3339)`. -/
def rfc3339 (micros : Int) : String :=
  String.ofList (DateTime.dateText micros ++ 'T' :: (DateTime.timeText micros ++ ([] ++ ['Z'])))

/-- `DateTime.UtcNow.ToString("yyyy-MM-ddTHH:mm:ss.ffffffZ")`. -/
def dotNetTimestamp (micros : Int) : String :=
  String.ofList (DateTime.dateText micros ++ 'T' :: (DateTime.timeText micros ++
    ('.' :: pad 6 (micros % 1000000).toNat ++ ['Z'])))

/-! ### The members -/

inductive Member where
  | bookService
  | mediaService
  | userService
  | reviewService
  | authService
  deriving DecidableEq, Repr

/-- What a service reads of its own process for a heartbeat. -/
structure Usage where
  cpu : Json
  memory : Json
  uptime : Json
  wellFormed : cpu.WellFormed ∧ memory.WellFormed ∧ uptime.WellFormed

namespace Member

def serviceId : Member → String
  | bookService => "bookhub.book-service"
  | mediaService => "bookhub.media-service"
  | userService => "bookhub.user-service"
  | reviewService => "bookhub-review-service"
  | authService => "bookhub.auth-service"

/-- The timestamp of a heartbeat, by the clock of the service in microseconds. -/
def timestamp (clock : Int) : Member → String
  | bookService | mediaService => pythonTimestamp clock
  | userService => toISOString (clock / 1000)
  | reviewService => rfc3339 clock
  | authService => dotNetTimestamp clock

/-- The fields of a heartbeat, in the order in which they are written. -/
def payload (clock : Int) (usage : Usage) : Member → List (String × Json)
  | bookService => [("serviceId", .str bookService.serviceId), ("status", .str "alive"),
      ("timestamp", .str (bookService.timestamp clock)), ("stats", .obj [("cpu", .int 88)]),
      ("data", .obj [("books", .int 101)])]
  | mediaService => [("serviceId", .str mediaService.serviceId), ("status", .str "alive"),
      ("timestamp", .str (mediaService.timestamp clock)), ("stats", .obj [("cpu", .int 42)]),
      ("data", .obj [("mediaFiles", .int 23)])]
  | userService => [("serviceId", .str userService.serviceId),
      ("timestamp", .str (userService.timestamp clock)),
      ("stats", .obj [("status", .str "healthy"), ("cpu", usage.cpu), ("memory", usage.memory),
        ("uptime", usage.uptime)]),
      ("data", .obj [("totalUsers", .int 4)])]
  | reviewService => [("serviceId", .str reviewService.serviceId),
      ("timestamp", .str (reviewService.timestamp clock))]
  | authService => [("serviceId", .str authService.serviceId), ("status", .str "alive"),
      ("timestamp", .str (authService.timestamp clock)),
      ("stats", .obj [("cpu", usage.cpu), ("memory", usage.memory), ("uptime", usage.uptime)]),
      ("data", .obj [("validAuthorizations", .int 23), ("invalidAuthorizations", .int 3)])]

/-- How the language of the service writes JSON. -/
def encoder : Member → Json.Encoder
  | bookService | mediaService => Json.dumps
  | userService => Json.stringify
  | reviewService => Json.marshal
  | authService => Json.serialize

/-- The text of a heartbeat. -/
def body (member : Member) (clock : Int) (usage : Usage) : String :=
  String.ofList (member.encoder.write (.obj (member.payload clock usage)))

/-- The instant that the timestamp says: the clock, cut to what the language writes of it. -/
def instant (clock : Int) : Member → DateTime
  | bookService | mediaService => if clock % 1000000 = 0 then ⟨clock, 0⟩ else ⟨clock, 6⟩
  | userService => ⟨clock / 1000 * 1000, 3⟩
  | reviewService => ⟨clock / 1000000 * 1000000, 0⟩
  | authService => ⟨clock, 6⟩

end Member

/-- The years that all of the languages can hold, from 1 to 9999. -/
def InYears (clock : Int) : Prop := 366 ≤ clock / 86400000000 ∧ clock / 86400000000 ≤ 3652424

/-! ### The monitor reads them -/

theorem ne_plus_of_isDigit {c : Char} (h : c.isDigit = true) : c ≠ '+' := by
  rintro rfl
  cases h

theorem plus_not_mem_pad (width value : Nat) : '+' ∉ pad width value := by
  intro hmem
  exact ne_plus_of_isDigit (isDigit_of_mem_pad hmem) rfl

theorem plus_not_mem_dateText (micros : Int) : '+' ∉ DateTime.dateText micros := by
  unfold DateTime.dateText
  split
  rename_i year month day _
  simp only [List.mem_append, List.mem_cons, not_or]
  refine ⟨⟨⟨?_, plus_not_mem_pad _ _⟩, by decide, plus_not_mem_pad _ _⟩, by decide,
    plus_not_mem_pad _ _⟩
  split
  · decide
  · exact List.not_mem_nil

theorem plus_not_mem_timeText (micros : Int) : '+' ∉ DateTime.timeText micros := by
  unfold DateTime.timeText
  simp only [List.mem_append, List.mem_cons, not_or]
  exact ⟨⟨plus_not_mem_pad _ _, by decide, plus_not_mem_pad _ _⟩, by decide, plus_not_mem_pad _ _⟩

/-- A text whose first plus is that of the offset. -/
theorem replace_offset {text : List Char} (h : '+' ∉ text) :
    replace ['+', '0', '0', ':', '0', '0'] ['Z'] (text ++ ['+', '0', '0', ':', '0', '0']) =
      text ++ ['Z'] := by
  induction text with
  | nil =>
      rw [List.nil_append, replace, if_pos (by decide)]
      simp [replace]
  | cons c rest ih =>
      obtain ⟨hc, hrest⟩ := not_or.mp (mt List.mem_cons.mpr h)
      rw [List.cons_append, replace, if_neg, ih hrest]
      · rfl
      · simp [hc]

theorem inCalendar_of_inYears {clock : Int} (h : InYears clock) {dt : DateTime}
    (hday : dt.micros / 86400000000 = clock / 86400000000) : dt.inCalendar = true := by
  obtain ⟨hfirst, hlast⟩ := h
  simp only [DateTime.inCalendar, hday, Bool.and_eq_true, decide_eq_true_eq]
  omega

theorem fromIso8601_of_parseUtc? {text : String} {dt : DateTime}
    (hparsed : DateTime.parseUtc? text = some dt) (hcalendar : dt.inCalendar = true) :
    DateTime.fromIso8601 (.binary text) = .ok (some dt) := by
  simp only [DateTime.fromIso8601, hparsed, hcalendar, if_true]

/-- With so many decimals of the seconds. -/
theorem parseUtc?_decimals {micros : Int} (h : InYears micros) {precision : Nat}
    (hpos : 0 < precision) (hle : precision ≤ 6) (value : Nat) (hvalue : value < 10 ^ precision) :
    DateTime.parseUtc? (String.ofList (DateTime.dateText micros ++
        'T' :: (DateTime.timeText micros ++ ('.' :: pad precision value ++ ['Z'])))) =
      some ⟨micros / 1000000 * 1000000 + (value * 10 ^ (6 - precision) : Nat), precision⟩ :=
  DateTime.parseUtc?_text (inCalendar_of_inYears h rfl)
    (DateTime.parseMicrosecond_pad hpos hle hvalue)

/-- Without any. -/
theorem parseUtc?_seconds {micros : Int} (h : InYears micros) :
    DateTime.parseUtc? (String.ofList (DateTime.dateText micros ++
        'T' :: (DateTime.timeText micros ++ ([] ++ ['Z'])))) =
      some ⟨micros / 1000000 * 1000000, 0⟩ := by
  have hparsed := @DateTime.parseUtc?_text micros (inCalendar_of_inYears h rfl) [] 0 0 rfl
  rwa [Int.natCast_zero, Int.add_zero] at hparsed

theorem parseUtc?_pythonTimestamp {clock : Int} (h : InYears clock) :
    DateTime.parseUtc? (pythonTimestamp clock) =
      some (if clock % 1000000 = 0 then ⟨clock, 0⟩ else ⟨clock, 6⟩) := by
  have hclock : clock / 1000000 * 1000000 + ((clock % 1000000).toNat : Int) = clock := by omega
  unfold pythonTimestamp isoformat
  by_cases hwhole : clock % 1000000 = 0
  · have hnot : '+' ∉ DateTime.dateText clock ++ 'T' :: (DateTime.timeText clock ++ []) := by
      simp [plus_not_mem_dateText, plus_not_mem_timeText]
    have htext := replace_offset hnot
    simp only [List.append_assoc, List.cons_append] at htext
    have hseconds : clock / 1000000 * 1000000 = clock := by omega
    rw [if_pos hwhole, if_pos hwhole, htext, parseUtc?_seconds h, hseconds]
  · have hnot : '+' ∉ DateTime.dateText clock ++ 'T' :: (DateTime.timeText clock ++
        '.' :: pad 6 (clock % 1000000).toNat) := by
      simp [plus_not_mem_dateText, plus_not_mem_timeText, plus_not_mem_pad]
    have htext := replace_offset hnot
    simp only [List.append_assoc, List.cons_append] at htext
    have hparsed := parseUtc?_decimals h (by decide) (Nat.le_refl 6)
      (clock % 1000000).toNat (by omega)
    rw [if_neg hwhole, if_neg hwhole, List.cons_append, htext]
    rw [Nat.sub_self, Nat.pow_zero, Nat.mul_one, hclock] at hparsed
    exact hparsed

/-- The date of a year of four digits is written like any other. -/
theorem isoDate_eq {micros : Int} (h : InYears micros) : isoDate micros = DateTime.dateText micros := by
  obtain ⟨year, month, day, hdate⟩ : ∃ year month day,
      DateTime.dateFromIsoDays (micros / 86400000000) = (year, month, day) := ⟨_, _, _, rfl⟩
  obtain ⟨-, -, hfirst, hlast⟩ := DateTime.dateFromIsoDays_spec hdate
  obtain ⟨hle, hlt⟩ := h
  have hyear : 0 ≤ year ∧ year ≤ 9999 := by
    unfold DateTime.daysInPreviousYears at hfirst hlast
    omega
  simp only [isoDate, hdate, if_pos hyear]

/-- Each of the timestamps is read as the instant that it says. -/
theorem fromIso8601_timestamp {clock : Int} (h : InYears clock) (member : Member) :
    DateTime.fromIso8601 (.binary (member.timestamp clock)) = .ok (some (member.instant clock)) := by
  have hclock : clock / 1000000 * 1000000 + ((clock % 1000000).toNat : Int) = clock := by omega
  have hpython : DateTime.fromIso8601 (.binary (pythonTimestamp clock)) =
      .ok (some (if clock % 1000000 = 0 then ⟨clock, 0⟩ else ⟨clock, 6⟩)) := by
    apply fromIso8601_of_parseUtc? (parseUtc?_pythonTimestamp h)
    split <;> exact inCalendar_of_inYears h rfl
  cases member with
  | bookService => exact hpython
  | mediaService => exact hpython
  | userService =>
      have hms : InYears (clock / 1000 * 1000) := by
        unfold InYears at h ⊢
        omega
      have hparsed := parseUtc?_decimals hms (by decide : 0 < 3) (by decide : 3 ≤ 6)
        (clock / 1000 % 1000).toNat (by omega)
      rw [← isoDate_eq hms] at hparsed
      have hinstant : clock / 1000 * 1000 / 1000000 * 1000000 +
          (((clock / 1000 % 1000).toNat * 10 ^ (6 - 3) : Nat) : Int) = clock / 1000 * 1000 := by
        omega
      rw [hinstant] at hparsed
      exact fromIso8601_of_parseUtc? hparsed (inCalendar_of_inYears hms rfl)
  | reviewService =>
      apply fromIso8601_of_parseUtc? (parseUtc?_seconds h)
      apply inCalendar_of_inYears h
      show clock / 1000000 * 1000000 / 86400000000 = _
      omega
  | authService =>
      have hparsed := parseUtc?_decimals h (by decide) (Nat.le_refl 6)
        (clock % 1000000).toNat (by omega)
      rw [Nat.sub_self, Nat.pow_zero, Nat.mul_one, hclock] at hparsed
      exact fromIso8601_of_parseUtc? hparsed (inCalendar_of_inYears h rfl)

/-! ### The monitor among its members -/

/-- A member publishes a heartbeat, which is handled, or a recalculation comes. -/
inductive MemberEvent where
  | heartbeat (member : Member) (clock : Int) (usage : Usage)
  | pass (now : DateTime) (order : List HeartbeatEntry)

def MemberEvent.healthStep : MemberEvent → HealthStep
  | heartbeat member clock usage => .heartbeat (member.body clock usage)
  | pass now order => .pass now order

/-- The clock of the service is within the years that can be written. -/
def MemberEvent.InYears : MemberEvent → Prop
  | heartbeat _ clock _ => HealthMonitor.InYears clock
  | pass _ _ => True

/-- The clock of the last heartbeat of a member, in a history that has the latest event first. -/
def lastClock (member : Member) : List MemberEvent → Option Int
  | [] => none
  | .heartbeat sender clock _ :: earlier =>
      if sender = member then some clock else lastClock member earlier
  | .pass _ _ :: earlier => lastClock member earlier

/-- What the monitor makes of its members' heartbeats: every recalculation goes through, every report
can be given, and after a recalculation the status of a member compares whole seconds of two clocks. -/
structure Monitored (events : List MemberEvent) : Prop where
  always : (monitor jasonDecode).Always (fun table => Recalculable table ∧ HealthReported table) .empty
    (events.map MemberEvent.healthStep)
  shown : ∀ now order table, (monitor jasonDecode).run .empty
      ((events ++ [MemberEvent.pass now order]).map MemberEvent.healthStep) = some table →
    ∀ member clock, lastClock member events.reverse = some clock →
      ∃ state, HeartbeatTable.lookup table (.binary member.serviceId) = some state ∧
        state.timestamp = .dateTime (member.instant clock) ∧
        state.status = some (newStatus (now.micros / 1000000 - clock / 1000000))

/-! ### The table -/

/-- The entries of a table that only members have written to. -/
structure MemberTable (table : HeartbeatTable) : Prop where
  sound : Sound table
  ids : ∀ id ∈ table.keys, ∃ member : Member, id = .binary member.serviceId

theorem MemberTable.reported {table : HeartbeatTable} (h : MemberTable table) :
    Recalculable table ∧ HealthReported table := by
  refine ⟨h.sound.recalculable, Named.healthReported ⟨?_, ?_⟩⟩
  · intro id hid
    obtain ⟨member, rfl⟩ := h.ids id hid
    exact ⟨member.serviceId, rfl⟩
  · intro id hid id' hid' heq
    obtain ⟨member, rfl⟩ := h.ids id hid
    obtain ⟨member', rfl⟩ := h.ids id' hid'
    exact congrArg Term.binary (Option.some.inj heq)

theorem find?_payload (member : Member) (clock : Int) (usage : Usage) :
    ∃ entries, decodeJson (.obj (member.payload clock usage)) = .map entries ∧
      entries.find? "serviceId" = some (.binary member.serviceId) ∧
      entries.find? "timestamp" = some (.binary (member.timestamp clock)) := by
  refine ⟨_, rfl, ?_, ?_⟩ <;>
    cases member <;> simp [Member.payload, decodeFields, find?_putEntry, decodeJson]

/-- A heartbeat of a member is stored under its id. -/
theorem structured_of_decodes {member : Member} {clock : Int} (h : InYears clock) (usage : Usage) :
    ∃ structured, structuredMessage (decodeJson (.obj (member.payload clock usage))) = .ok structured ∧
      structured.serviceId = .binary member.serviceId ∧
      structured.timestamp = .dateTime (member.instant clock) := by
  obtain ⟨entries, hentries, hid, htimestamp⟩ := find?_payload member clock usage
  rw [hentries]
  have hid' : (Term.map entries).access "serviceId" = .ok (.binary member.serviceId) := by
    rw [Term.access, hid, Option.getD_some]
  have htimestamp' : (Term.map entries).access "timestamp" =
      .ok (.binary (member.timestamp clock)) := by
    rw [Term.access, htimestamp, Option.getD_some]
  refine ⟨⟨.binary member.serviceId, .dateTime (member.instant clock), none,
    (entries.find? "stats").getD .nil, (entries.find? "data").getD .nil⟩, ?_, rfl, rfl⟩
  unfold structuredMessage
  rw [hid', htimestamp']
  show (DateTime.fromIso8601 (.binary (member.timestamp clock)) >>= fun timestamp => _) = _
  rw [fromIso8601_timestamp h member]
  rfl

/-- The monitor decodes what the language of the service has written. -/
theorem jasonDecode_body (member : Member) (clock : Int) (usage : Usage) :
    jasonDecode (member.body clock usage) = some (decodeJson (.obj (member.payload clock usage))) := by
  obtain ⟨hcpu, hmemory, huptime⟩ := usage.wellFormed
  have hwellFormed : (Json.obj (member.payload clock usage)).WellFormed := by
    cases member <;> simp [Member.payload, Json.WellFormed, Json.WellFormedFields, hcpu, hmemory, huptime]
  rw [jasonDecode, Member.body, String.toList_ofList, Json.read_write member.encoder hwellFormed,
    Option.map_some]

theorem monitor_heartbeat {member : Member} {clock : Int} {usage : Usage}
    (h : (MemberEvent.heartbeat member clock usage).InYears) (table : HeartbeatTable) :
    ∃ structured, (monitor jasonDecode).step table
        ((MemberEvent.heartbeat member clock usage).healthStep) = some (store table structured) ∧
      structured.serviceId = .binary member.serviceId ∧
      structured.timestamp = .dateTime (member.instant clock) := by
  obtain ⟨structured, hstructured, hid, htimestamp⟩ := structured_of_decodes h usage
  refine ⟨structured, ?_, hid, htimestamp⟩
  show some (heartbeatStep jasonDecode table _).2 = _
  rw [heartbeatStep_of_ok (jasonDecode_body member clock usage) hstructured]

theorem memberTable_step {event : MemberEvent} (hevent : event.InYears)
    {table table' : HeartbeatTable} (h : MemberTable table)
    (hstep : (monitor jasonDecode).step table (event.healthStep) = some table') :
    MemberTable table' := by
  cases event with
  | heartbeat member clock usage =>
      obtain ⟨structured, hstore, hid, htimestamp⟩ := monitor_heartbeat hevent table
      cases hstore.symm.trans hstep
      constructor
      · apply (sound_store_iff h.sound structured).mpr
        rw [hid, htimestamp]
        exact ⟨nofun, rfl⟩
      · intro id hmem
        obtain hold | rfl := mem_keys_store.mp hmem
        · exact h.ids id hold
        · exact ⟨member, hid⟩
  | pass now order =>
      cases hstep
      constructor
      · exact (sound_step jasonDecode table (.pass now order) _ h.sound rfl).mpr trivial
      · intro id hmem
        exact h.ids id ((mem_keys_passStep table now order id).mp hmem)

theorem memberTable_empty : MemberTable .empty where
  sound := nofun
  ids := nofun

/-- Each step of such a run is one of a member or a recalculation. -/
theorem published_meets {events : List MemberEvent}
    (hevents : ∀ event ∈ events, event.InYears) (table : HeartbeatTable) :
    (monitor jasonDecode).Meets
      (fun _ step => ∃ event : MemberEvent, event.InYears ∧ step = event.healthStep)
      table (events.map MemberEvent.healthStep) := by
  apply Machine.meets_of_labels
  intro step hstep
  obtain ⟨event, hevent, rfl⟩ := List.mem_map.mp hstep
  exact ⟨event, hevents event hevent, rfl⟩

theorem memberTable_run {events : List MemberEvent}
    (hevents : ∀ event ∈ events, event.InYears) {table table' : HeartbeatTable}
    (h : MemberTable table)
    (hrun : (monitor jasonDecode).run table (events.map MemberEvent.healthStep) = some table') :
    MemberTable table' := by
  apply Machine.invariant_of_meets _ h (published_meets hevents table) hrun
  rintro table step table' htable ⟨event, hevent, rfl⟩ hstep
  exact memberTable_step hevent htable hstep

/-! ### The last heartbeat -/

theorem serviceId_injective {member member' : Member} (h : member.serviceId = member'.serviceId) :
    member = member' := by
  cases member <;> cases member' <;> revert h <;> decide

theorem lookup_store_member {table : HeartbeatTable} {structured : ServiceStatus}
    {sender member : Member} (hid : structured.serviceId = .binary sender.serviceId)
    (hne : sender ≠ member) :
    HeartbeatTable.lookup (store table structured) (.binary member.serviceId) =
      HeartbeatTable.lookup table (.binary member.serviceId) := by
  rw [store, lookup_put, if_neg]
  rw [hid]
  intro heq
  exact hne (serviceId_injective (Term.binary.inj heq).symm)

/-- The record of a member has the timestamp of its last heartbeat. -/
theorem timestamp_of_run {events : List MemberEvent}
    (hevents : ∀ event ∈ events, event.InYears) {table : HeartbeatTable}
    (hrun : (monitor jasonDecode).run .empty (events.map MemberEvent.healthStep) = some table)
    {member : Member} {clock : Int} (hlast : lastClock member events.reverse = some clock) :
    ∃ state, HeartbeatTable.lookup table (.binary member.serviceId) = some state ∧
      state.timestamp = .dateTime (member.instant clock) := by
  induction events using List.reverseRecOn generalizing table with
  | nil => cases hlast
  | append_singleton events event ih =>
      rw [List.map_append, Machine.run_append] at hrun
      obtain ⟨before, hbefore, hstep⟩ := Option.bind_eq_some_iff.mp hrun
      obtain ⟨after, hstep, hafter⟩ := Option.bind_eq_some_iff.mp hstep
      cases hafter
      have hold : ∀ other ∈ events, other.InYears := fun other hother =>
        hevents other (List.mem_append_left _ hother)
      have hevent := hevents event (List.mem_append_right _ (List.mem_singleton_self event))
      rw [List.reverse_append] at hlast
      cases event with
      | heartbeat sender sent usage =>
          obtain ⟨structured, hstore, hid, htimestamp⟩ := monitor_heartbeat hevent before
          cases hstore.symm.trans hstep
          by_cases hsender : sender = member
          · subst hsender
            have hclock : some sent = some clock := by
              rw [← hlast]
              exact (if_pos rfl).symm
            cases hclock
            refine ⟨merge ((HeartbeatTable.lookup before structured.serviceId).getD defaultMessage)
              structured, ?_, htimestamp⟩
            rw [store, lookup_put, if_pos hid.symm]
          · rw [lookup_store_member hid hsender]
            apply ih hold hbefore
            rw [← hlast]
            exact (if_neg hsender).symm
      | pass now order =>
          cases hstep
          obtain ⟨state, hstate, htimestamp⟩ := ih hold hbefore hlast
          have hsound := (memberTable_run hold memberTable_empty hbefore).sound
          refine ⟨reclassify now state, ?_, ?_⟩
          · show HeartbeatTable.lookup (passStep before now order).2 _ = _
            rw [lookup_passStep (hsound.recalculates now), hstate]
            rfl
          · rw [timestamp_reclassify, htimestamp]

theorem seconds_instant (member : Member) (clock : Int) :
    (member.instant clock).micros / 1000000 = clock / 1000000 := by
  cases member with
  | bookService | mediaService =>
      simp only [Member.instant]
      split <;> rfl
  | userService =>
      show clock / 1000 * 1000 / 1000000 = _
      omega
  | reviewService =>
      show clock / 1000000 * 1000000 / 1000000 = _
      omega
  | authService => rfl

/-- After a recalculation the status of a member compares whole seconds of two clocks. -/
theorem state_of_pass {events : List MemberEvent} (hevents : ∀ event ∈ events, event.InYears)
    {now : DateTime} {order : List HeartbeatEntry} {table : HeartbeatTable}
    (hrun : (monitor jasonDecode).run .empty
      ((events ++ [MemberEvent.pass now order]).map MemberEvent.healthStep) = some table)
    {member : Member} {clock : Int} (hlast : lastClock member events.reverse = some clock) :
    ∃ state, HeartbeatTable.lookup table (.binary member.serviceId) = some state ∧
      state.timestamp = .dateTime (member.instant clock) ∧
      state.status = some (newStatus (now.micros / 1000000 - clock / 1000000)) := by
  rw [List.map_append, Machine.run_append] at hrun
  obtain ⟨before, hbefore, hstep⟩ := Option.bind_eq_some_iff.mp hrun
  cases hstep
  obtain ⟨state, hstate, htimestamp⟩ := timestamp_of_run hevents hbefore hlast
  have hsound := (memberTable_run hevents memberTable_empty hbefore).sound
  refine ⟨reclassify now state, ?_, ?_, ?_⟩
  · show HeartbeatTable.lookup (passStep before now order).2 _ = _
    rw [lookup_passStep (hsound.recalculates now), hstate]
    rfl
  · rw [timestamp_reclassify, htimestamp]
  · rw [reclassify_of_dateTime now htimestamp, DateTime.diff, seconds_instant]

/-- As long as only the members publish, with any clocks, and in any order with the recalculations. -/
theorem monitored {events : List MemberEvent}
    (hevents : ∀ event ∈ events, event.InYears) : Monitored events where
  always := by
    apply Machine.always_of_meets _ _ memberTable_empty (published_meets hevents .empty)
    · rintro table step table' htable ⟨event, hevent, rfl⟩ hstep
      exact memberTable_step hevent htable hstep
    · exact fun table h => h.reported
  shown now order table hrun member clock hlast := state_of_pass hevents hrun hlast

/-- A process that says nothing of itself. -/
def Usage.idle : Usage := ⟨.int 0, .int 0, .int 0, trivial, trivial, trivial⟩

theorem monitored_noon : Monitored [.heartbeat .reviewService 63934488000000000 .idle,
    .heartbeat .bookService 63934488000012345 .idle] := by
  apply monitored
  intro event hevent
  obtain rfl | hevent := List.mem_cons.mp hevent
  · exact ⟨by decide, by decide⟩
  · cases List.mem_singleton.mp hevent
    exact ⟨by decide, by decide⟩

/-! ### The timestamps of the report -/

/-- The report writes every instant as a text that is read as that instant. -/
def TimestampsReported (table : HeartbeatTable) : Prop :=
  ∀ entry ∈ table.docs, ∀ dt, entry.2.timestamp = .dateTime dt →
    ∃ text, entry.2.timestamp.encode = Jason.encodeString text ∧
      DateTime.fromIso8601 (.binary text) = .ok (some dt)

/-- The timestamp is no instant, or one that was read. -/
def WasRead (timestamp : Timestamp) : Prop :=
  ∀ dt, timestamp = .dateTime dt → ∃ term, DateTime.fromIso8601 term = .ok (some dt)

theorem wasRead_structured {decoded : Term} {structured : ServiceStatus}
    (h : structuredMessage decoded = .ok structured) : WasRead structured.timestamp := by
  intro dt hdt
  obtain ⟨id, -, h⟩ := bind_eq_ok_iff.mp h
  obtain ⟨term, -, h⟩ := bind_eq_ok_iff.mp h
  obtain ⟨parsed, hparsed, h⟩ := bind_eq_ok_iff.mp h
  obtain ⟨stats, -, h⟩ := bind_eq_ok_iff.mp h
  obtain ⟨data, -, h⟩ := bind_eq_ok_iff.mp h
  cases h
  cases parsed with
  | none => cases hdt
  | some found =>
      cases hdt
      exact ⟨term, hparsed⟩

/-- What a recalculation keeps of a record it keeps of every record, also when it raises. -/
theorem records_recalculateEach {good : ServiceStatus → Prop} {now : DateTime}
    (hreclassify : ∀ state, good state → good (reclassify now state))
    {entries order : List HeartbeatEntry} {table : HeartbeatTable}
    (hentries : ∀ entry ∈ entries, good entry.2) (htable : ∀ entry ∈ table.docs, good entry.2) :
    ∀ entry ∈ ((recalculateEach now entries).eval exec (fun _ => order) table).2.docs, good entry.2 := by
  induction entries generalizing table with
  | nil => exact htable
  | cons first rest ih =>
      rw [List.forall_mem_cons] at hentries
      rw [recalculateEach, Coroutine.eval_bind_const]
      by_cases h : Recalculates now first
      · obtain ⟨table', heval, htable'⟩ := eval_recalculateStatus_of_ok order table h
        rw [heval]
        apply ih hentries.2
        obtain rfl | ⟨rfl, -⟩ := htable'
        · intro entry hentry
          obtain ⟨hold, -⟩ | rfl := Collection.mem_put.mp hentry
          · exact htable entry hold
          · exact hreclassify first.2 hentries.1
        · exact htable
      · obtain ⟨err, heval⟩ := eval_recalculateStatus_of_not order table h
        rw [heval]
        exact htable

/-- What merges and recalculations keep of a record every step keeps of all records. -/
theorem records_step {jason : String → Option Term} {good : ServiceStatus → Prop}
    (hdefault : good defaultMessage)
    (hmerge : ∀ data decoded structured existing, jason data = some decoded →
      structuredMessage decoded = .ok structured → good existing → good (merge existing structured))
    (hreclassify : ∀ now state, good state → good (reclassify now state))
    {table table' : HeartbeatTable} {step : HealthStep} (h : ∀ entry ∈ table.docs, good entry.2)
    (hstep : (monitor jason).step table step = some table') : ∀ entry ∈ table'.docs, good entry.2 := by
  cases step with
  | heartbeat data =>
      cases hstep
      cases hdecoded : jason data with
      | none =>
          rw [heartbeatStep_of_none hdecoded]
          exact h
      | some decoded =>
          cases hstructured : structuredMessage decoded with
          | error err =>
              rw [heartbeatStep_of_error hdecoded hstructured]
              exact h
          | ok structured =>
              rw [heartbeatStep_of_ok hdecoded hstructured]
              intro entry hentry
              obtain ⟨hold, -⟩ | rfl := Collection.mem_put.mp hentry
              · exact h entry hold
              · apply hmerge data decoded structured _ hdecoded hstructured
                cases hexisting : HeartbeatTable.lookup table structured.serviceId with
                | none => exact hdefault
                | some existing =>
                    exact h (structured.serviceId, existing) (mem_docs_iff_lookup.mpr hexisting)
  | pass now order =>
      cases hstep
      show ∀ entry ∈ (passStep table now order).2.docs, _
      rw [passStep_eq]
      apply records_recalculateEach (hreclassify now) _ h
      intro entry hentry
      exact h entry ((tab2list_perm table order).mem_iff.mp hentry)

theorem wasRead_step {jason : String → Option Term} {table table' : HeartbeatTable} {step : HealthStep}
    (h : ∀ entry ∈ table.docs, WasRead entry.2.timestamp)
    (hstep : (monitor jason).step table step = some table') :
    ∀ entry ∈ table'.docs, WasRead entry.2.timestamp := by
  apply @records_step _ (fun state => WasRead state.timestamp) nofun _ _ _ _ _ h hstep
  · intro data decoded structured existing _ hstructured _
    show WasRead structured.timestamp
    exact wasRead_structured hstructured
  · intro now state hstate
    rw [timestamp_reclassify]
    exact hstate

/-- Whatever bodies come in, and in every state: what the report says of a time is what was said. -/
theorem always_timestampsReported (jason : String → Option Term) (steps : List HealthStep) :
    (monitor jason).Always TimestampsReported .empty steps := by
  apply @Machine.always_of_meets _ _ _ (fun _ _ => True)
    fun table => ∀ entry ∈ table.docs, WasRead entry.2.timestamp
  · exact fun table step table' h _ hstep => wasRead_step h hstep
  · intro table h entry hentry dt hdt
    obtain ⟨term, hterm⟩ := h entry hentry dt hdt
    refine ⟨dt.toIso8601, ?_, DateTime.fromIso8601_toIso8601 hterm⟩
    rw [hdt]
    rfl
  · exact nofun
  · exact Machine.meets_of_forall (fun _ _ => trivial) _ steps

end BookHub.HealthMonitor
