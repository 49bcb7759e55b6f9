import BookHub.ApiGateway.Forwarding

/-!
# The internal endpoints behind the gateway

The services keep endpoints for each other under `/internal/`. The gateway looks at the first segment
of a path only, so whatever follows the key of a route is asked of that service, internal endpoints
included. Each service reads the path that it is sent in its own way: it decodes escapes before it
routes or does not, those of slashes too or not, it cleans the path or does not, and letter case counts
or does not.
-/

namespace BookHub.ApiGateway

/-! ### What a service makes of a path -/

/-- The frameworks of the services: users, auth, books and media, reviews, health monitor. -/
inductive Receiver where
  | express
  | aspNetCore
  | uvicorn
  | gorillaMux
  | plug
  deriving DecidableEq, Repr

namespace Receiver

/-- An escaped slash separates segments. -/
def decodesSlashes : Receiver → Bool
  | .uvicorn | .gorillaMux => true
  | .express | .aspNetCore | .plug => false

/-- Routes match in any letter case. -/
def ignoresCase : Receiver → Bool
  | .express | .aspNetCore => true
  | .uvicorn | .gorillaMux | .plug => false

/-- The segments that are matched with the routes: as they are written, decoded but for the slash,
decoded one by one, or those of the decoded path. -/
def segments : Receiver → List Char → List (List UInt8)
  | .express, path => (path.splitOn '/').map Utf8.encode
  | .aspNetCore, path => ((Uri.decodePath path).splitOn '/').map Utf8.encode
  | .plug, path => (path.splitOn '/').map Uri.octets
  | .uvicorn, path | .gorillaMux, path => (Uri.octets path).splitOn 47

def fold (receiver : Receiver) (byte : UInt8) : UInt8 :=
  if receiver.ignoresCase && 65 ≤ byte && byte ≤ 90 then byte + 32 else byte

/-- Go's `path.Clean` on segments, the last one first so far. -/
def cleanStep (before : List (List UInt8)) (segment : List UInt8) : List (List UInt8) :=
  if segment = [] ∨ segment = [46] then before
  else if segment = [46, 46] then before.tail
  else segment :: before

/-- The clean path that gorilla/mux sends its client to; a slash at its end stays. -/
def cleanPath (segments : List (List UInt8)) : List (List UInt8) :=
  let clean := (segments.foldl cleanStep []).reverse
  if clean ≠ [] ∧ segments.getLast? = some [] then clean ++ [[]] else clean

/-- What is matched in the end: gorilla/mux redirects to the clean path, which HttpClient follows, and
for Plug a path does not begin with empty segments. -/
def cleaned : Receiver → List (List UInt8) → List (List UInt8)
  | .gorillaMux, segments => cleanPath segments
  | .plug, segments => segments.dropWhile List.isEmpty
  | .express, segments | .aspNetCore, segments | .uvicorn, segments => segments

/-- The first segment is `internal` and another one follows. -/
def namesInternal (receiver : Receiver) : List (List UInt8) → Bool
  | first :: _ :: _ => first.map receiver.fold == Utf8.encode "internal".toList
  | _ => false

/-- The path lies under `/internal/`. -/
def underInternal (receiver : Receiver) (path : List Char) : Bool :=
  match receiver.segments path with
  | [] :: segments => receiver.namesInternal (receiver.cleaned segments)
  | _ => false

example : [express, aspNetCore, uvicorn, gorillaMux, plug].map (fun receiver =>
      ["/internal/snapshot", "/INTERNAL/snapshot", "/internal%2Fsnapshot", "//internal/snapshot",
        "/x%2F..%2Finternal/snapshot"].map (receiver.underInternal ∘ String.toList)) =
    [[true, true, false, false, false], [true, true, false, false, false],
      [true, false, true, false, false], [true, false, true, true, true],
      [true, false, false, true, false]] := by decide

/-! ### Spellings of `internal` -/

/-- The segment is `internal`, in any letter case where that does not count. -/
def Spells (receiver : Receiver) (bytes : List UInt8) : Prop :=
  bytes.map receiver.fold = Utf8.encode "internal".toList

theorem plain_of_spells {receiver : Receiver} {bytes : List UInt8} (h : receiver.Spells bytes) :
    ∃ word : List Char, word.all Uri.isUnreserved = true ∧ bytes = Utf8.encode word := by
  have hall : ((List.range 256).all fun n =>
      !(Utf8.encode "internal".toList).contains (receiver.fold (UInt8.ofNat n)) ||
        (Uri.isUnreserved (Char.ofNat n) && Utf8.encodeChar (Char.ofNat n) == [UInt8.ofNat n])) =
          true := by
    cases receiver <;> decide +kernel
  have hbyte : ∀ byte ∈ bytes, Uri.isUnreserved (Char.ofNat byte.toNat) = true ∧
      Utf8.encodeChar (Char.ofNat byte.toNat) = [byte] := by
    intro byte hmem
    have hn := List.all_eq_true.mp hall byte.toNat (List.mem_range.mpr (UInt8.toNat_lt byte))
    have hfold : receiver.fold byte ∈ Utf8.encode "internal".toList := by
      rw [← h]
      exact List.mem_map_of_mem hmem
    rw [UInt8.ofNat_toNat, List.contains_iff_mem.mpr hfold, Bool.not_true, Bool.false_or,
      Bool.and_eq_true, beq_iff_eq] at hn
    exact hn
  refine ⟨bytes.map fun byte => Char.ofNat byte.toNat, ?_, ?_⟩
  · rw [List.all_map, List.all_eq_true]
    intro byte hmem
    exact (hbyte byte hmem).1
  · rw [Utf8.encode, List.flatMap_map]
    clear h
    induction bytes with
    | nil => rfl
    | cons byte rest ih =>
        obtain ⟨hfirst, hrest⟩ := List.forall_mem_cons.mp hbyte
        rw [List.flatMap_cons, hfirst.2, ← ih hrest]
        rfl

theorem namesInternal_map_congr {receiver : Receiver} {f g : List Char → List UInt8}
    {segments : List (List Char)}
    (h : ∀ segment ∈ segments, (receiver.Spells (f segment) ↔ receiver.Spells (g segment))) :
    receiver.namesInternal (segments.map f) = receiver.namesInternal (segments.map g) := by
  match segments with
  | [] => rfl
  | [_] => rfl
  | first :: _ :: _ =>
      rw [Bool.eq_iff_iff]
      exact beq_iff_eq.trans ((h first List.mem_cons_self).trans beq_iff_eq.symm)

/-- A canonical segment that is matched as it is written. -/
theorem spells_written_iff {receiver : Receiver} (segment : List Char) :
    receiver.Spells (Utf8.encode (Uri.canonicalSegment segment)) ↔
      receiver.Spells (Uri.octets segment) := by
  constructor
  · intro h
    obtain ⟨word, hword, hencode⟩ := plain_of_spells h
    have hsame : Uri.canonicalSegment segment = word := by
      rw [← Utf8.decode_encode (Uri.canonicalSegment segment), hencode, Utf8.decode_encode]
    rw [hencode] at h
    rwa [(Uri.canonicalSegment_eq_iff hword).mp hsame]
  · intro h
    obtain ⟨word, hword, hencode⟩ := plain_of_spells h
    rw [hencode] at h
    rwa [(Uri.canonicalSegment_eq_iff hword).mpr hencode]

/-- A segment that is matched decoded. -/
theorem spells_decoded_iff {receiver : Receiver} (segment : List Char) :
    receiver.Spells (Utf8.encode (Uri.decodePath segment)) ↔ receiver.Spells (Uri.octets segment) := by
  constructor
  · intro h
    obtain ⟨word, hword, hencode⟩ := plain_of_spells h
    have hsame : Uri.decodePath segment = word := by
      rw [← Utf8.decode_encode (Uri.decodePath segment), hencode, Utf8.decode_encode]
    rw [hencode] at h
    rwa [(Uri.decodePath_eq_iff hword segment).mp hsame]
  · intro h
    obtain ⟨word, hword, hencode⟩ := plain_of_spells h
    rw [hencode] at h
    rwa [(Uri.decodePath_eq_iff hword segment).mpr hencode]

/-! ### Canonical paths under `/internal/` -/

theorem octets_intercalate (segments : List (List Char)) :
    Uri.octets (List.intercalate ['/'] segments) = List.intercalate [47] (segments.map Uri.octets) := by
  induction segments with
  | nil => rfl
  | cons first others ih =>
      cases others with
      | nil => rw [List.map_singleton, List.intercalate_singleton, List.intercalate_singleton]
      | cons second rest =>
          have hmap : (first :: second :: rest).map Uri.octets =
              Uri.octets first :: Uri.octets second :: rest.map Uri.octets := rfl
          rw [hmap, List.intercalate_cons_cons, List.intercalate_cons_cons, List.append_assoc,
            List.append_assoc, List.singleton_append, Uri.octets_append (by decide),
            Uri.octets_cons_of_ne (by decide), ih]
          rfl

theorem splitOn_intercalate_bytes {segments : List (List UInt8)} (h : segments ≠ []) :
    (List.intercalate [47] segments).splitOn 47 = segments.flatMap (·.splitOn 47) := by
  induction segments with
  | nil => exact absurd rfl h
  | cons first others ih =>
      cases others with
      | nil => rw [List.intercalate_singleton, List.flatMap_singleton]
      | cons second rest =>
          rw [List.intercalate_cons_cons, List.append_assoc, List.singleton_append,
            List.splitOn_append_cons_self, ih (List.cons_ne_nil _ _)]
          rfl

/-- What the receiver makes of segments that stand for these bytes. -/
def pieces (receiver : Receiver) (segments : List (List UInt8)) : List (List UInt8) :=
  receiver.cleaned (if receiver.decodesSlashes then segments.flatMap (·.splitOn 47) else segments)

/-- Which bytes its segments stand for decides whether a canonical path lies under `/internal/`. -/
theorem underInternal_eq (receiver : Receiver) {segments : List (List Char)}
    (hcanonical : ∀ segment ∈ segments, ∃ written, Uri.canonicalSegment written = segment)
    (hslash : ∀ segment ∈ segments, '/' ∉ segment) :
    receiver.underInternal ('/' :: List.intercalate ['/'] segments) =
      receiver.namesInternal (receiver.pieces (segments.map Uri.octets)) := by
  cases hsegments : segments with
  | nil => cases receiver <;> decide
  | cons first others =>
      have hne : segments ≠ [] := by
        rw [hsegments]
        exact List.cons_ne_nil _ _
      rw [← hsegments]
      have hsplit : ('/' :: List.intercalate ['/'] segments).splitOn '/' = [] :: segments := by
        rw [← List.nil_append ('/' :: _), List.splitOn_append_cons_self_of_not_mem List.not_mem_nil,
          List.splitOn_intercalate '/' hslash hne]
      have hbytes : (Uri.octets ('/' :: List.intercalate ['/'] segments)).splitOn 47 =
          [] :: (segments.map Uri.octets).flatMap (·.splitOn 47) := by
        rw [Uri.octets_cons_of_ne (by decide), octets_intercalate,
          ← splitOn_intercalate_bytes (by rwa [ne_eq, List.map_eq_nil_iff])]
        have hnone : (47 : UInt8) ∉ [] := List.not_mem_nil
        exact List.splitOn_append_cons_self_of_not_mem hnone _
      unfold underInternal Receiver.segments pieces
      cases receiver with
      | express =>
          dsimp only [decodesSlashes]
          rw [hsplit]
          apply namesInternal_map_congr
          intro segment hsegment
          obtain ⟨written, rfl⟩ := hcanonical segment hsegment
          rw [Uri.octets_canonicalSegment]
          exact spells_written_iff written
      | aspNetCore =>
          dsimp only [decodesSlashes]
          rw [Uri.splitOn_decodePath, hsplit, List.map_map]
          exact namesInternal_map_congr fun segment _ => spells_decoded_iff segment
      | plug =>
          dsimp only [decodesSlashes]
          rw [hsplit]
          rfl
      | uvicorn =>
          dsimp only [decodesSlashes]
          rw [hbytes]
          rfl
      | gorillaMux =>
          dsimp only [decodesSlashes]
          rw [hbytes]
          rfl

end Receiver

/-! ### Internal endpoints are reached through the gateway -/

/-- What the request names behind the key of its route: no blanks at the end of the URL, and nothing from
a question mark or a hash on. -/
def namedPath (request : HttpRequest) (key : List Char) : List Char :=
  let rest := restOfPath request.path key
  (if request.queryString.value = [] then Uri.trimEnd rest else rest).takeWhile fun c => !Uri.endsPath c

/-- The bytes that its segments stand for, with the segments that are dots resolved. -/
def namedSegments (request : HttpRequest) (key : List Char) : List (List UInt8) :=
  Uri.resolve 46 [] ((((namedPath request key).drop 1).splitOnP Uri.isSlash).map Uri.octets)

/-- The request names a configured route, and `/internal/` behind it in the reading of the service
there, and can be built anew. -/
def ReachesInternal (receiver : List Char → Receiver) (framework : Framework) (routes : Routes)
    (request : HttpRequest) : Prop :=
  ∃ key baseUrl, routeKey request.path = .ok key ∧ routes.find? key = some baseUrl ∧
    (receiver baseUrl.authority).namesInternal
      ((receiver baseUrl.authority).pieces (namedSegments request key)) = true ∧
    isToken request.method = true ∧
    baseUrl.text.length + (restOfPath request.path key).length + request.queryString.value.length ≤
      65519 ∧
    ContentFits framework request

theorem takeWhile_forwardTarget (request : HttpRequest) (key : List Char) :
    (Uri.trimEnd (forwardTarget request key)).takeWhile (fun c => !Uri.endsPath c) =
      namedPath request key := by
  unfold forwardTarget namedPath
  dsimp only
  obtain hnil | hmark := request.queryString.marked
  · rw [hnil, List.append_nil, if_pos rfl]
  · obtain ⟨query, hquery⟩ := List.head?_eq_some_iff.mp hmark
    have hsplit : ∀ rest : List Char, rest ++ '?' :: query = (rest ++ ['?']) ++ query := by
      intro rest
      rw [List.append_assoc, List.singleton_append]
    have hlast : ∀ rest : List Char, (rest ++ ['?']).getLast? = some '?' := fun rest =>
      List.getLast?_concat
    rw [hquery, if_neg (List.cons_ne_nil _ _), hsplit, Uri.trimEnd_append (hlast _) (by decide),
      List.append_assoc, Uri.takeWhile_target (.inr rfl)]

/-- The canonical path that is sent has the segments that are named. -/
theorem map_octets_forward (request : HttpRequest) (key : List Char) :
    (Uri.pathSegments (Uri.trimEnd (forwardTarget request key))).map Uri.octets =
      namedSegments request key := by
  unfold Uri.pathSegments namedSegments
  dsimp only
  rw [takeWhile_forwardTarget, Uri.map_octets_resolve]
  rfl

/-- The request that is sent lies under `/internal/`, as the service that it is sent to reads it, exactly
where the client names that path behind the key of a route. -/
theorem no_internal_iff (receiver : List Char → Receiver) (framework : Framework) (routes : Routes)
    (request : HttpRequest) :
    (∀ message, forwardRequestAsync framework routes request = .ok (.send message) →
      (receiver message.requestUri.authority).underInternal message.requestUri.path = false) ↔
      ¬ ReachesInternal receiver framework routes request := by
  have hunder : ∀ {key baseUrl uri}, routeKey request.path = .ok key →
      Uri.parse? (BaseUrl.text baseUrl ++ forwardTarget request key) = some uri →
      (receiver uri.authority).underInternal uri.path =
        (receiver baseUrl.authority).namesInternal
          ((receiver baseUrl.authority).pieces (namedSegments request key)) := by
    intro key baseUrl uri hkey huri
    have hsegments := segments_forward hkey huri
    rw [authority_forward hkey huri, ← map_octets_forward, ← hsegments]
    apply Receiver.underInternal_eq
    · intro segment hsegment
      rw [hsegments] at hsegment
      exact Uri.canonical_of_mem_pathSegments hsegment
    · intro segment hsegment
      rw [hsegments] at hsegment
      exact Uri.slash_not_mem_pathSegments hsegment
  have hlength : ∀ {key baseUrl}, (BaseUrl.text baseUrl ++ forwardTarget request key).length =
      baseUrl.text.length + (restOfPath request.path key).length +
        request.queryString.value.length := by
    intro key baseUrl
    rw [List.length_append, forwardTarget, List.length_append, Nat.add_assoc]
  constructor
  · intro hnone ⟨key, baseUrl, hkey, hroute, hnames, htoken, hshort, hfits⟩
    obtain ⟨content, hcontent⟩ := buildContent_ok_iff.mpr hfits
    rw [← hlength] at hshort
    have huri := (parse?_forward hkey).mpr ⟨hshort, rfl⟩
    have hsend := forwardRequestAsync_send_iff.mpr
      ⟨key, baseUrl, content, _, hkey, hroute, htoken, huri, hcontent, rfl⟩
    have hout := hnone _ hsend
    rw [hunder hkey huri, hnames] at hout
    cases hout
  · intro hno message hsend
    obtain ⟨key, baseUrl, content, uri, hkey, hroute, htoken, huri, hcontent, rfl⟩ :=
      forwardRequestAsync_send_iff.mp hsend
    rw [Bool.eq_false_iff]
    intro hinternal
    have hshort := ((parse?_forward hkey).mp huri).1
    rw [hlength] at hshort
    rw [hunder hkey huri] at hinternal
    exact hno ⟨key, baseUrl, hkey, hroute, hinternal, htoken, hshort,
      buildContent_ok_iff.mp ⟨content, hcontent⟩⟩

/-- What serves the routes of the configuration. -/
def services (authority : List Char) : Receiver :=
  if authority = "bookhub-auth-service:8001".toList then .aspNetCore
  else if authority = "bookhub-user-service:8002".toList then .express
  else if authority = "bookhub-review-service:8004".toList then .gorillaMux
  else if authority = "bookhub-health-monitor-service:8010".toList then .plug
  else .uvicorn

/-- `POST /users/internal/verify` with credentials. -/
def verifyRequest : HttpRequest where
  method := "POST".toList
  path := some ⟨"/users/internal/verify".toList, .inr rfl⟩
  queryString := .empty
  contentType := some "application/json".toList
  headers := []
  body := "\x7b\"email\":\"ana@books.org\",\"password\":\"meadow\"\x7d".toList.map fun c =>
    UInt8.ofNat c.toNat

theorem not_no_internal :
    ¬ ∀ framework routes request message,
      forwardRequestAsync framework routes request = .ok (.send message) →
      (services message.requestUri.authority).underInternal message.requestUri.path = false := by
  intro h
  let uri : Uri := ⟨"bookhub-user-service:8002".toList, ["internal".toList, "verify".toList], []⟩
  have hsend : forwardRequestAsync plainFramework appsettings verifyRequest =
      .ok (.send ⟨verifyRequest.method, uri,
        .string (plainFramework.readToEnd verifyRequest.body) "application/json".toList, []⟩) := by
    rfl
  have hunder : (services uri.authority).underInternal uri.path = false := h _ _ _ _ hsend
  exact absurd hunder (by decide)

end BookHub.ApiGateway
