import BookHub.ApiGateway.Routing

/-!
# What the gateway sends

A request that is sent has its target behind the authority of the route's base URL. Where the route,
the URL and the method are in order, sending depends on the content alone.
-/

namespace BookHub.ApiGateway

/-! ### The target of a forwarded request -/

/-- What follows the key of the route, with the query. -/
def forwardTarget (request : HttpRequest) (key : List Char) : List Char :=
  restOfPath request.path key ++ request.queryString.value

theorem routeKey_slash {path : Option PathString} {key : List Char} (h : routeKey path = .ok key) :
    ∀ c ∈ (restOfPath path key).head?, c = '/' := by
  intro c hc
  cases path with
  | none => cases hc
  | some path =>
      unfold routeKey at h
      dsimp only at h
      split at h
      · rename_i first key' others hsplit
        cases h
        have hvalue : List.intercalate ['/'] (path.value.splitOn '/') = path.value :=
          List.intercalate_splitOn '/'
        rw [hsplit, List.intercalate_cons_cons, List.append_assoc, List.singleton_append] at hvalue
        -- a rooted path has nothing before its first slash
        have hfirst : first = [] := by
          cases first with
          | nil => rfl
          | cons c' first =>
              obtain hnil | hslash := path.rooted
              · rw [hnil] at hvalue
                cases hvalue
              · rw [← hvalue] at hslash
                cases hslash
                have hmem : ('/' :: first) ∈ path.value.splitOnP (· == '/') := by
                  show _ ∈ path.value.splitOn '/'
                  rw [hsplit]
                  exact List.mem_cons_self
                have hno := not_of_mem_splitOnP _ hmem '/' List.mem_cons_self
                exact absurd hno (by decide)
        have hrest : restOfPath (some path) key =
            (List.intercalate ['/'] (key :: others)).drop key.length := by
          show path.value.drop (key.length + 1) = _
          rw [← hvalue, hfirst]
          rfl
        rw [hrest] at hc
        cases others with
        | nil =>
            rw [List.intercalate_singleton, List.drop_length] at hc
            cases hc
        | cons second others =>
            rw [List.intercalate_cons_cons, List.append_assoc, List.drop_left] at hc
            cases hc
            rfl
      · cases h

theorem endsAuthority_forwardTarget {request : HttpRequest} {key : List Char}
    (hkey : routeKey request.path = .ok key) :
    ∀ c ∈ (forwardTarget request key).head?, Uri.endsAuthority c = true := by
  intro c hc
  unfold forwardTarget at hc
  cases hrest : restOfPath request.path key with
  | nil =>
      rw [hrest, List.nil_append] at hc
      obtain hnil | hmark := request.queryString.marked
      · rw [hnil] at hc
        cases hc
      · rw [hmark] at hc
        cases hc
        rfl
  | cons slash rest =>
      rw [hrest] at hc
      have hslash := routeKey_slash hkey slash (by rw [hrest]; rfl)
      cases hc
      rw [hslash]
      rfl

theorem forwardRequestAsync_send_iff {framework : Framework} {routes : Routes} {request : HttpRequest}
    {message : HttpRequestMessage} :
    forwardRequestAsync framework routes request = .ok (.send message) ↔
      ∃ key baseUrl content uri, routeKey request.path = .ok key ∧ routes.find? key = some baseUrl ∧
        isToken request.method = true ∧
        Uri.parse? (baseUrl.text ++ forwardTarget request key) = some uri ∧
        buildContent framework request = .ok content ∧
        ⟨request.method, uri, content, forwardHeaders framework request⟩ = message := by
  unfold forwardRequestAsync forwardTarget
  rw [bind_eq_ok_iff]
  constructor
  · intro ⟨key, hkey, h⟩
    cases hroute : routes.find? key with
    | none =>
        rw [hroute] at h
        cases h
    | some baseUrl =>
        rw [hroute] at h
        dsimp only at h
        rw [guard_eq_ok_iff, guard_eq_ok_iff, Bool.not_eq_false', List.append_assoc] at h
        obtain ⟨-, htoken, h⟩ := h
        cases huri : Uri.parse? (baseUrl.text ++ (restOfPath request.path key ++ request.queryString.value))
          with
        | none =>
            rw [huri] at h
            cases h
        | some uri =>
            rw [huri] at h
            obtain ⟨content, hcontent, h⟩ := bind_eq_ok_iff.mp h
            cases h
            exact ⟨key, baseUrl, content, uri, hkey, hroute, htoken, huri, hcontent, rfl⟩
  · intro ⟨key, baseUrl, content, uri, hkey, hroute, htoken, huri, hcontent, hmessage⟩
    refine ⟨key, hkey, ?_⟩
    rw [hroute]
    dsimp only
    rw [guard_eq_ok_iff, guard_eq_ok_iff, Bool.not_eq_false', List.append_assoc, huri]
    refine ⟨isNullOrWhiteSpace_of_isToken htoken, htoken, bind_eq_ok_iff.mpr ⟨content, hcontent, ?_⟩⟩
    rw [hmessage]
    rfl

/-- The URL of a configured route and a target, as the platform reads it. -/
theorem parse?_forward {request : HttpRequest} {key : List Char}
    (hkey : routeKey request.path = .ok key)
    {baseUrl : BaseUrl} {uri : Uri} :
    Uri.parse? (baseUrl.text ++ forwardTarget request key) = some uri ↔
      (baseUrl.text ++ forwardTarget request key).length ≤ 65519 ∧
        Uri.ofRest (baseUrl.authority ++ Uri.trimEnd (forwardTarget request key)) = uri :=
  Uri.parse?_http baseUrl.nonempty baseUrl.plain (endsAuthority_forwardTarget hkey)

theorem authority_forward {request : HttpRequest} {key : List Char}
    (hkey : routeKey request.path = .ok key)
    {baseUrl : BaseUrl} {uri : Uri}
    (huri : Uri.parse? (baseUrl.text ++ forwardTarget request key) = some uri) :
    uri.authority = baseUrl.authority := by
  obtain ⟨-, rfl⟩ := (parse?_forward hkey).mp huri
  have htrim := Uri.endsAuthority_trimEnd (endsAuthority_forwardTarget hkey)
  exact (Uri.ofRest_append baseUrl.plain htrim).1

theorem segments_forward {request : HttpRequest} {key : List Char}
    (hkey : routeKey request.path = .ok key)
    {baseUrl : BaseUrl} {uri : Uri}
    (huri : Uri.parse? (baseUrl.text ++ forwardTarget request key) = some uri) :
    uri.segments = Uri.pathSegments (Uri.trimEnd (forwardTarget request key)) := by
  obtain ⟨-, rfl⟩ := (parse?_forward hkey).mp huri
  have htrim := Uri.endsAuthority_trimEnd (endsAuthority_forwardTarget hkey)
  exact (Uri.ofRest_append baseUrl.plain htrim).2

/-- The request names a configured route that gives it a URL, and its method can be sent. -/
def Routed (routes : Routes) (request : HttpRequest) : Prop :=
  ∃ key baseUrl uri, routeKey request.path = .ok key ∧ routes.find? key = some baseUrl ∧
    isToken request.method = true ∧
    Uri.parse? (baseUrl.text ++ forwardTarget request key) = some uri

/-- A routed request is sent with the content that is built for it. -/
theorem sends_iff {routes : Routes} {request : HttpRequest} (hrouted : Routed routes request)
    {framework : Framework} {P : HttpContent → Prop} :
    (∃ message, forwardRequestAsync framework routes request = .ok (.send message) ∧
        P message.content) ↔
      ∃ content, buildContent framework request = .ok content ∧ P content := by
  constructor
  · intro ⟨message, hsend, hcontent⟩
    obtain ⟨_, _, content, _, _, _, _, _, hbuild, rfl⟩ := forwardRequestAsync_send_iff.mp hsend
    exact ⟨content, hbuild, hcontent⟩
  · intro ⟨content, hbuild, hcontent⟩
    obtain ⟨key, baseUrl, uri, hkey, hroute, hmethod, huri⟩ := hrouted
    exact ⟨_, forwardRequestAsync_send_iff.mpr
      ⟨key, baseUrl, content, uri, hkey, hroute, hmethod, huri, hbuild, rfl⟩, hcontent⟩

/-! ### The configuration -/

/-- The routes of `appsettings.json` on the hosts of `appsettings.Docker.json`. -/
def appsettings : Routes where
  entries :=
    [("auth".toList, ⟨"bookhub-auth-service:8001".toList, by decide, by decide⟩),
      ("users".toList, ⟨"bookhub-user-service:8002".toList, by decide, by decide⟩),
      ("books".toList, ⟨"bookhub-book-service:8003".toList, by decide, by decide⟩),
      ("reviews".toList, ⟨"bookhub-review-service:8004".toList, by decide, by decide⟩),
      ("hms".toList, ⟨"bookhub-health-monitor-service:8010".toList, by decide, by decide⟩),
      ("media".toList, ⟨"bookhub-media-service:8011".toList, by decide, by decide⟩)]

/-- A framework for bodies of plain characters and no form. -/
def plainFramework : Framework where
  readToEnd := List.map fun byte => Char.ofNat byte.toNat
  readForm := fun _ => .error .invalidDataException
  isRequestHeader := fun _ => true

end BookHub.ApiGateway
