import BookHub.ApiGateway.Forwarding

/-!
# The resource that is asked for

The server has decoded the path of a request before the gateway puts it, as it is then, behind the
base URL of its route. The URL is parsed again, by the gateway's client and by the service behind it,
and what was an escape may mean something else by then. The query was never decoded, but the parser makes
it canonical.
-/

namespace BookHub.ApiGateway

/-! ### Targets -/

/-- A target `/key/path?query`; the query has its question mark, and no blank or hash stands in it. -/
structure RequestTarget where
  key : List Char
  path : List Char
  query : List Char
  keyPlain : '/' ∉ key ∧ '?' ∉ key
  pathPlain : '?' ∉ path
  queryMarked : query = [] ∨ query.head? = some '?'
  queryPlain : ∀ c ∈ query, Uri.isBlank c = false ∧ c ≠ '#'

/-- `Request.Path` -/
def RequestTarget.pathString (target : RequestTarget) : PathString where
  value := Uri.decodePath ('/' :: target.key ++ '/' :: target.path)
  rooted := by
    right
    rw [List.cons_append, Uri.decodePath_of_none (Uri.escapedChar?_of_ne (by decide) _)]
    rfl

/-- `Request.QueryString` -/
def RequestTarget.queryString (target : RequestTarget) : QueryString where
  value := target.query
  marked := target.queryMarked

/-- The URL is on the host of the route and has the segments of the path and the query of the target. -/
def Reaches (baseUrl : BaseUrl) (target : RequestTarget) (uri : Uri) : Prop :=
  uri.authority = baseUrl.authority ∧
    uri.segments.map Uri.octets = (target.path.splitOn '/').map Uri.octets ∧
    uri.query = target.query

/-- Decoding and parsing again leave the target what it was. -/
structure RequestTarget.Kept (target : RequestTarget) (baseUrl : BaseUrl) : Prop where
  short : (baseUrl.text ++ '/' :: (Uri.decodePath target.path ++ target.query)).length ≤ 65519
  /-- No escape of a question mark, a hash or a backslash. -/
  plain : '?' ∉ Uri.decodePath target.path ∧ '#' ∉ Uri.decodePath target.path ∧
    '\\' ∉ Uri.decodePath target.path
  /-- No blank at the end of the URL. -/
  blank : target.query = [] → ∀ c ∈ (Uri.decodePath target.path).getLast?, Uri.isBlank c = false
  /-- No escape of a percent sign in front of two digits, and no dots alone. -/
  once : ∀ segment ∈ target.path.splitOn '/',
    Uri.hidesEscape segment = false ∧ Uri.octets segment ≠ [46] ∧ Uri.octets segment ≠ [46, 46]
  /-- In the query no escape of an unreserved character, nothing that may not stand there, and capital
  digits in the escapes of characters where the URL is written anew. -/
  query : Uri.isCanonicalQuery (Uri.isWrittenAnew
    (baseUrl.authority ++ '/' :: (Uri.decodePath target.path ++ target.query))) 0 target.query = true

/-! ### The URL that is built -/

theorem RequestTarget.pathString_value (target : RequestTarget) :
    target.pathString.value =
      '/' :: (Uri.decodePath target.key ++ '/' :: Uri.decodePath target.path) := by
  show Uri.decodePath ('/' :: target.key ++ '/' :: target.path) = _
  rw [Uri.decodePath_append_slash, Uri.decodePath_of_none (Uri.escapedChar?_of_ne (by decide) _)]
  rfl

theorem RequestTarget.slash_not_mem_key (target : RequestTarget) :
    '/' ∉ Uri.decodePath target.key :=
  Uri.slash_not_mem_decodePath target.keyPlain.1

theorem routeKey_target (target : RequestTarget) :
    routeKey (some target.pathString) = .ok (Uri.decodePath target.key) := by
  unfold routeKey
  dsimp only
  rw [target.pathString_value, ← List.nil_append ('/' :: _),
    List.splitOn_append_cons_self_of_not_mem List.not_mem_nil,
    List.splitOn_append_cons_self_of_not_mem target.slash_not_mem_key]

theorem forwardTarget_target {request : HttpRequest} {target : RequestTarget}
    (hpath : request.path = some target.pathString)
    (hquery : request.queryString = target.queryString) :
    forwardTarget request (Uri.decodePath target.key) =
      '/' :: (Uri.decodePath target.path ++ target.query) := by
  rw [forwardTarget, hpath, hquery]
  show target.pathString.value.drop _ ++ target.query = _
  rw [target.pathString_value, List.drop_succ_cons, List.drop_left]
  rfl

/-- A URL with this target ends in no blank. -/
theorem RequestTarget.blank_free {target : RequestTarget}
    (hblank : target.query = [] → ∀ c ∈ (Uri.decodePath target.path).getLast?, Uri.isBlank c = false) :
    ∀ c ∈ ('/' :: (Uri.decodePath target.path ++ target.query)).getLast?, Uri.isBlank c = false := by
  intro c hc
  rw [← List.cons_append, List.getLast?_append] at hc
  cases hlast : target.query.getLast? with
  | some last =>
      rw [hlast, Option.some_or] at hc
      cases hc
      exact (target.queryPlain _ (List.mem_of_getLast? hlast)).1
  | none =>
      rw [hlast, Option.none_or, List.getLast?_cons] at hc
      cases hpath : (Uri.decodePath target.path).getLast? with
      | some last =>
          rw [hpath] at hc
          cases hc
          exact hblank (List.getLast?_eq_none_iff.mp hlast) _ hpath
      | none =>
          rw [hpath] at hc
          cases hc
          rfl

/-- A request reaches the resource of its target exactly where decoding and parsing again leave the
target what it was. -/
theorem reaches_target_iff (framework : Framework) (routes : Routes) (request : HttpRequest)
    (target : RequestTarget) (baseUrl : BaseUrl) (content : HttpContent)
    (hpath : request.path = some target.pathString) (hquery : request.queryString = target.queryString)
    (hroute : routes.find? (Uri.decodePath target.key) = some baseUrl)
    (hmethod : isToken request.method = true) (hbuild : buildContent framework request = .ok content) :
    (∃ message, forwardRequestAsync framework routes request = .ok (.send message) ∧
        Reaches baseUrl target message.requestUri) ↔
      target.Kept baseUrl := by
  have hkey : routeKey request.path = .ok (Uri.decodePath target.key) := by
    rw [hpath, routeKey_target]
  have hforward := forwardTarget_target hpath hquery
  have hhead := endsAuthority_forwardTarget hkey
  have hread : ∀ uri,
      Uri.ofRest (baseUrl.authority ++
        Uri.trimEnd (forwardTarget request (Uri.decodePath target.key))) = uri →
      (Reaches baseUrl target uri ↔
        (('?' ∉ Uri.decodePath target.path ∧ '#' ∉ Uri.decodePath target.path ∧
            '\\' ∉ Uri.decodePath target.path) ∧
          (target.query = [] → ∀ c ∈ (Uri.decodePath target.path).getLast?, Uri.isBlank c = false) ∧
          ∀ segment ∈ target.path.splitOn '/', Uri.hidesEscape segment = false ∧
            Uri.octets segment ≠ [46] ∧ Uri.octets segment ≠ [46, 46]) ∧
        Uri.isCanonicalQuery (Uri.isWrittenAnew
          (baseUrl.authority ++ '/' :: (Uri.decodePath target.path ++ target.query))) 0 target.query =
            true) := by
    rintro _ rfl
    have htrim := Uri.endsAuthority_trimEnd hhead
    obtain ⟨hauthority, hsegments⟩ := Uri.ofRest_append baseUrl.plain htrim
    rw [Reaches, hauthority, hsegments, Uri.ofRest_query baseUrl.plain htrim, and_iff_right rfl, hforward,
      Uri.target_decoded_iff target.queryMarked target.queryPlain rfl]
    apply and_congr_right
    intro ⟨⟨hmark, hhash, _⟩, hblank, _⟩
    rw [Uri.query_of_target target.queryMarked target.queryPlain
      ⟨hmark, hhash⟩ hblank, Uri.trimEnd_of_getLast (target.blank_free hblank)]
    exact Uri.canonicalQuery_eq_iff _ 0 target.query
  constructor
  · intro ⟨message, hsend, hreaches⟩
    obtain ⟨key, base, _, uri, hkey', hroute', _, hparse, _, rfl⟩ :=
      forwardRequestAsync_send_iff.mp hsend
    obtain rfl := Except.ok.inj (hkey.symm.trans hkey')
    obtain rfl := Option.some.inj (hroute.symm.trans hroute')
    obtain ⟨hshort, huri⟩ := (parse?_forward hkey).mp hparse
    obtain ⟨⟨hplain, hblank, honce⟩, hescapes⟩ := (hread _ huri).mp hreaches
    rw [hforward] at hshort
    exact ⟨hshort, hplain, hblank, honce, hescapes⟩
  · intro hkept
    have hshort := hkept.short
    rw [← hforward] at hshort
    have hparse := (parse?_forward hkey).mpr ⟨hshort, rfl⟩
    exact ⟨_, forwardRequestAsync_send_iff.mpr
      ⟨_, baseUrl, content, _, hkey, hroute, hmethod, hparse, hbuild, rfl⟩,
      (hread _ rfl).mpr ⟨⟨hkept.plain, hkept.blank, hkept.once⟩, hkept.query⟩⟩

/-- `GET` of a target, with nothing else. -/
def getRequest (target : RequestTarget) : HttpRequest where
  method := "GET".toList
  path := some target.pathString
  queryString := target.queryString
  contentType := none
  headers := []
  body := []

/-- `/books/caf%C3%A9%20noir?page=2` -/
def spacedTarget : RequestTarget where
  key := "books".toList
  path := "caf%C3%A9%20noir".toList
  query := "?page=2".toList
  keyPlain := by decide
  pathPlain := by decide
  queryMarked := .inr rfl
  queryPlain := by simp [Uri.isBlank]

/-- `/books/who%3F`, whose question mark is a part of the name. -/
def askingTarget : RequestTarget where
  key := "books".toList
  path := "who%3F".toList
  query := []
  keyPlain := by decide
  pathPlain := by decide
  queryMarked := QueryString.empty.marked
  queryPlain := by simp

theorem reaches_spaced :
    ∃ message,
      forwardRequestAsync plainFramework appsettings (getRequest spacedTarget) = .ok (.send message) ∧
      Reaches ⟨"bookhub-book-service:8003".toList, by decide, by decide⟩ spacedTarget
        message.requestUri :=
  (reaches_target_iff plainFramework appsettings (getRequest spacedTarget) spacedTarget
    ⟨"bookhub-book-service:8003".toList, by decide, by decide⟩
    (.string [] "application/json".toList) rfl rfl (by rfl) (by decide) (by rfl)).mpr
    ⟨by decide, by decide, nofun, by decide, by decide⟩

theorem not_reaches_target :
    ¬ ∀ (framework : Framework) (routes : Routes) (request : HttpRequest) (target : RequestTarget)
        (baseUrl : BaseUrl) (content : HttpContent),
      request.path = some target.pathString → request.queryString = target.queryString →
      routes.find? (Uri.decodePath target.key) = some baseUrl → isToken request.method = true →
      buildContent framework request = .ok content →
      ∃ message, forwardRequestAsync framework routes request = .ok (.send message) ∧
        Reaches baseUrl target message.requestUri := by
  intro h
  obtain ⟨message, hsend, -, hsegments, -⟩ := h plainFramework appsettings (getRequest askingTarget)
    askingTarget ⟨"bookhub-book-service:8003".toList, by decide, by decide⟩
    (.string [] "application/json".toList) rfl rfl (by rfl) (by decide) (by rfl)
  have hsent : forwardRequestAsync plainFramework appsettings (getRequest askingTarget) =
      .ok (.send ⟨"GET".toList, ⟨"bookhub-book-service:8003".toList, ["who".toList], ['?']⟩,
        .string [] "application/json".toList, []⟩) := by
    rfl
  rw [hsent] at hsend
  cases hsend
  exact absurd hsegments (by decide)

end BookHub.ApiGateway
