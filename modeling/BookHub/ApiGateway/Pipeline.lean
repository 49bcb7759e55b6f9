import BookHub.ApiGateway.Responses

/-!
# The gateway's pipeline

A request goes through the middleware in the order in which `Program.cs` adds it, and ends in an action
of the controller. Two endpoints allow anonymous requests, and everything else, a method that no action
takes included, falls under the fallback policy.
-/

namespace BookHub.ApiGateway

/-! ### Endpoints -/

inductive Action where
  | register
  | login
  | handleRequest
  deriving DecidableEq

inductive Endpoint where
  | action (action : Action)
  | methodNotAllowed
  deriving DecidableEq

/-- `[AllowAnonymous]` -/
def Endpoint.allowsAnonymous : Endpoint → Bool
  | .action .register | .action .login => true
  | .action .handleRequest | .methodNotAllowed => false

/-- The segments that routes are matched with: a slash at the end counts for nothing. -/
def tokenize (path : List Char) : List (List Char) :=
  let segments := (path.drop 1).splitOn '/'
  if segments.getLast? = some [] then segments.dropLast else segments

/-- The literal segments of a route match in any letter case. -/
def matchesRoute (route : List String) (request : HttpRequest) : Bool :=
  let segments := request.path.elim [] fun path => tokenize path.value
  segments.length == route.length &&
    (segments.zip route).all fun segment => equalsIgnoreCase segment.1 segment.2.toList

def isMethod (request : HttpRequest) (method : String) : Bool :=
  equalsIgnoreCase request.method method.toList

/-- The route `{*url}` matches every path, and the literal ones come first. -/
def selectEndpoint (request : HttpRequest) : Endpoint :=
  if isMethod request "POST" && matchesRoute ["users", "register"] request then .action .register
  else if isMethod request "POST" && matchesRoute ["auth", "login"] request then .action .login
  else if ["GET", "POST", "PUT", "DELETE", "PATCH"].any (isMethod request) then .action .handleRequest
  else .methodNotAllowed

/-! ### Actions -/

section Actions

variable (framework : Framework) (encodings : Encodings) (routes : Routes) (client : HttpClient)
  (request : HttpRequest)

/-- Forward the request and return the text of what comes back with its status and type. -/
def forwardText : Except CsException ActionResult := do
  let response ← forwarded client (← forwardRequestAsync framework routes request)
  let content ← response.readAsString encodings
  return .content response.statusCode content (response.contentType.getD jsonMediaType)

def register : Except CsException ActionResult := forwardText framework encodings routes client request

def login : Except CsException ActionResult := forwardText framework encodings routes client request

def invoke : Action → Except CsException ActionResult
  | .register => register framework encodings routes client request
  | .login => login framework encodings routes client request
  | .handleRequest => handleRequest framework encodings routes client request

/-- The request that the action forwards to a service. -/
def Action.sends (action : Action) : Option HttpRequestMessage :=
  if action = .handleRequest ∧ bypassesRouting request = true then none
  else
    match forwardRequestAsync framework routes request with
    | .ok (.send message) => some message
    | _ => none

end Actions

/-! ### Middleware -/

structure HttpContext where
  request : HttpRequest
  endpoint : Option Endpoint
  isAuthenticated : Bool

/-- What the client gets: a status alone, or what a result or the platform writes. -/
inductive Answer where
  | status (code : Nat)
  | written (response : SentResponse)

def Answer.statusCode : Answer → Nat
  | .status code => code
  | .written response => response.statusCode

/-- `Unauthorized request {Method} {Path} {StatusCode}` -/
structure Warning where
  method : List Char
  path : Option PathString
  statusCode : Nat

/-- How a request ends; `sent` is what `ForwardRequestAsync` sent for it. -/
structure Outcome where
  sent : Option HttpRequestMessage
  answer : Except CsException Answer
  warnings : List Warning

/-- Nothing is forwarded. -/
def Outcome.ends (answer : Answer) : Outcome := ⟨none, .ok answer, []⟩

abbrev RequestDelegate := HttpContext → Outcome

abbrev Middleware := RequestDelegate → RequestDelegate

/-- The gateway on its platform: the configuration, the services behind it and what the framework
decides about a request. -/
structure WebApplication where
  framework : Framework
  mvc : Mvc
  routes : Routes
  client : HttpClient
  /-- The documentation, which is served in development only. -/
  swagger : HttpRequest → Option SentResponse
  isHttps : HttpRequest → Bool
  httpsPort : Option Nat
  /-- The request bears a valid token. -/
  authenticate : HttpRequest → Bool

namespace WebApplication

variable (app : WebApplication)

def useSwagger : Middleware := fun next context =>
  match app.swagger context.request with
  | some response => .ends (.written response)
  | none => next context

def hasHeader (request : HttpRequest) (name : String) : Bool :=
  request.headers.any fun header => equalsIgnoreCase header.1 name.toList

def isPreflight (request : HttpRequest) : Bool :=
  hasHeader request "Origin" && isMethod request "OPTIONS" &&
    hasHeader request "Access-Control-Request-Method"

/-- Any origin, method and header is allowed, and a preflight ends here. -/
def useCors : Middleware := fun next context =>
  if isPreflight context.request then .ends (.status 204) else next context

def useHttpsRedirection : Middleware := fun next context =>
  if !app.isHttps context.request && app.httpsPort.isSome then .ends (.status 307) else next context

def useRouting : Middleware := fun next context =>
  next { context with endpoint := some (selectEndpoint context.request) }

def useAuthentication : Middleware := fun next context =>
  next { context with isAuthenticated := app.authenticate context.request }

/-- `RequestLoggingMiddleware.InvokeAsync`; nothing is logged where an exception passes through. -/
def requestLogging : Middleware := fun next context =>
  let outcome := next context
  match outcome.answer with
  | .error _ => outcome
  | .ok answer =>
      if answer.statusCode = 401 ∨ answer.statusCode = 403 then
        { outcome with
          warnings := outcome.warnings ++
            [⟨context.request.method, context.request.path, answer.statusCode⟩] }
      else outcome

/-- The fallback policy requires an authenticated user. -/
def useAuthorization : Middleware := fun next context =>
  if context.endpoint.any Endpoint.allowsAnonymous || context.isAuthenticated then next context
  else .ends (.status 401)

def mapControllers : RequestDelegate := fun context =>
  match context.endpoint with
  | none => .ends (.status 404)
  | some .methodNotAllowed => .ends (.status 405)
  | some (.action action) =>
      { sent := action.sends app.framework app.routes context.request
        answer := do
          let result ← invoke app.framework app.mvc.encodings app.routes app.client context.request
            action
          return .written (app.mvc.execute context.request result)
        warnings := [] }

/-- The pipeline in its order. -/
def pipeline : List Middleware :=
  [app.useSwagger, useCors, app.useHttpsRedirection, useRouting, app.useAuthentication, requestLogging,
    useAuthorization]

def handle (request : HttpRequest) : Outcome :=
  app.pipeline.foldr (fun middleware next => middleware next) app.mapControllers ⟨request, none, false⟩

/-- Nothing in front of the routing answers the request. -/
def Reaches (request : HttpRequest) : Prop :=
  app.swagger request = none ∧ isPreflight request = false ∧
    (app.isHttps request = true ∨ app.httpsPort = none)

/-! ### What the pipeline comes to -/

section Outcomes

variable {app} {request : HttpRequest}

/-- Behind the routing. -/
def authorized (app : WebApplication) (request : HttpRequest) : Outcome :=
  requestLogging (useAuthorization app.mapControllers)
    ⟨request, some (selectEndpoint request), app.authenticate request⟩

theorem handle_of_reaches (h : app.Reaches request) : app.handle request = authorized app request := by
  obtain ⟨hswagger, hpreflight, hhttps⟩ := h
  have hstay : (!app.isHttps request && app.httpsPort.isSome) = false := by
    obtain hsecure | hport := hhttps
    · rw [hsecure]
      rfl
    · rw [hport]
      exact Bool.and_false _
  show app.useSwagger _ _ = _
  rw [useSwagger, hswagger]
  show useCors _ _ = _
  rw [useCors, hpreflight, if_neg Bool.false_ne_true]
  show app.useHttpsRedirection _ _ = _
  rw [useHttpsRedirection, hstay, if_neg Bool.false_ne_true]
  rfl

/-- What the front answers goes nowhere and is not logged. -/
theorem handle_of_not_reaches (h : ¬ app.Reaches request) :
    ∃ answer, app.handle request = .ends answer := by
  show ∃ answer, app.useSwagger _ _ = _
  rw [useSwagger]
  cases hswagger : app.swagger request with
  | some response => exact ⟨_, rfl⟩
  | none =>
      show ∃ answer, useCors _ _ = _
      rw [useCors]
      cases hpreflight : isPreflight request with
      | true => exact ⟨_, rfl⟩
      | false =>
          rw [if_neg Bool.false_ne_true]
          show ∃ answer, app.useHttpsRedirection _ _ = _
          rw [useHttpsRedirection]
          cases hredirect : !app.isHttps request && app.httpsPort.isSome with
          | true => exact ⟨_, rfl⟩
          | false =>
              refine absurd ⟨hswagger, hpreflight, ?_⟩ h
              rw [Bool.and_eq_false_iff, Bool.not_eq_false', Option.isSome_eq_false_iff] at hredirect
              exact hredirect.imp_right Option.isNone_iff_eq_none.mp

theorem authorized_of_refused (hanonymous : (selectEndpoint request).allowsAnonymous = false)
    (hauthenticate : app.authenticate request = false) :
    authorized app request = ⟨none, .ok (.status 401), [⟨request.method, request.path, 401⟩]⟩ := by
  have hend : useAuthorization app.mapControllers
      ⟨request, some (selectEndpoint request), app.authenticate request⟩ = .ends (.status 401) := by
    rw [useAuthorization, Option.any_some, hanonymous, hauthenticate]
    rfl
  rw [authorized, requestLogging, hend]
  rfl

theorem answer_requestLogging (next : RequestDelegate) (context : HttpContext) :
    (requestLogging next context).answer = (next context).answer ∧
      (requestLogging next context).sent = (next context).sent := by
  unfold requestLogging
  dsimp only
  cases hanswer : (next context).answer with
  | error e => exact ⟨hanswer, rfl⟩
  | ok answer =>
      dsimp only
      split
      · exact ⟨rfl, rfl⟩
      · exact ⟨hanswer, rfl⟩

theorem authorized_of_allowsAnonymous {action : Action}
    (hanonymous : (Endpoint.action action).allowsAnonymous = true)
    (hendpoint : selectEndpoint request = .action action) :
    authorized app request =
      requestLogging app.mapControllers
        ⟨request, some (.action action), app.authenticate request⟩ := by
  rw [authorized, hendpoint]
  unfold requestLogging useAuthorization
  dsimp only
  rw [Option.any_some, hanonymous, Bool.true_or, if_pos rfl]

end Outcomes

end WebApplication

/-! ### What is forwarded without a token -/

theorem isUnreserved_of_equalsIgnoreCase {text name : List Char} (h : equalsIgnoreCase text name = true)
    (hname : (name.map Char.toLower).all Char.isLower = true) : text.all Uri.isUnreserved = true := by
  have hmap : text.map Char.toLower = name.map Char.toLower := eq_of_beq h
  rw [List.all_eq_true]
  intro c hc
  have hlower : c.toLower.isLower = true := by
    apply List.all_eq_true.mp hname
    rw [← hmap]
    exact List.mem_map_of_mem hc
  have halpha : c.isAlpha = true := by
    show (c.isUpper || c.isLower) = true
    rw [Bool.or_eq_true]
    unfold Char.toLower at hlower
    split at hlower
    · rename_i hupper
      exact .inl (decide_eq_true hupper)
    · exact .inr hlower
  rw [Uri.isUnreserved, Char.isAlphanum, halpha]
  rfl

theorem Routes.find?_congr {routes : Routes} {x y : List Char} (h : equalsIgnoreCase x y = true) :
    routes.find? x = routes.find? y := by
  have hmap : x.map Char.toLower = y.map Char.toLower := eq_of_beq h
  unfold Routes.find? equalsIgnoreCase
  rw [hmap]

/-- A path of two segments, with or without a slash at its end. -/
theorem tokenize_eq_pair {path : PathString} {first second : List Char}
    (h : tokenize path.value = [first, second]) :
    ∃ rest, path.value = '/' :: (first ++ '/' :: rest) ∧ '/' ∉ first ∧
      (rest.splitOn '/' = [second] ∨ rest.splitOn '/' = [second, []]) := by
  obtain ⟨text, htext⟩ : ∃ text, path.value = '/' :: text := by
    obtain hnil | hslash := path.rooted
    · rw [hnil] at h
      cases h
    · exact List.head?_eq_some_iff.mp hslash
  rw [htext] at h
  have hsplit : ∃ others, text.splitOn '/' = first :: others ∧
      (others = [second] ∨ others = [second, []]) := by
    unfold tokenize at h
    dsimp only at h
    rw [List.drop_one, List.tail_cons] at h
    split at h
    · rename_i hlast
      have hjoin := List.dropLast_append_getLast? [] hlast
      rw [h] at hjoin
      exact ⟨_, hjoin.symm, .inr rfl⟩
    · exact ⟨_, h, .inl rfl⟩
  obtain ⟨others, hsplit, hothers⟩ := hsplit
  have hfirst : '/' ∉ first := by
    have hmem : first ∈ text.splitOnP (· == '/') := by
      show first ∈ text.splitOn '/'
      rw [hsplit]
      exact List.mem_cons_self
    intro hslash
    exact absurd (not_of_mem_splitOnP _ hmem '/' hslash) (by decide)
  have hjoin : List.intercalate ['/'] (text.splitOn '/') = text := List.intercalate_splitOn '/'
  have hne : others ≠ [] := by
    obtain rfl | rfl := hothers
    · exact List.cons_ne_nil _ _
    · exact List.cons_ne_nil _ _
  obtain ⟨rest, hrest⟩ : ∃ rest, text = first ++ '/' :: rest := by
    obtain ⟨next, more, rfl⟩ := List.exists_cons_of_ne_nil hne
    rw [hsplit, List.intercalate_cons_cons, List.append_assoc] at hjoin
    exact ⟨_, hjoin.symm⟩
  refine ⟨rest, by rw [htext, hrest], hfirst, ?_⟩
  rw [hrest, List.splitOn_append_cons_self_of_not_mem hfirst] at hsplit
  rw [(List.cons.inj hsplit).2]
  exact hothers

theorem matchesRoute_pair {request : HttpRequest} {key name : String}
    (h : matchesRoute [key, name] request = true) :
    ∃ path first second, request.path = some path ∧ tokenize path.value = [first, second] ∧
      equalsIgnoreCase first key.toList = true ∧ equalsIgnoreCase second name.toList = true := by
  unfold matchesRoute at h
  dsimp only at h
  rw [Bool.and_eq_true, beq_iff_eq] at h
  cases hpath : request.path with
  | none =>
      rw [hpath] at h
      cases h.1
  | some path =>
      rw [hpath, Option.elim_some] at h
      obtain ⟨first, second, hpair⟩ := List.length_eq_two.mp h.1
      rw [hpair] at h
      have hboth := h.2
      rw [List.zip_cons_cons, List.zip_cons_cons, List.zip_nil_right, List.all_cons, List.all_cons,
        List.all_nil, Bool.and_true, Bool.and_eq_true] at hboth
      exact ⟨path, first, second, rfl, hpair, hboth⟩

/-- The keys of the routes that take requests without a token, with the one segment behind each. -/
def anonymousRoutes : List (String × String) := [("users", "register"), ("auth", "login")]

theorem matches_of_allowsAnonymous {request : HttpRequest}
    (h : (selectEndpoint request).allowsAnonymous = true) :
    isMethod request "POST" = true ∧
      ∃ route ∈ anonymousRoutes, matchesRoute [route.1, route.2] request = true := by
  unfold selectEndpoint at h
  split at h
  · rename_i hregister
    obtain ⟨hpost, hmatches⟩ := Bool.and_eq_true_iff.mp hregister
    exact ⟨hpost, _, List.mem_cons_self, hmatches⟩
  · split at h
    · rename_i hlogin
      obtain ⟨hpost, hmatches⟩ := Bool.and_eq_true_iff.mp hlogin
      exact ⟨hpost, _, List.mem_cons_of_mem _ List.mem_cons_self, hmatches⟩
    · split at h
      · cases h
      · cases h

/-- A `POST` of one segment, `register` to the users and `login` to the authentication. -/
def IsAnonymous (routes : Routes) (message : HttpRequestMessage) : Prop :=
  equalsIgnoreCase message.method "POST".toList = true ∧
    ∃ route ∈ anonymousRoutes, ∃ baseUrl segment, routes.find? route.1.toList = some baseUrl ∧
      message.requestUri.authority = baseUrl.authority ∧
      equalsIgnoreCase segment route.2.toList = true ∧
      (message.requestUri.segments = [segment] ∨ message.requestUri.segments = [segment, []])

theorem isAnonymous_of_forward {framework : Framework} {routes : Routes} {request : HttpRequest}
    {message : HttpRequestMessage} (hanonymous : (selectEndpoint request).allowsAnonymous = true)
    (hsend : forwardRequestAsync framework routes request = .ok (.send message)) :
    IsAnonymous routes message := by
  obtain ⟨hpost, ⟨key, name⟩, hroute, hmatches⟩ := matches_of_allowsAnonymous hanonymous
  obtain ⟨path, first, second, hpath, hpair, hfirst, hsecond⟩ := matchesRoute_pair hmatches
  obtain ⟨rest, hvalue, hslash, hrest⟩ := tokenize_eq_pair hpair
  have hkey : routeKey request.path = .ok first := by
    rw [hpath]
    unfold routeKey
    dsimp only
    rw [hvalue, ← List.nil_append ('/' :: _),
      List.splitOn_append_cons_self_of_not_mem List.not_mem_nil,
      List.splitOn_append_cons_self_of_not_mem hslash]
  have htarget : forwardTarget request first = '/' :: (rest ++ request.queryString.value) := by
    rw [forwardTarget, hpath]
    show path.value.drop _ ++ _ = _
    rw [hvalue, List.drop_succ_cons, List.drop_left]
    rfl
  obtain ⟨key', baseUrl, content, uri, hkey', hfind, -, huri, -, rfl⟩ :=
    forwardRequestAsync_send_iff.mp hsend
  obtain rfl := Except.ok.inj (hkey.symm.trans hkey')
  have hauthority : uri.authority = baseUrl.authority := authority_forward hkey huri
  have hname : ∀ route ∈ anonymousRoutes,
      ((route.2.toList.map Char.toLower).all Char.isLower = true) ∧ 3 ≤ route.2.toList.length := by
    decide
  have hlength : 3 ≤ second.length := by
    have hmap : second.map Char.toLower = name.toList.map Char.toLower := eq_of_beq hsecond
    have heq := congrArg List.length hmap
    rw [List.length_map, List.length_map] at heq
    exact heq ▸ (hname _ hroute).2
  have hdots : ¬ Uri.IsDots second := by
    rintro (rfl | rfl)
    · exact absurd hlength (by decide)
    · exact absurd hlength (by decide)
  have hsegments : uri.segments = rest.splitOn '/' := by
    rw [segments_forward hkey huri, htarget]
    exact Uri.pathSegments_of_unreserved (isUnreserved_of_equalsIgnoreCase hsecond (hname _ hroute).1)
      hdots hrest request.queryString.marked
  refine ⟨hpost, _, hroute, baseUrl, second, ?_, hauthority, hsecond, ?_⟩
  · rw [← Routes.find?_congr hfirst]
    exact hfind
  · show uri.segments = _ ∨ uri.segments = _
    rw [hsegments]
    exact hrest

theorem forward_of_sends {framework : Framework} {routes : Routes} {request : HttpRequest}
    {action : Action} {message : HttpRequestMessage}
    (h : action.sends framework routes request = some message) :
    forwardRequestAsync framework routes request = .ok (.send message) := by
  unfold Action.sends at h
  split at h
  · cases h
  · split at h
    · rename_i hsend
      cases h
      exact hsend
    · cases h

namespace WebApplication

/-- Without a valid token a request is forwarded only as a `POST` of `register` or `login` to the
services of these two, and every other request that comes past the front is refused and logged. -/
theorem unauthenticated (app : WebApplication) (request : HttpRequest)
    (h : app.authenticate request = false) :
    (∀ message, (app.handle request).sent = some message → IsAnonymous app.routes message) ∧
      ((selectEndpoint request).allowsAnonymous = false →
        (app.handle request).sent = none ∧
          (app.Reaches request → app.handle request =
            ⟨none, .ok (.status 401), [⟨request.method, request.path, 401⟩]⟩)) := by
  by_cases hreaches : app.Reaches request
  · rw [handle_of_reaches hreaches]
    cases hanonymous : (selectEndpoint request).allowsAnonymous with
    | false =>
        rw [authorized_of_refused hanonymous h]
        refine ⟨?_, fun _ => ⟨rfl, fun _ => rfl⟩⟩
        intro message hsent
        cases hsent
    | true =>
        refine ⟨?_, fun hfalse => absurd hfalse (by decide)⟩
        intro message hsent
        cases hendpoint : selectEndpoint request with
        | methodNotAllowed =>
            rw [hendpoint] at hanonymous
            cases hanonymous
        | action action =>
            rw [authorized_of_allowsAnonymous (hendpoint ▸ hanonymous) hendpoint,
              (answer_requestLogging _ _).2] at hsent
            exact isAnonymous_of_forward hanonymous (forward_of_sends hsent)
  · obtain ⟨answer, hends⟩ := handle_of_not_reaches hreaches
    rw [hends]
    refine ⟨?_, fun _ => ⟨rfl, fun h => absurd h hreaches⟩⟩
    intro message hsent
    cases hsent

/-- Nobody is logged in. -/
def plainApplication : WebApplication where
  framework := plainFramework
  mvc := plainMvc
  routes := appsettings
  client := answering missingBook
  swagger := fun _ => none
  isHttps := fun _ => true
  httpsPort := none
  authenticate := fun _ => false

theorem unauthenticated_book : plainApplication.handle bookRequest =
    ⟨none, .ok (.status 401), [⟨bookRequest.method, bookRequest.path, 401⟩]⟩ :=
  ((unauthenticated plainApplication bookRequest rfl).2 (by decide)).2 ⟨rfl, by decide, .inl rfl⟩

/-! ### What comes back without a token -/

end WebApplication

end BookHub.ApiGateway
