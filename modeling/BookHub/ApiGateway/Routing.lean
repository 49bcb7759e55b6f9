import BookHub.Base.AbsoluteUri
import BookHub.Base.DotNet

/-!
# The gateway's routing

`ForwardRequestAsync` reads the route from the first segment of the path, puts the rest of the path
and the query behind the base URL of that route, builds the content anew and sends the request. The
framework has decoded the path once by then, so it may hold characters that a URL gives a meaning.
-/

namespace BookHub.ApiGateway

/-! ### Requests -/

/-- `PathString.Value`: it is empty or begins with a slash. -/
structure PathString where
  value : List Char
  rooted : value = [] ∨ value.head? = some '/'

/-- `QueryString.Value`: it is empty or begins with a question mark. -/
structure QueryString where
  value : List Char
  marked : value = [] ∨ value.head? = some '?'

/-- `QueryString.Empty` -/
def QueryString.empty : QueryString := ⟨[], .inl rfl⟩

structure HttpRequest where
  method : List Char
  /-- It may be null. -/
  path : Option PathString
  queryString : QueryString
  contentType : Option (List Char)
  headers : List (List Char × List (List Char))
  body : List UInt8

structure FormFile where
  name : List Char
  fileName : List Char
  contentType : Option (List Char)
  bytes : List UInt8

/-- A parsed form; a field may have several values. -/
structure Form where
  fields : List (List Char × List (List Char))
  files : List FormFile

/-- What the framework does for the gateway: the decoding of bodies and forms, and the names that may
stand among the headers of a request. -/
structure Framework where
  readToEnd : List UInt8 → List Char
  readForm : HttpRequest → Except CsException Form
  isRequestHeader : List Char → Bool

/-! ### Routes -/

/-- The base URL of a service, `http://` with an authority. -/
structure BaseUrl where
  authority : List Char
  nonempty : authority ≠ []
  plain : authority.all Uri.isAuthorityChar = true

def BaseUrl.text (base : BaseUrl) : List Char := "http://".toList ++ base.authority

/-- The section `Routes` of the configuration. -/
structure Routes where
  entries : List (List Char × BaseUrl)

/-- `_config[$"Routes:{key}"]` -/
def Routes.find? (routes : Routes) (key : List Char) : Option BaseUrl :=
  (routes.entries.find? fun route => equalsIgnoreCase route.1 key).map Prod.snd

/-! ### Contents -/

/-- `text.Contains(part)` and what follows the first occurrence. -/
def afterFirst (part : List Char) : List Char → Option (List Char)
  | [] => if part.isEmpty then some [] else none
  | c :: rest =>
      if part.isPrefixOf (c :: rest) then some ((c :: rest).drop part.length)
      else afterFirst part rest

/-- What precedes the first occurrence, or everything. -/
def beforeFirst (part : List Char) : List Char → List Char
  | [] => []
  | c :: rest => if part.isPrefixOf (c :: rest) then [] else c :: beforeFirst part rest

/-- A character of a token of a header. -/
def isTokenChar (c : Char) : Bool := c.isAlphanum || "!#$%&'*+-.^_`|~".toList.contains c

def isToken (text : List Char) : Bool := !text.isEmpty && text.all isTokenChar

/-- `new MediaTypeHeaderValue(text)` takes a type and a subtype and nothing else. -/
def isMediaType (text : List Char) : Bool :=
  isToken (text.takeWhile (· != '/')) && isToken ((text.dropWhile (· != '/')).drop 1)

/-- `MediaTypeHeaderValue.CheckMediaTypeFormat` -/
def checkMediaTypeFormat (mediaType : List Char) : Except CsException Unit :=
  if isNullOrWhiteSpace mediaType then .error .argumentException
  else if isMediaType mediaType then .ok ()
  else .error .formatException

/-- What `new MultipartFormDataContent(boundary)` takes. -/
def isBoundary (boundary : List Char) : Bool :=
  !isNullOrWhiteSpace boundary && boundary.length ≤ 70 && boundary.getLast? != some ' ' &&
    boundary.all fun c => c.isAlphanum || "'()+_,-./:=? ".toList.contains c

inductive PartContent where
  | text (value : List Char)
  | stream (mediaType : List Char) (bytes : List UInt8)

structure Part where
  name : List Char
  fileName : Option (List Char)
  content : PartContent

inductive HttpContent where
  | string (text : List Char) (mediaType : List Char)
  | multipart (boundary : List Char) (parts : List Part)

/-- Without the quotes around it. -/
def unquoted (text : List Char) : List Char :=
  match text with
  | '"' :: rest => if rest.getLast? = some '"' then rest.dropLast else text
  | _ => text

/-- What may stand in a `Content-Disposition`: no quote, and no line break unless it is encoded, as
what is not ASCII is. -/
def isDispositionName (name : List Char) : Bool :=
  !(unquoted name).contains '"' &&
    ((unquoted name).any (fun c => 0x7F < c.toNat) ||
      (unquoted name).all fun c => !(['\r', '\n', Char.ofNat 0].contains c))

/-- What `Add` checks of a name and of a file name first. -/
def checkNotBlank (name : List Char) : Except CsException Unit :=
  if isNullOrWhiteSpace name then .error .argumentException else .ok ()

/-- `ContentDispositionHeaderValue.SetName` -/
def setName (name : List Char) : Except CsException Unit :=
  if (unquoted name).contains '"' then .error .argumentException
  else if isDispositionName name then .ok ()
  else .error .formatException

/-- `multipartContent.Add(new StringContent(field.Value), field.Key)`; several values are joined. -/
def addField (field : List Char × List (List Char)) : Except CsException Part :=
  if field.2.isEmpty then .error .argumentNullException
  else do
    checkNotBlank field.1
    setName field.1
    return ⟨field.1, none, .text (List.intercalate [','] field.2)⟩

/-- The content type of a file that has none is the empty string. -/
def addFile (file : FormFile) : Except CsException Part := do
  let contentType := file.contentType.getD []
  checkMediaTypeFormat contentType
  checkNotBlank file.name
  checkNotBlank file.fileName
  setName file.name
  setName file.fileName
  return ⟨file.name, some file.fileName, .stream contentType file.bytes⟩

/-- The content type, where it contains `multipart/form-data`. -/
def multipartContentType (request : HttpRequest) : Option (List Char) :=
  request.contentType.filter fun contentType =>
    (afterFirst "multipart/form-data".toList contentType).isSome

/-- The content of the request that is sent. -/
def buildContent (framework : Framework) (request : HttpRequest) : Except CsException HttpContent :=
  match multipartContentType request with
  | some contentType => do
      let form ← framework.readForm request
      match afterFirst "boundary=".toList contentType with
      | none => .error .indexOutOfRangeException
      | some rest => do
          let boundary := "----".toList ++ beforeFirst "boundary=".toList rest
          if !isBoundary boundary then .error .argumentException
          else do
            let fields ← form.fields.mapM addField
            let files ← form.files.mapM addFile
            return .multipart boundary (fields ++ files)
  | none => do
      let mediaType := request.contentType.getD "application/json".toList
      checkMediaTypeFormat mediaType
      return .string (framework.readToEnd request.body) mediaType

/-! ### When the content can be built -/

def NameFits (name : List Char) : Prop := isNullOrWhiteSpace name = false ∧ isDispositionName name = true

def FieldFits (field : List Char × List (List Char)) : Prop := field.2 ≠ [] ∧ NameFits field.1

def FileFits (file : FormFile) : Prop :=
  (∃ contentType, file.contentType = some contentType ∧ isMediaType contentType = true) ∧
    NameFits file.name ∧ NameFits file.fileName

/-- The boundary of the request with the four dashes of the gateway. -/
def ContentFits (framework : Framework) (request : HttpRequest) : Prop :=
  match multipartContentType request with
  | some contentType => ∃ form rest, framework.readForm request = .ok form ∧
      afterFirst "boundary=".toList contentType = some rest ∧
      isBoundary ("----".toList ++ beforeFirst "boundary=".toList rest) = true ∧
      (∀ field ∈ form.fields, FieldFits field) ∧ ∀ file ∈ form.files, FileFits file
  | none => isMediaType (request.contentType.getD "application/json".toList) = true

theorem isWhiteSpace_of_isTokenChar {c : Char} (h : isTokenChar c = true) :
    isWhiteSpace c = false := by
  have hall : ((List.range' 0x09 5 ++ List.range' 0x2000 11 ++
      [0x20, 0x85, 0xA0, 0x1680, 0x2028, 0x2029, 0x202F, 0x205F, 0x3000]).all fun n =>
        !isTokenChar (Char.ofNat n)) = true := by decide
  rw [Bool.eq_false_iff]
  intro hblank
  have hmem : c.toNat ∈ List.range' 0x09 5 ++ List.range' 0x2000 11 ++
      [0x20, 0x85, 0xA0, 0x1680, 0x2028, 0x2029, 0x202F, 0x205F, 0x3000] := by
    simp only [isWhiteSpace, Bool.or_eq_true, Bool.and_eq_true, decide_eq_true_eq,
      List.contains_iff_mem] at hblank
    rw [List.mem_append, List.mem_append, List.mem_range'_1, List.mem_range'_1]
    apply hblank.imp_left
    omega
  have hno := List.all_eq_true.mp hall _ hmem
  rw [Char.ofNat_toNat, h] at hno
  cases hno

theorem isNullOrWhiteSpace_of_isToken {text : List Char} (h : isToken text = true) :
    isNullOrWhiteSpace text = false := by
  obtain ⟨hempty, hall⟩ := Bool.and_eq_true_iff.mp h
  cases text with
  | nil => cases hempty
  | cons c rest =>
      have hc := isWhiteSpace_of_isTokenChar (List.all_eq_true.mp hall c List.mem_cons_self)
      unfold isNullOrWhiteSpace
      rw [List.all_cons, hc, Bool.false_and]

theorem isNullOrWhiteSpace_of_isMediaType {text : List Char} (h : isMediaType text = true) :
    isNullOrWhiteSpace text = false := by
  have htype := isNullOrWhiteSpace_of_isToken (Bool.and_eq_true_iff.mp h).1
  rw [isNullOrWhiteSpace, List.all_eq_false] at htype ⊢
  obtain ⟨c, hc, hblank⟩ := htype
  exact ⟨c, (List.takeWhile_prefix _).subset hc, hblank⟩

theorem checkMediaTypeFormat_ok_iff {mediaType : List Char} {u : Unit} :
    checkMediaTypeFormat mediaType = .ok u ↔ isMediaType mediaType = true := by
  unfold checkMediaTypeFormat
  constructor
  · intro h
    split at h
    · cases h
    · split at h
      · assumption
      · cases h
  · intro h
    rw [isNullOrWhiteSpace_of_isMediaType h, h]
    rfl

theorem checkNotBlank_ok_iff {name : List Char} {u : Unit} :
    checkNotBlank name = .ok u ↔ isNullOrWhiteSpace name = false := by
  unfold checkNotBlank
  rw [guard_eq_ok_iff]
  simp

theorem setName_ok_iff {name : List Char} {u : Unit} :
    setName name = .ok u ↔ isDispositionName name = true := by
  unfold setName
  rw [guard_eq_ok_iff]
  cases hname : isDispositionName name with
  | false => simp
  | true =>
      have hquote := (Bool.and_eq_true_iff.mp hname).1
      rw [Bool.not_eq_true'] at hquote
      simp only [hquote, true_and, if_true]

theorem addField_ok_iff {field : List Char × List (List Char)} :
    (∃ part, addField field = .ok part) ↔ FieldFits field := by
  unfold addField FieldFits NameFits
  simp only [guard_eq_ok_iff, bind_eq_ok_iff, checkNotBlank_ok_iff, setName_ok_iff,
    List.isEmpty_eq_false_iff]
  constructor
  · intro ⟨_, hvalues, _, hblank, _, hname, _⟩
    exact ⟨hvalues, hblank, hname⟩
  · intro ⟨hvalues, hblank, hname⟩
    exact ⟨_, hvalues, (), hblank, (), hname, rfl⟩

theorem isMediaType_getD_iff {contentType : Option (List Char)} :
    isMediaType (contentType.getD []) = true ↔
      ∃ text, contentType = some text ∧ isMediaType text = true := by
  cases contentType with
  | none => exact iff_of_false (by decide) (by simp)
  | some text => simp

theorem addFile_ok_iff {file : FormFile} : (∃ part, addFile file = .ok part) ↔ FileFits file := by
  unfold addFile FileFits NameFits
  simp only [bind_eq_ok_iff, checkMediaTypeFormat_ok_iff, checkNotBlank_ok_iff, setName_ok_iff,
    isMediaType_getD_iff]
  constructor
  · intro ⟨_, _, hformat, _, hblank, _, hblank', _, hname, _, hname', _⟩
    exact ⟨hformat, ⟨hblank, hname⟩, hblank', hname'⟩
  · intro ⟨hformat, ⟨hblank, hname⟩, hblank', hname'⟩
    exact ⟨_, (), hformat, (), hblank, (), hblank', (), hname, (), hname', rfl⟩

theorem buildContent_string_iff {framework : Framework} {request : HttpRequest}
    {content : HttpContent} (h : multipartContentType request = none) :
    buildContent framework request = .ok content ↔
      isMediaType (request.contentType.getD "application/json".toList) = true ∧
        .string (framework.readToEnd request.body)
          (request.contentType.getD "application/json".toList) = content := by
  rw [buildContent, h]
  dsimp only
  simp only [bind_eq_ok_iff, checkMediaTypeFormat_ok_iff, pure, Except.pure, Except.ok.injEq,
    exists_const]

theorem buildContent_multipart_iff {framework : Framework} {request : HttpRequest}
    {content : HttpContent} {text : List Char} (h : multipartContentType request = some text) :
    buildContent framework request = .ok content ↔
      ∃ form rest fields files, framework.readForm request = .ok form ∧
        afterFirst "boundary=".toList text = some rest ∧
        isBoundary ("----".toList ++ beforeFirst "boundary=".toList rest) = true ∧
        form.fields.mapM addField = .ok fields ∧ form.files.mapM addFile = .ok files ∧
        .multipart ("----".toList ++ beforeFirst "boundary=".toList rest) (fields ++ files) =
          content := by
  rw [buildContent, h]
  dsimp only
  rw [bind_eq_ok_iff]
  cases hboundary : afterFirst "boundary=".toList text with
  | none => simp
  | some rest =>
      dsimp only
      simp only [guard_eq_ok_iff, bind_eq_ok_iff, Bool.not_eq_false', pure, Except.pure,
        Except.ok.injEq]
      constructor
      · intro ⟨form, hform, hvalid, fields, hfields, files, hfiles, hcontent⟩
        exact ⟨form, rest, fields, files, hform, rfl, hvalid, hfields, hfiles, hcontent⟩
      · intro ⟨form, _, fields, files, hform, heq, hvalid, hfields, hfiles, hcontent⟩
        cases heq
        exact ⟨form, hform, hvalid, fields, hfields, files, hfiles, hcontent⟩

theorem buildContent_ok_iff {framework : Framework} {request : HttpRequest} :
    (∃ content, buildContent framework request = .ok content) ↔ ContentFits framework request := by
  unfold ContentFits
  cases hcontent : multipartContentType request with
  | none =>
      simp only [buildContent_string_iff hcontent]
      constructor
      · intro ⟨_, hformat, _⟩
        exact hformat
      · intro hformat
        exact ⟨_, hformat, rfl⟩
  | some contentType =>
      simp only [buildContent_multipart_iff hcontent, ← addField_ok_iff, ← addFile_ok_iff, ← mapM_ok_iff]
      constructor
      · intro ⟨_, form, rest, fields, files, hform, hrest, hvalid, hfields, hfiles, _⟩
        exact ⟨form, rest, hform, hrest, hvalid, ⟨fields, hfields⟩, files, hfiles⟩
      · intro ⟨form, rest, hform, hrest, hvalid, ⟨fields, hfields⟩, files, hfiles⟩
        exact ⟨_, form, rest, fields, files, hform, hrest, hvalid, hfields, hfiles, rfl⟩

/-! ### Forwarding -/

structure HttpRequestMessage where
  method : List Char
  requestUri : Uri
  content : HttpContent
  headers : List (List Char × List (List Char))

/-- What `ForwardRequestAsync` does: it answers by itself, or sends a request and answers with what
comes back. -/
inductive Forwarded where
  | badRequest (reasonPhrase : String)
  | send (message : HttpRequestMessage)

/-- `request.Path.Value?.Split('/')[1]`, empty where the value is null. -/
def routeKey : Option PathString → Except CsException (List Char)
  | none => .ok []
  | some path =>
      match path.value.splitOn '/' with
      | _ :: key :: _ => .ok key
      | _ => .error .indexOutOfRangeException

/-- `request.Path.Value?[(routeKey!.Length + 1)..]` -/
def restOfPath (path : Option PathString) (key : List Char) : List Char :=
  path.elim [] fun path => path.value.drop (key.length + 1)

/-- The headers that are copied. -/
def forwardHeaders (framework : Framework) (request : HttpRequest) :
    List (List Char × List (List Char)) :=
  request.headers.filter fun header =>
    !(equalsIgnoreCase header.1 "Content-Type".toList ||
      equalsIgnoreCase header.1 "Content-Length".toList) && framework.isRequestHeader header.1

def forwardRequestAsync (framework : Framework) (routes : Routes) (request : HttpRequest) :
    Except CsException Forwarded := do
  let key ← routeKey request.path
  match routes.find? key with
  | none => return .badRequest "Invalid route"
  | some baseUrl =>
      let forwardUrl := baseUrl.text ++ restOfPath request.path key ++ request.queryString.value
      if isNullOrWhiteSpace request.method then .error .argumentException
      else if !isToken request.method then .error .formatException
      else
        match Uri.parse? forwardUrl with
        | none => .error .uriFormatException
        | some requestUri => do
            let content ← buildContent framework request
            return .send ⟨request.method, requestUri, content, forwardHeaders framework request⟩

end BookHub.ApiGateway
