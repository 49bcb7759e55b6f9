import Mathlib.Data.List.Forall2
import BookHub.ApiGateway.Forms

/-!
# Responses that are relayed

`HandleRequest` answers with one of four results. What is no success is read as a text and handed to an
output formatter, which writes a type of its own; JSON is read as a text and written again with its
status and type; and any other content is a file, with its type and bytes, and the status 200. A redirect
does not come so far: the client that sends the request follows it.
-/

namespace BookHub.ApiGateway

/-! ### Types and encodings -/

/-- A media type and its parameters, their values as they are written. -/
structure MediaTypeHeaderValue where
  mediaType : List Char
  parameters : List (List Char × List Char)

namespace MediaTypeHeaderValue

/-- `ToString` -/
def text (value : MediaTypeHeaderValue) : List Char :=
  value.mediaType ++ value.parameters.flatMap fun parameter =>
    "; ".toList ++ parameter.1 ++ if parameter.2.isEmpty then [] else '=' :: parameter.2

def charset? (value : MediaTypeHeaderValue) : Option (List Char) :=
  (value.parameters.find? fun parameter => equalsIgnoreCase parameter.1 "charset".toList).map fun parameter =>
    unquoted parameter.2

end MediaTypeHeaderValue

/-- The letter case does not count in a name, and in the name of a charset. -/
def SameParameter (x y : List Char × List Char) : Prop :=
  equalsIgnoreCase x.1 y.1 = true ∧ (unquoted x.2 = unquoted y.2 ∨
    equalsIgnoreCase x.1 "charset".toList = true ∧ equalsIgnoreCase (unquoted x.2) (unquoted y.2) = true)

def SameType (x y : MediaTypeHeaderValue) : Prop :=
  equalsIgnoreCase x.mediaType y.mediaType = true ∧ List.Forall₂ SameParameter x.parameters y.parameters

/-- `System.Text.Encoding`: what it has written it reads and writes as it was, and a preamble that was
skipped is not written. -/
structure Encoding where
  preamble : List UInt8
  getBytes : List Char → List UInt8
  getString : List UInt8 → List Char
  stable : ∀ text, getBytes (getString (getBytes text)) = getBytes text
  skipped : ∀ rest, preamble ≠ [] → getBytes (getString rest) ≠ preamble ++ rest

namespace Encoding

def utf8 : Encoding where
  preamble := ByteOrderMark.utf8.bytes
  getBytes := Utf8.encode
  getString := Utf8.decode
  stable := fun text => by rw [Utf8.decode_encode]
  skipped := fun rest _ => ByteOrderMark.encode_decode_ne rest

/-- The low byte of each unit comes first. -/
def unicode : Encoding where
  preamble := ByteOrderMark.utf16Le.bytes
  getBytes := Utf16.encode
  getString := Utf16.decode false
  stable := fun text => by rw [Utf16.decode_encode]
  skipped := fun rest _ h => by
    have hlength := congrArg List.length h
    have hle := Utf16.length_encode_decode_le rest
    have htwo : ByteOrderMark.utf16Le.bytes.length = 2 := rfl
    rw [List.length_append, htwo] at hlength
    omega

/-- Without the preamble. -/
def read (encoding : Encoding) (bytes : List UInt8) : List Char :=
  if encoding.preamble.isPrefixOf bytes then encoding.getString (bytes.drop encoding.preamble.length)
  else encoding.getString bytes

/-- The bytes are a text in this encoding, without its preamble. -/
def Writes (encoding : Encoding) (bytes : List UInt8) : Prop :=
  (∃ text, encoding.getBytes text = bytes) ∧ (encoding.preamble <+: bytes → encoding.preamble = [])

theorem getBytes_read_iff (encoding : Encoding) {bytes : List UInt8} :
    encoding.getBytes (encoding.read bytes) = bytes ↔ encoding.Writes bytes := by
  have hstable : encoding.getBytes (encoding.getString bytes) = bytes ↔
      ∃ text, encoding.getBytes text = bytes := by
    constructor
    · intro h
      exact ⟨_, h⟩
    · intro ⟨text, htext⟩
      rw [← htext, encoding.stable]
  unfold read Writes
  by_cases hstart : encoding.preamble <+: bytes
  · rw [if_pos (List.isPrefixOf_iff_prefix.mpr hstart)]
    by_cases hempty : encoding.preamble = []
    · simp only [hempty, List.length_nil, List.drop_zero, implies_true, and_true]
      exact hstable
    · obtain ⟨rest, rfl⟩ := hstart
      rw [List.drop_left]
      refine iff_of_false (encoding.skipped rest hempty) ?_
      intro ⟨_, hpreamble⟩
      exact hempty (hpreamble (List.prefix_append _ _))
  · rw [if_neg (mt List.isPrefixOf_iff_prefix.mp hstart), hstable]
    simp [hstart]

end Encoding

/-- `Encoding.GetEncoding`, where the name is known; names have no letter case. -/
structure Encodings where
  find? : List Char → Option Encoding
  utf8 : ∀ name, equalsIgnoreCase name "utf-8".toList = true → find? name = some Encoding.utf8
  unicode : ∀ name, equalsIgnoreCase name "utf-16".toList = true → find? name = some Encoding.unicode

/-- The encodings that a formatter writes. -/
inductive OutputEncoding where
  | utf8
  | unicode

namespace OutputEncoding

def webName : OutputEncoding → List Char
  | .utf8 => "utf-8".toList
  | .unicode => "utf-16".toList

def encoding : OutputEncoding → Encoding
  | .utf8 => .utf8
  | .unicode => .unicode

theorem find?_webName (encodings : Encodings) (output : OutputEncoding) {name : List Char}
    (h : equalsIgnoreCase name output.webName = true) :
    encodings.find? name = some output.encoding := by
  cases output with
  | utf8 => exact encodings.utf8 name h
  | unicode => exact encodings.unicode name h

theorem getString_getBytes (output : OutputEncoding) (text : List Char) :
    output.encoding.getString (output.encoding.getBytes text) = text := by
  cases output with
  | utf8 => exact Utf8.decode_encode text
  | unicode => exact Utf16.decode_encode text

/-- Only a mark is written as the preamble. -/
theorem eq_of_preamble {output : OutputEncoding} {c : Char} {text : List Char}
    (h : output.encoding.preamble <+: output.encoding.getBytes (c :: text)) :
    c = Char.ofNat 0xFEFF := by
  obtain ⟨rest, hrest⟩ := h
  cases output with
  | utf8 =>
      have hmark : Encoding.utf8.preamble ++ rest = Utf8.encodeChar (Char.ofNat 0xFEFF) ++ rest := rfl
      have hread := congrArg Utf8.decode (hrest.symm.trans hmark)
      rw [Utf8.decode_encodeChar_append] at hread
      exact (List.cons.inj ((Utf8.decode_encode _).symm.trans hread)).1
  | unicode =>
      have hmark : Encoding.unicode.preamble ++ rest = Utf16.encodeChar (Char.ofNat 0xFEFF) ++ rest := rfl
      have hread := congrArg (Utf16.decode false) (hrest.symm.trans hmark)
      rw [Utf16.decode_encodeChar_append] at hread
      exact (List.cons.inj ((Utf16.decode_encode _).symm.trans hread)).1

end OutputEncoding

/-! ### What comes back -/

structure HttpResponseMessage where
  statusCode : Nat
  /-- The header `Location`, where it is a URI. -/
  location : Option (List Char)
  contentType : Option MediaTypeHeaderValue
  body : List UInt8

namespace HttpResponseMessage

def isSuccessStatusCode (response : HttpResponseMessage) : Bool :=
  200 ≤ response.statusCode && response.statusCode ≤ 299

/-- `RedirectHandler` follows it. -/
def isRedirect (response : HttpResponseMessage) : Bool :=
  [300, 301, 302, 303, 307, 308].contains response.statusCode && response.location.isSome

def charset? (response : HttpResponseMessage) : Option (List Char) :=
  response.contentType.bind MediaTypeHeaderValue.charset?

/-- The marks that are looked for where there is no charset. -/
def marks : List ByteOrderMark :=
  [ByteOrderMark.utf8, ByteOrderMark.utf32Le, ByteOrderMark.utf16Le, ByteOrderMark.utf16Be]

/-- `Content.ReadAsStringAsync` -/
def readAsString (response : HttpResponseMessage) (encodings : Encodings) :
    Except CsException (List Char) :=
  match response.charset? with
  | none => .ok (ByteOrderMark.read marks response.body)
  | some name =>
      match encodings.find? name with
      | none => .error .invalidOperationException
      | some encoding => .ok (encoding.read response.body)

theorem encode_read_marks_iff {bytes : List UInt8} :
    Utf8.encode (ByteOrderMark.read marks bytes) = bytes ↔ ByteOrderMark.Unmarked bytes := by
  apply ByteOrderMark.encode_read_iff
  · intro mark hmark
    simp only [marks, List.mem_cons, List.not_mem_nil, or_false] at hmark
    obtain rfl | rfl | rfl | rfl := hmark
    · exact .inl rfl
    · exact .inr ⟨0xFF, by decide, by decide⟩
    · exact .inr ⟨0xFF, by decide, by decide⟩
    · exact .inr ⟨0xFE, by decide, by decide⟩
  · simp [marks]

theorem not_success_of_isRedirect {response : HttpResponseMessage} (h : response.isRedirect = true) :
    response.statusCode ≠ 200 ∧ response.isSuccessStatusCode = false := by
  have hcodes : ∀ code ∈ [300, 301, 302, 303, 307, 308], 300 ≤ code := by decide
  have hcode := hcodes _ (List.contains_iff_mem.mp (Bool.and_eq_true_iff.mp h).1)
  refine ⟨by omega, ?_⟩
  rw [isSuccessStatusCode, Bool.and_eq_false_iff, decide_eq_false_iff_not, decide_eq_false_iff_not]
  omega

end HttpResponseMessage

/-- The client of the gateway, with its default handler. -/
structure HttpClient where
  /-- What the service answers that a request is sent to. -/
  downstream : HttpRequestMessage → HttpResponseMessage
  /-- What comes in the end where such an answer is a redirect. -/
  follow : HttpRequestMessage → HttpResponseMessage → Except CsException HttpResponseMessage

def HttpClient.sendAsync (client : HttpClient) (message : HttpRequestMessage) :
    Except CsException HttpResponseMessage :=
  let response := client.downstream message
  if response.isRedirect then client.follow message response else .ok response

/-! ### What the controller returns -/

inductive ActionResult where
  | notFound
  | statusCode (code : Nat) (value : List Char)
  | content (code : Nat) (text : List Char) (contentType : MediaTypeHeaderValue)
  | file (bytes : List UInt8) (contentType : MediaTypeHeaderValue)

/-- The path is the gateway's own. -/
def bypassesRouting (request : HttpRequest) : Bool :=
  request.path.any fun path =>
    "/swagger".toList.isPrefixOf (path.value.map Char.toLower) ||
      "/favicon".toList.isPrefixOf (path.value.map Char.toLower)

def jsonMediaType : MediaTypeHeaderValue := ⟨"application/json".toList, []⟩

/-- The response that `ForwardRequestAsync` returns. -/
def forwarded (client : HttpClient) : Forwarded → Except CsException HttpResponseMessage
  | .badRequest _ => .ok ⟨400, none, none, []⟩
  | .send message => client.sendAsync message

def handleRequest (framework : Framework) (encodings : Encodings) (routes : Routes)
    (client : HttpClient) (request : HttpRequest) : Except CsException ActionResult := do
  if bypassesRouting request then return .notFound
  else do
    let response ← forwarded client (← forwardRequestAsync framework routes request)
    if !response.isSuccessStatusCode then do
      let textContent ← response.readAsString encodings
      return .statusCode response.statusCode textContent
    else do
      let contentType := response.contentType.getD jsonMediaType
      if "application/json".toList.isPrefixOf contentType.text then do
        let textContent ← response.readAsString encodings
        return .content response.statusCode textContent contentType
      else
        -- images and everything else alike
        return .file response.body contentType

/-! ### What the platform makes of it -/

/-- The formatter that the request's `Accept` selects for a text. -/
inductive OutputFormatter where
  | string
  | json

structure Mvc where
  encodings : Encodings
  formatter : HttpRequest → OutputFormatter
  /-- The encoding that the request's `Accept-Charset` selects, UTF-8 where it selects none. -/
  encoding : HttpRequest → OutputEncoding
  /-- A character in a JSON text. -/
  escape : Char → List Char
  escape_ne_nil : ∀ c, escape c ≠ []
  problemDetails : HttpRequest → List UInt8

structure SentResponse where
  statusCode : Nat
  contentType : MediaTypeHeaderValue
  body : List UInt8

def charsetParameter (output : OutputEncoding) : List Char × List Char :=
  ("charset".toList, output.webName)

def plainText (output : OutputEncoding) : MediaTypeHeaderValue :=
  ⟨"text/plain".toList, [charsetParameter output]⟩

namespace Mvc

variable (mvc : Mvc) (request : HttpRequest)

def jsonText (text : List Char) : List Char := '"' :: text.flatMap mvc.escape ++ ['"']

/-- The type and the bytes of a text that a formatter writes. -/
def format (text : List Char) : MediaTypeHeaderValue × List UInt8 :=
  match mvc.formatter request with
  | .string => (plainText (mvc.encoding request), (mvc.encoding request).encoding.getBytes text)
  | .json =>
      (⟨"application/json".toList, [charsetParameter (mvc.encoding request)]⟩,
        (mvc.encoding request).encoding.getBytes (mvc.jsonText text))

/-- A result that is executed. -/
def execute : ActionResult → SentResponse
  | .notFound =>
      ⟨404, ⟨"application/problem+json".toList, [charsetParameter (mvc.encoding request)]⟩,
        mvc.problemDetails request⟩
  | .statusCode code value => ⟨code, (mvc.format request value).1, (mvc.format request value).2⟩
  | .content code text contentType =>
      let encoding := (contentType.charset?.bind mvc.encodings.find?).getD Encoding.utf8
      ⟨code, contentType, encoding.getBytes text⟩
  | .file bytes contentType => ⟨200, contentType, bytes⟩

end Mvc

/-! ### When a response is relayed as it was -/

/-- The response that is sent has the status, the bytes, and the type if there was one. -/
def Relays (mvc : Mvc) (request : HttpRequest) (response : HttpResponseMessage)
    (result : Except CsException ActionResult) : Prop :=
  ∃ action, result = .ok action ∧ (mvc.execute request action).statusCode = response.statusCode ∧
    (∀ contentType ∈ response.contentType, SameType (mvc.execute request action).contentType contentType) ∧
    (mvc.execute request action).body = response.body

/-- The body is read as a text and written again without a loss. -/
def KeepsText (encodings : Encodings) (response : HttpResponseMessage) : Prop :=
  match response.charset? with
  | none => ByteOrderMark.Unmarked response.body
  | some name => ∃ encoding, encodings.find? name = some encoding ∧ encoding.Writes response.body

/-- What is no success has to be plain text for a client that takes it, in the charset that the client
takes. Where it has no type it is read as UTF-8, so for a client that takes UTF-16 only what comes out
as the same bytes by chance, as no bytes at all do. -/
def KeepsPlainText (mvc : Mvc) (request : HttpRequest) (response : HttpResponseMessage) : Prop :=
  match response.contentType with
  | some contentType => mvc.formatter request = .string ∧
      SameType (plainText (mvc.encoding request)) contentType ∧
      (mvc.encoding request).encoding.Writes response.body
  | none =>
      match mvc.encoding request with
      | .utf8 => mvc.formatter request = .string ∧ ByteOrderMark.Unmarked response.body
      | .unicode =>
          (mvc.format request (ByteOrderMark.read HttpResponseMessage.marks response.body)).2 =
            response.body

/-- What is JSON has to be a text in its charset, what is another success has to have the status of a
file, and what is no success has to be plain text. -/
def Relayable (mvc : Mvc) (request : HttpRequest) (response : HttpResponseMessage) : Prop :=
  if response.isSuccessStatusCode then
    if "application/json".toList.isPrefixOf (response.contentType.getD jsonMediaType).text then
      KeepsText mvc.encodings response
    else response.statusCode = 200
  else KeepsPlainText mvc request response

/-- What comes in the end of a redirect is a response of the same status whose text is written as the
redirect was, as where redirects lead back until no more of them are followed. -/
def LeadsBack (mvc : Mvc) (request : HttpRequest) (response : HttpResponseMessage)
    (result : Except CsException HttpResponseMessage) : Prop :=
  ∃ last text, result = .ok last ∧ last.statusCode = response.statusCode ∧
    last.readAsString mvc.encodings = .ok text ∧
    (∀ contentType ∈ response.contentType, SameType (mvc.format request text).1 contentType) ∧
    (mvc.format request text).2 = response.body

theorem sameType_refl (contentType : MediaTypeHeaderValue) : SameType contentType contentType := by
  refine ⟨beq_self_eq_true _, List.forall₂_same.mpr ?_⟩
  intro parameter _
  exact ⟨beq_self_eq_true _, .inl rfl⟩

/-- A type that is the same as one with a charset has it too. -/
theorem charset_of_sameType {mediaType : List Char} {output : OutputEncoding}
    {contentType : MediaTypeHeaderValue}
    (h : SameType ⟨mediaType, [charsetParameter output]⟩ contentType) :
    ∃ name, contentType.charset? = some name ∧ equalsIgnoreCase name output.webName = true := by
  obtain ⟨other, parameters⟩ := contentType
  obtain ⟨-, hparameters⟩ := h
  have hunquoted : unquoted output.webName = output.webName := by
    cases output with
    | utf8 => rfl
    | unicode => rfl
  cases hparameters with
  | cons hsame hnone =>
      rename_i parameter _
      cases hnone
      obtain ⟨hname, hvalue⟩ := hsame
      have hcharset : equalsIgnoreCase parameter.1 "charset".toList = true := by
        rw [equalsIgnoreCase, beq_iff_eq] at hname ⊢
        exact hname.symm
      refine ⟨unquoted parameter.2, ?_, ?_⟩
      · rw [MediaTypeHeaderValue.charset?, List.find?_cons, hcharset]
        rfl
      · rw [charsetParameter, hunquoted] at hvalue
        obtain hvalue | ⟨-, hvalue⟩ := hvalue
        · rw [← hvalue]
          exact beq_self_eq_true _
        · rw [equalsIgnoreCase, beq_iff_eq] at hvalue ⊢
          exact hvalue.symm

/-- A body is read in the encoding that its type names. -/
theorem readAsString_of_sameType {encodings : Encodings} {response : HttpResponseMessage}
    {mediaType : List Char} {output : OutputEncoding} {contentType : MediaTypeHeaderValue}
    (htype : response.contentType = some contentType)
    (h : SameType ⟨mediaType, [charsetParameter output]⟩ contentType) :
    response.readAsString encodings = .ok (output.encoding.read response.body) := by
  obtain ⟨name, hname, hsame⟩ := charset_of_sameType h
  unfold HttpResponseMessage.readAsString HttpResponseMessage.charset?
  rw [htype, Option.bind_some, hname]
  dsimp only
  rw [output.find?_webName encodings hsame]

theorem readAsString_of_none {encodings : Encodings} {response : HttpResponseMessage}
    (htype : response.contentType = none) :
    response.readAsString encodings =
      .ok (ByteOrderMark.read HttpResponseMessage.marks response.body) := by
  unfold HttpResponseMessage.readAsString HttpResponseMessage.charset?
  rw [htype]
  rfl

/-- A text is not the JSON text of itself. -/
theorem jsonText_ne (mvc : Mvc) (text : List Char) : mvc.jsonText text ≠ text := by
  have hlength : text.length ≤ (text.flatMap mvc.escape).length := by
    induction text with
    | nil => exact Nat.le_refl _
    | cons c rest ih =>
        have hc := List.length_pos_iff.mpr (mvc.escape_ne_nil c)
        rw [List.flatMap_cons, List.length_append, List.length_cons]
        omega
  intro h
  have heq := congrArg List.length h
  rw [Mvc.jsonText, List.cons_append, List.length_cons, List.length_append] at heq
  omega

/-- So a body is not written again as the JSON text of what was read. -/
theorem getBytes_jsonText_ne (mvc : Mvc) (output : OutputEncoding) (bytes : List UInt8) :
    output.encoding.getBytes (mvc.jsonText (output.encoding.read bytes)) ≠ bytes := by
  intro h
  have hstart : ¬ output.encoding.preamble <+: bytes := by
    rw [← h]
    intro hstart
    exact absurd (OutputEncoding.eq_of_preamble hstart) (by decide)
  have hread := congrArg output.encoding.getString h
  rw [output.getString_getBytes] at hread
  have hsame : output.encoding.read bytes = output.encoding.getString bytes :=
    if_neg (mt List.isPrefixOf_iff_prefix.mp hstart)
  rw [hsame] at hread
  exact jsonText_ne mvc _ hread

theorem encode_jsonText_ne (mvc : Mvc) (bytes : List UInt8) :
    Utf8.encode (mvc.jsonText (ByteOrderMark.read HttpResponseMessage.marks bytes)) ≠ bytes := by
  intro h
  have hunmarked : ByteOrderMark.Unmarked bytes := by
    refine ⟨⟨_, h⟩, ?_⟩
    rw [← h]
    intro hstart
    exact absurd (List.cons_prefix_cons.mp hstart).1 (by decide)
  have hboth := congrArg Utf8.decode
    (h.trans (HttpResponseMessage.encode_read_marks_iff.mpr hunmarked).symm)
  rw [Utf8.decode_encode, Utf8.decode_encode] at hboth
  exact jsonText_ne mvc _ hboth

section Results

variable {mvc : Mvc} {request : HttpRequest} {response : HttpResponseMessage}

theorem relays_error {e : CsException} : ¬ Relays mvc request response (.error e) := by
  intro ⟨_, h, _⟩
  cases h

theorem relays_ok {action : ActionResult} : Relays mvc request response (.ok action) ↔
    (mvc.execute request action).statusCode = response.statusCode ∧
      (∀ contentType ∈ response.contentType,
        SameType (mvc.execute request action).contentType contentType) ∧
      (mvc.execute request action).body = response.body := by
  constructor
  · intro ⟨_, h, hrelays⟩
    cases h
    exact hrelays
  · intro hrelays
    exact ⟨action, rfl, hrelays⟩

/-- No success: the text of what came in the end goes through a formatter. -/
theorem relays_statusCode_iff {last : HttpResponseMessage} :
    Relays mvc request response (do
      let textContent ← last.readAsString mvc.encodings
      return .statusCode last.statusCode textContent) ↔
      last.statusCode = response.statusCode ∧ ∃ text, last.readAsString mvc.encodings = .ok text ∧
        (∀ contentType ∈ response.contentType, SameType (mvc.format request text).1 contentType) ∧
        (mvc.format request text).2 = response.body := by
  constructor
  · intro ⟨action, haction, hstatus, hrest⟩
    obtain ⟨text, htext, heq⟩ := bind_eq_ok_iff.mp haction
    cases heq
    exact ⟨hstatus, text, htext, hrest⟩
  · intro ⟨hstatus, text, htext, hrest⟩
    exact ⟨.statusCode last.statusCode text, bind_eq_ok_iff.mpr ⟨text, htext, rfl⟩, hstatus, hrest⟩

theorem format_string (h : mvc.formatter request = .string) (text : List Char) :
    mvc.format request text =
      (plainText (mvc.encoding request), (mvc.encoding request).encoding.getBytes text) := by
  rw [Mvc.format, h]

theorem format_json (h : mvc.formatter request = .json) (text : List Char) :
    mvc.format request text =
      (⟨"application/json".toList, [charsetParameter (mvc.encoding request)]⟩,
        (mvc.encoding request).encoding.getBytes (mvc.jsonText text)) := by
  rw [Mvc.format, h]

/-- The text is written as the response was exactly where the response is plain text. -/
theorem keepsPlainText_iff :
    (∃ text, response.readAsString mvc.encodings = .ok text ∧
      (∀ contentType ∈ response.contentType, SameType (mvc.format request text).1 contentType) ∧
      (mvc.format request text).2 = response.body) ↔
      KeepsPlainText mvc request response := by
  unfold KeepsPlainText
  cases htype : response.contentType with
  | some contentType =>
      constructor
      · intro ⟨text, htext, hsame, hbody⟩
        have hsame := hsame contentType rfl
        cases hformatter : mvc.formatter request with
        | string =>
            rw [format_string hformatter] at hsame hbody
            cases (readAsString_of_sameType htype hsame).symm.trans htext
            exact ⟨rfl, hsame, (Encoding.getBytes_read_iff _).mp hbody⟩
        | json =>
            rw [format_json hformatter] at hsame hbody
            cases (readAsString_of_sameType htype hsame).symm.trans htext
            exact absurd hbody (getBytes_jsonText_ne mvc _ _)
      · intro ⟨hformatter, hsame, hwrites⟩
        refine ⟨_, readAsString_of_sameType htype hsame, ?_, ?_⟩
        · rintro _ ⟨⟩
          rw [format_string hformatter]
          exact hsame
        · rw [format_string hformatter]
          exact (Encoding.getBytes_read_iff _).mpr hwrites
  | none =>
      have hread : ∀ P : List Char → Prop,
          (∃ text, response.readAsString mvc.encodings = .ok text ∧ P text) ↔
            P (ByteOrderMark.read HttpResponseMessage.marks response.body) := by
        intro P
        rw [readAsString_of_none htype]
        simp
      rw [hread, and_iff_right nofun]
      cases hencoding : mvc.encoding request with
      | unicode => rfl
      | utf8 =>
          cases hformatter : mvc.formatter request with
          | string =>
              rw [format_string hformatter, hencoding, and_iff_right rfl]
              exact HttpResponseMessage.encode_read_marks_iff
          | json =>
              rw [format_json hformatter, hencoding]
              refine iff_of_false (encode_jsonText_ne mvc _) ?_
              intro ⟨hstring, _⟩
              cases hstring

/-- The type that a success is relayed with. -/
theorem sameType_getD : ∀ contentType ∈ response.contentType,
    SameType (response.contentType.getD jsonMediaType) contentType := by
  intro contentType htype
  rw [htype]
  exact sameType_refl contentType

theorem charset_getD : (response.contentType.getD jsonMediaType).charset? = response.charset? := by
  unfold HttpResponseMessage.charset?
  cases response.contentType with
  | none => rfl
  | some contentType => rfl

/-- JSON: the text is written again. -/
theorem relays_content_iff :
    Relays mvc request response (do
      let textContent ← response.readAsString mvc.encodings
      return .content response.statusCode textContent (response.contentType.getD jsonMediaType)) ↔
      KeepsText mvc.encodings response := by
  have hrelays : ∀ text, Relays mvc request response
      (.ok (.content response.statusCode text (response.contentType.getD jsonMediaType))) ↔
      ((response.charset?.bind mvc.encodings.find?).getD Encoding.utf8).getBytes text = response.body := by
    intro text
    rw [relays_ok, ← charset_getD]
    constructor
    · intro ⟨_, _, hbody⟩
      exact hbody
    · intro hbody
      exact ⟨rfl, sameType_getD, hbody⟩
  unfold KeepsText HttpResponseMessage.readAsString
  cases hcharset : response.charset? with
  | none =>
      refine (hrelays _).trans ?_
      rw [hcharset]
      exact HttpResponseMessage.encode_read_marks_iff
  | some name =>
      dsimp only
      cases hfind : mvc.encodings.find? name with
      | none =>
          refine iff_of_false relays_error ?_
          intro ⟨_, h, _⟩
          cases h
      | some encoding =>
          refine (hrelays _).trans ?_
          rw [hcharset, Option.bind_some, hfind, Option.getD_some, encoding.getBytes_read_iff]
          simp

/-- A file has the status 200. -/
theorem relays_file_iff :
    Relays mvc request response
        (.ok (.file response.body (response.contentType.getD jsonMediaType))) ↔
      response.statusCode = 200 := by
  rw [relays_ok]
  constructor
  · intro ⟨hstatus, _⟩
    exact hstatus.symm
  · intro hstatus
    exact ⟨hstatus.symm, sameType_getD, rfl⟩

end Results

/-- The response to a request that is forwarded is relayed as it was exactly where it is JSON that is a
text in its charset, or anything else with the status 200, or no success but plain text for a client
that takes it; or where it is a redirect that leads back to the same in the end. -/
theorem relays_iff (mvc : Mvc) (framework : Framework) (routes : Routes) (client : HttpClient)
    (request : HttpRequest) (message : HttpRequestMessage) (hrouted : bypassesRouting request = false)
    (hsend : forwardRequestAsync framework routes request = .ok (.send message)) :
    Relays mvc request (client.downstream message)
        (handleRequest framework mvc.encodings routes client request) ↔
      if (client.downstream message).isRedirect then
        LeadsBack mvc request (client.downstream message)
          (client.follow message (client.downstream message))
      else Relayable mvc request (client.downstream message) := by
  have hforwarded : ∀ {last}, client.sendAsync message = .ok last →
      handleRequest framework mvc.encodings routes client request =
        if !last.isSuccessStatusCode then do
          let textContent ← last.readAsString mvc.encodings
          return .statusCode last.statusCode textContent
        else if "application/json".toList.isPrefixOf (last.contentType.getD jsonMediaType).text then do
          let textContent ← last.readAsString mvc.encodings
          return .content last.statusCode textContent (last.contentType.getD jsonMediaType)
        else .ok (.file last.body (last.contentType.getD jsonMediaType)) := by
    intro last hlast
    rw [handleRequest, hrouted, hsend]
    show (do let response ← client.sendAsync message; _) = _
    rw [hlast]
    rfl
  generalize hresponse : client.downstream message = response at hforwarded ⊢
  cases hredirect : response.isRedirect with
  | false =>
      have hlast : client.sendAsync message = .ok response := by
        rw [HttpClient.sendAsync, hresponse, hredirect]
        rfl
      rw [hforwarded hlast, if_neg Bool.false_ne_true, Relayable]
      cases response.isSuccessStatusCode with
      | false =>
          refine relays_statusCode_iff.trans ?_
          rw [and_iff_right rfl]
          exact keepsPlainText_iff
      | true =>
          rw [Bool.not_true, if_neg Bool.false_ne_true, if_pos rfl]
          split
          · exact relays_content_iff
          · exact relays_file_iff
  | true =>
      obtain ⟨hcode, hsuccess⟩ := HttpResponseMessage.not_success_of_isRedirect hredirect
      have hlast : client.sendAsync message = client.follow message response := by
        rw [HttpClient.sendAsync, hresponse, hredirect]
        rfl
      rw [if_pos rfl]
      cases hfollow : client.follow message response with
      | error e =>
          rw [hfollow] at hlast
          have herror : handleRequest framework mvc.encodings routes client request = .error e := by
            rw [handleRequest, hrouted, hsend]
            show (do let response ← client.sendAsync message; _) = _
            rw [hlast]
            rfl
          rw [herror]
          refine iff_of_false relays_error ?_
          intro ⟨_, _, heq, _⟩
          cases heq
      | ok last =>
          rw [hforwarded (hlast.trans hfollow)]
          have hback : LeadsBack mvc request response (.ok last) ↔
              last.statusCode = response.statusCode ∧ ∃ text,
                last.readAsString mvc.encodings = .ok text ∧
                (∀ contentType ∈ response.contentType,
                  SameType (mvc.format request text).1 contentType) ∧
                (mvc.format request text).2 = response.body := by
            constructor
            · rintro ⟨_, text, ⟨⟩, hstatus, hrest⟩
              exact ⟨hstatus, text, hrest⟩
            · intro ⟨hstatus, text, hrest⟩
              exact ⟨last, text, rfl, hstatus, hrest⟩
          rw [hback]
          cases hok : last.isSuccessStatusCode with
          | false => exact relays_statusCode_iff
          | true =>
              -- the status of a success is none of a redirect
              have hdiffers : last.statusCode ≠ response.statusCode := by
                intro hsame
                rw [HttpResponseMessage.isSuccessStatusCode, hsame,
                  ← HttpResponseMessage.isSuccessStatusCode, hsuccess] at hok
                cases hok
              rw [Bool.not_true, if_neg Bool.false_ne_true]
              refine iff_of_false ?_ fun h => hdiffers h.1
              split
              · intro ⟨action, haction, hstatus, _⟩
                obtain ⟨text, -, heq⟩ := bind_eq_ok_iff.mp haction
                cases heq
                exact hdiffers hstatus
              · intro hrelays
                exact hcode (relays_ok.mp hrelays).1.symm

/-! ### A book that is there and one that is not -/

/-- `GET /books/9` -/
def bookRequest : HttpRequest where
  method := "GET".toList
  path := some ⟨"/books/9".toList, .inr rfl⟩
  queryString := .empty
  contentType := none
  headers := []
  body := []

def bookMessage : HttpRequestMessage where
  method := "GET".toList
  requestUri := ⟨"bookhub-book-service:8003".toList, ["9".toList], []⟩
  content := .string [] "application/json".toList
  headers := []

theorem sends_book :
    forwardRequestAsync plainFramework appsettings bookRequest = .ok (.send bookMessage) := by
  rfl

/-- A platform that is asked for no JSON and no charset. -/
def plainMvc : Mvc where
  encodings :=
    { find? := fun name =>
        if equalsIgnoreCase name "utf-8".toList then some Encoding.utf8
        else if equalsIgnoreCase name "utf-16".toList then some Encoding.unicode
        else none
      utf8 := fun _ h => if_pos h
      unicode := fun name h => by
        have hno : equalsIgnoreCase name "utf-8".toList = false := by
          rw [equalsIgnoreCase, beq_iff_eq] at h
          rw [equalsIgnoreCase, h]
          decide
        rw [if_neg (Bool.eq_false_iff.mp hno), if_pos h] }
  formatter := fun _ => .string
  encoding := fun _ => .utf8
  escape := fun c => if c = '"' then ['\\', '"'] else [c]
  escape_ne_nil := fun c => by split <;> exact List.cons_ne_nil _ _
  problemDetails := fun _ => []

def foundBook : HttpResponseMessage where
  statusCode := 200
  location := none
  contentType := some jsonMediaType
  body := Utf8.encode "\x7b\"id\":9,\"title\":\"Momo\"\x7d".toList

def missingBook : HttpResponseMessage where
  statusCode := 404
  location := none
  contentType := some jsonMediaType
  body := Utf8.encode "\x7b\"detail\":\"Book not found\"\x7d".toList

/-- A service that always answers so. -/
def answering (response : HttpResponseMessage) : HttpClient := ⟨fun _ => response, fun _ => .ok⟩

theorem relays_foundBook : Relays plainMvc bookRequest foundBook
    (handleRequest plainFramework plainMvc.encodings appsettings (answering foundBook) bookRequest) :=
  (relays_iff plainMvc plainFramework appsettings (answering foundBook) bookRequest bookMessage (by decide)
    sends_book).mpr ⟨Utf8.isUtf8_encode _, by decide⟩

theorem not_relays :
    ¬ ∀ (mvc : Mvc) (framework : Framework) (routes : Routes) (client : HttpClient)
        (request : HttpRequest) (message : HttpRequestMessage), bypassesRouting request = false →
      forwardRequestAsync framework routes request = .ok (.send message) →
      Relays mvc request (client.downstream message)
        (handleRequest framework mvc.encodings routes client request) := by
  intro h
  obtain ⟨action, haction, -, htype, -⟩ := h plainMvc plainFramework appsettings (answering missingBook)
    bookRequest bookMessage (by decide) sends_book
  have hanswer : handleRequest plainFramework plainMvc.encodings appsettings (answering missingBook)
      bookRequest = .ok (.statusCode 404 (ByteOrderMark.read HttpResponseMessage.marks missingBook.body)) := by
    rfl
  cases hanswer.symm.trans haction
  obtain ⟨hsame, -⟩ := htype jsonMediaType rfl
  revert hsame
  decide

end BookHub.ApiGateway
