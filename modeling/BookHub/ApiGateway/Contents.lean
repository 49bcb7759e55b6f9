import BookHub.Base.Multipart
import BookHub.Base.Utf8
import BookHub.ApiGateway.Forwarding

/-!
# Contents and their types

A `Content-Type` is a type and a subtype with any number of parameters behind them, each after a
semicolon, its value a token or between quotes. The class that the gateway builds contents with takes
the type and the subtype only.
-/

namespace BookHub.ApiGateway

/-! ### The header `Content-Type` -/

/-- What may stand between quotes: no control character but a tab. -/
def isQuotable (c : Char) : Bool := c == '\t' || (0x20 ≤ c.toNat && c.toNat != 0x7F)

/-- A character between quotes; a quote and a backslash stand behind a backslash, others may. -/
structure QuotedChar where
  char : Char
  escaped : Bool
  valid : isQuotable char = true
  marked : char = '"' ∨ char = '\\' → escaped = true

def QuotedChar.render (c : QuotedChar) : List Char := if c.escaped then ['\\', c.char] else [c.char]

inductive ParameterValue where
  | token (text : List Char) (valid : isToken text = true)
  | quoted (chars : List QuotedChar)

namespace ParameterValue

def render : ParameterValue → List Char
  | .token text _ => text
  | .quoted chars => '"' :: chars.flatMap QuotedChar.render ++ ['"']

/-- Without the quotes and the backslashes. -/
def text : ParameterValue → List Char
  | .token text _ => text
  | .quoted chars => chars.map QuotedChar.char

end ParameterValue

structure NameValue where
  name : List Char
  valid : isToken name = true
  value : ParameterValue

/-- A semicolon with blanks around it; there may be nothing behind it. -/
structure Parameter where
  before : List Char
  after : List Char
  blank : (before ++ after).all (fun c => c == ' ' || c == '\t') = true
  nameValue : Option NameValue

/-- With one blank in front, as it is usually written. -/
def Parameter.spaced (nameValue : NameValue) : Parameter := ⟨[], [' '], by decide, some nameValue⟩

def Parameter.render (parameter : Parameter) : List Char :=
  parameter.before ++ ';' :: parameter.after ++
    parameter.nameValue.elim [] fun pair => pair.name ++ '=' :: pair.value.render

structure ContentType where
  type : List Char
  subtype : List Char
  typeToken : isToken type = true
  subtypeToken : isToken subtype = true
  parameters : List Parameter

namespace ContentType

def mediaType (contentType : ContentType) : List Char := contentType.type ++ '/' :: contentType.subtype

def render (contentType : ContentType) : List Char :=
  contentType.mediaType ++ contentType.parameters.flatMap Parameter.render

/-- The names of the parameters with their values. -/
def nameValues (contentType : ContentType) : List (List Char × List Char) :=
  contentType.parameters.filterMap fun parameter =>
    parameter.nameValue.map fun pair => (pair.name, pair.value.text)

end ContentType

theorem slash_not_mem_of_isToken {text : List Char} (h : isToken text = true) : '/' ∉ text := by
  intro hmem
  have hslash := List.all_eq_true.mp (Bool.and_eq_true_iff.mp h).2 '/' hmem
  exact absurd hslash (by decide)

/-- A type without parameters, and no other, is what the constructor of the platform takes. -/
theorem isMediaType_render_iff (contentType : ContentType) :
    isMediaType contentType.render = true ↔ contentType.parameters = [] := by
  have hrender : contentType.render = contentType.type ++ '/' ::
      (contentType.subtype ++ contentType.parameters.flatMap Parameter.render) := by
    rw [ContentType.render, ContentType.mediaType, List.append_assoc, List.cons_append]
  have hbefore : ∀ c ∈ contentType.type, (c != '/') = true := by
    intro c hc
    rw [bne_iff_ne]
    intro heq
    exact slash_not_mem_of_isToken contentType.typeToken (heq ▸ hc)
  have htype : contentType.render.takeWhile (· != '/') = contentType.type := by
    rw [hrender, List.takeWhile_append_of_pos hbefore, List.takeWhile_cons_of_neg (by decide),
      List.append_nil]
  have hrest : (contentType.render.dropWhile (· != '/')).drop 1 =
      contentType.subtype ++ contentType.parameters.flatMap Parameter.render := by
    rw [hrender, List.dropWhile_append_of_pos hbefore, List.dropWhile_cons_of_neg (by decide)]
    rfl
  rw [isMediaType, htype, hrest, contentType.typeToken, Bool.true_and]
  constructor
  · intro h
    cases hparameters : contentType.parameters with
    | nil => rfl
    | cons parameter parameters =>
        have hmem : ';' ∈ contentType.subtype ++ contentType.parameters.flatMap Parameter.render := by
          rw [hparameters, List.flatMap_cons, Parameter.render]
          simp
        have hsemicolon := List.all_eq_true.mp (Bool.and_eq_true_iff.mp h).2 ';' hmem
        exact absurd hsemicolon (by decide)
  · intro hnone
    rw [hnone, List.flatMap_nil, List.append_nil]
    exact contentType.subtypeToken

/-! ### What a content is sent as -/

/-- What is written of a part in front of it. -/
structure PartHeader where
  name : List Char
  fileName : Option (List Char)
  contentType : List Char
  deriving DecidableEq

def Part.header (part : Part) : PartHeader where
  name := part.name
  fileName := part.fileName
  contentType :=
    match part.content with
    | .text _ => "text/plain; charset=utf-8".toList
    | .stream mediaType _ => mediaType

def Part.bytes (part : Part) : List UInt8 :=
  match part.content with
  | .text value => Utf8.encode value
  | .stream _ bytes => bytes

namespace HttpContent

/-- The type with its parameters; a text is sent with the encoding that it is written in. -/
def contentType : HttpContent → List Char × List (List Char × List Char)
  | .string _ mediaType => (mediaType, [("charset".toList, "utf-8".toList)])
  | .multipart boundary _ => ("multipart/form-data".toList, [("boundary".toList, boundary)])

def bytes (writeHeader : PartHeader → List Multipart.HeaderLine) : HttpContent → List UInt8
  | .string text _ => Utf8.encode text
  | .multipart boundary parts => Multipart.write (Utf8.encode boundary)
      (parts.map fun part => ⟨writeHeader part.header, part.bytes⟩)

end HttpContent

/-- The same type with the same parameters, up to the letter case of the names; a charset may be added
where there was none. -/
def Equivalent (sent : List Char × List (List Char × List Char)) (contentType : ContentType) : Prop :=
  equalsIgnoreCase sent.1 contentType.mediaType = true ∧
    ∃ added, (added = [] ∨ added = [("charset".toList, "utf-8".toList)] ∧
        ∀ pair ∈ contentType.nameValues, equalsIgnoreCase pair.1 "charset".toList = false) ∧
      List.Forall₂ (fun x y => equalsIgnoreCase x.1 y.1 = true ∧ x.2 = y.2) sent.2
        (contentType.nameValues ++ added)

/-! ### Which branch builds it -/

theorem afterFirst_isSome_iff {part text : List Char} :
    (afterFirst part text).isSome = true ↔ part <:+: text := by
  induction text with
  | nil =>
      rw [afterFirst, List.infix_nil]
      cases part <;> simp
  | cons c rest ih =>
      rw [afterFirst, List.infix_cons_iff, ← List.isPrefixOf_iff_prefix, ← ih]
      split
      · rename_i hstart
        simp [hstart]
      · rename_i hstart
        simp [hstart]

theorem multipartContentType_eq {request : HttpRequest} {text : List Char}
    (h : request.contentType = some text) :
    multipartContentType request =
      if (afterFirst "multipart/form-data".toList text).isSome then some text else none := by
  rw [multipartContentType, h, Option.filter]

end BookHub.ApiGateway
