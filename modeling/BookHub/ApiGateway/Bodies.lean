import BookHub.ApiGateway.Contents

/-!
# Bodies that are no forms

The body is read as a text and written again, so what is no UTF-8 is lost, and a mark in front of it.
The type is handed to a constructor that takes no parameters.
-/

namespace BookHub.ApiGateway

/-- `new StreamReader(request.Body, Encoding.UTF8, leaveOpen: true)`, read to the end: the marks in the
order in which they are looked for. -/
def streamReader : List UInt8 → List Char :=
  ByteOrderMark.read [ByteOrderMark.utf16Be, ByteOrderMark.utf32Le, ByteOrderMark.utf16Le,
    ByteOrderMark.utf8, ByteOrderMark.utf32Be]

theorem encode_streamReader_iff {bytes : List UInt8} :
    Utf8.encode (streamReader bytes) = bytes ↔ ByteOrderMark.Unmarked bytes := by
  apply ByteOrderMark.encode_read_iff
  · intro mark hmark
    simp only [List.mem_cons, List.not_mem_nil, or_false] at hmark
    obtain rfl | rfl | rfl | rfl | rfl := hmark
    · exact .inr ⟨0xFE, by decide, by decide⟩
    · exact .inr ⟨0xFF, by decide, by decide⟩
    · exact .inr ⟨0xFF, by decide, by decide⟩
    · exact .inl rfl
    · exact .inr ⟨0xFE, by decide, by decide⟩
  · simp

/-- What is sent has the bytes of the body and a type that means the same. -/
def Unchanged (writeHeader : PartHeader → List Multipart.HeaderLine) (contentType : ContentType)
    (body : List UInt8) (content : HttpContent) : Prop :=
  content.bytes writeHeader = body ∧ Equivalent content.contentType contentType

theorem not_unchanged_multipart {writeHeader : PartHeader → List Multipart.HeaderLine}
    {contentType : ContentType} {body : List UInt8} {boundary : List Char} {parts : List Part}
    (hother : equalsIgnoreCase contentType.mediaType "multipart/form-data".toList = false) :
    ¬ Unchanged writeHeader contentType body (.multipart boundary parts) := by
  intro ⟨_, hsame, _⟩
  rw [equalsIgnoreCase, beq_iff_eq] at hsame
  rw [equalsIgnoreCase, beq_eq_false_iff_ne] at hother
  exact hother hsame.symm

theorem equivalent_of_no_parameters {contentType : ContentType} (h : contentType.parameters = []) :
    Equivalent (contentType.render, [("charset".toList, "utf-8".toList)]) contentType := by
  have hpairs : contentType.nameValues = [] := by
    rw [ContentType.nameValues, h]
    rfl
  refine ⟨?_, [("charset".toList, "utf-8".toList)], .inr ⟨rfl, ?_⟩, ?_⟩
  · rw [ContentType.render, h, List.flatMap_nil, List.append_nil]
    exact beq_self_eq_true _
  · intro pair hpair
    rw [hpairs] at hpair
    cases hpair
  · rw [hpairs]
    exact .cons ⟨beq_self_eq_true _, rfl⟩ .nil

/-- A body of any other type than that of forms is forwarded as it is exactly where its type has no
parameter and nowhere the name of that of forms in it, and the body is UTF-8 without a mark. -/
theorem forwards_body_iff (writeHeader : PartHeader → List Multipart.HeaderLine) (framework : Framework)
    (routes : Routes) (request : HttpRequest) (contentType : ContentType)
    (hrouted : Routed routes request) (htype : request.contentType = some contentType.render)
    (hother : equalsIgnoreCase contentType.mediaType "multipart/form-data".toList = false) :
    (∃ message,
        forwardRequestAsync { framework with readToEnd := streamReader } routes request =
          .ok (.send message) ∧
        Unchanged writeHeader contentType request.body message.content) ↔
      contentType.parameters = [] ∧
        ¬ "multipart/form-data".toList <:+: contentType.render ∧
        ByteOrderMark.Unmarked request.body := by
  rw [sends_iff hrouted]
  by_cases hform : "multipart/form-data".toList <:+: contentType.render
  · refine iff_of_false ?_ fun h => h.2.1 hform
    intro ⟨content, hbuild, hunchanged⟩
    rw [← afterFirst_isSome_iff] at hform
    have hbranch := multipartContentType_eq htype
    rw [if_pos hform] at hbranch
    obtain ⟨_, _, _, _, _, _, _, _, _, rfl⟩ := (buildContent_multipart_iff hbranch).mp hbuild
    exact not_unchanged_multipart hother hunchanged
  · rw [and_iff_right hform]
    rw [← afterFirst_isSome_iff] at hform
    have hbranch := multipartContentType_eq htype
    rw [if_neg hform] at hbranch
    simp only [buildContent_string_iff hbranch, htype, Option.getD_some, isMediaType_render_iff]
    constructor
    · intro ⟨_, ⟨hnone, rfl⟩, hbytes, _⟩
      exact ⟨hnone, encode_streamReader_iff.mp hbytes⟩
    · intro ⟨hnone, hunmarked⟩
      exact ⟨_, ⟨hnone, rfl⟩, encode_streamReader_iff.mpr hunmarked, equivalent_of_no_parameters hnone⟩

/-- `PUT /users/7` with a name. -/
def renameRequest (contentType : ContentType) : HttpRequest where
  method := "PUT".toList
  path := some ⟨"/users/7".toList, .inr rfl⟩
  queryString := .empty
  contentType := some contentType.render
  headers := []
  body := Utf8.encode "\x7b\"name\":\"Zoë\"\x7d".toList

def jsonType : ContentType where
  type := "application".toList
  subtype := "json".toList
  typeToken := by decide
  subtypeToken := by decide
  parameters := []

/-- With a charset, as many clients write it. -/
def jsonTypeWithCharset : ContentType where
  type := "application".toList
  subtype := "json".toList
  typeToken := by decide
  subtypeToken := by decide
  parameters := [.spaced ⟨"charset".toList, by decide, .token "utf-8".toList (by decide)⟩]

example : jsonTypeWithCharset.render = "application/json; charset=utf-8".toList := by rfl

theorem routed_renameRequest (contentType : ContentType) :
    Routed appsettings (renameRequest contentType) :=
  ⟨"users".toList, _, ⟨"bookhub-user-service:8002".toList, [['7']], []⟩, rfl, rfl, by rfl, by rfl⟩

theorem forwards_rename :
    ∃ message,
      forwardRequestAsync { plainFramework with readToEnd := streamReader } appsettings
        (renameRequest jsonType) = .ok (.send message) ∧
      Unchanged (fun _ => []) jsonType (renameRequest jsonType).body message.content :=
  (forwards_body_iff (fun _ => []) plainFramework appsettings (renameRequest jsonType) jsonType
    (routed_renameRequest jsonType) rfl (by decide)).mpr
    ⟨rfl, by decide, Utf8.isUtf8_encode _, by decide⟩

theorem not_forwards_body :
    ¬ ∀ (writeHeader : PartHeader → List Multipart.HeaderLine) (framework : Framework) (routes : Routes)
        (request : HttpRequest) (contentType : ContentType),
      Routed routes request → request.contentType = some contentType.render →
      equalsIgnoreCase contentType.mediaType "multipart/form-data".toList = false →
      ∃ message,
        forwardRequestAsync { framework with readToEnd := streamReader } routes request =
          .ok (.send message) ∧
        Unchanged writeHeader contentType request.body message.content := by
  intro h
  obtain ⟨message, hsend, -⟩ := h (fun _ => []) plainFramework appsettings
    (renameRequest jsonTypeWithCharset) jsonTypeWithCharset (routed_renameRequest _) rfl (by decide)
  have hrefused : forwardRequestAsync { plainFramework with readToEnd := streamReader } appsettings
      (renameRequest jsonTypeWithCharset) = .error .formatException := by
    rfl
  rw [hrefused] at hsend
  cases hsend

end BookHub.ApiGateway
