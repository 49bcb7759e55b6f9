import BookHub.ApiGateway.Contents

/-!
# The boundary of a form

The boundary is cut out of the header by its text, so it arrives with its quotes, with the parameters
behind it, and not at all where its name has another letter case. Four dashes are put in front of it.
-/

namespace BookHub.ApiGateway

/-- The header has a parameter for the boundary, with a value that may be one. -/
def ContentType.HasBoundary (contentType : ContentType) : Prop :=
  ∃ pair ∈ contentType.nameValues, equalsIgnoreCase pair.1 "boundary".toList = true ∧
    isBoundary pair.2 = true

def isBoundaryChar (c : Char) : Bool := c.isAlphanum || "'()+_,-./:=? ".toList.contains c

/-- What can stand behind four dashes: no more than 66 characters of a boundary, the last one no
blank. -/
def FitsBehindDashes (piece : List Char) : Prop :=
  piece.length ≤ 66 ∧ piece.getLast? ≠ some ' ' ∧ piece.all isBoundaryChar = true

instance (piece : List Char) : Decidable (FitsBehindDashes piece) :=
  inferInstanceAs (Decidable (_ ∧ _ ∧ _))

theorem isBoundary_dashes_iff {piece : List Char} :
    isBoundary ("----".toList ++ piece) = true ↔ FitsBehindDashes piece := by
  have hblank : isNullOrWhiteSpace ("----".toList ++ piece) = false := by
    rw [isNullOrWhiteSpace, List.all_append]
    rfl
  have hlength : ("----".toList ++ piece).length = piece.length + 4 := by
    rw [List.length_append, Nat.add_comm]
    rfl
  have hlast : ("----".toList ++ piece).getLast? ≠ some ' ' ↔ piece.getLast? ≠ some ' ' := by
    cases piece with
    | nil => decide
    | cons c rest =>
        rw [List.getLast?_append, List.getLast?_eq_some_getLast (List.cons_ne_nil c rest)]
        rfl
  have hall : ("----".toList ++ piece).all isBoundaryChar = piece.all isBoundaryChar := by
    rw [List.all_append]
    rfl
  show (!isNullOrWhiteSpace _ && decide (_ ≤ 70) && (_ != some ' ') &&
    List.all _ isBoundaryChar) = true ↔ _
  rw [hblank, hlength, hall, Bool.and_eq_true_iff, Bool.and_eq_true_iff, Bool.not_false, Bool.true_and,
    decide_eq_true_eq, bne_iff_ne, hlast, and_assoc]
  apply and_congr_left
  intro _
  omega

/-- The name of the type and that of the boundary stand in the text in lower case, and what the split
leaves of the text behind the latter fits. -/
def CutsOut (text : List Char) : Prop :=
  "multipart/form-data".toList <:+: text ∧
    ∃ rest, afterFirst "boundary=".toList text = some rest ∧
      FitsBehindDashes (beforeFirst "boundary=".toList rest)

theorem parameters_ne_nil {contentType : ContentType} (h : contentType.HasBoundary) :
    contentType.parameters ≠ [] := by
  intro hnone
  obtain ⟨pair, hpair, -⟩ := h
  rw [ContentType.nameValues, hnone] at hpair
  cases hpair

theorem contentFits_form_iff {framework : Framework} {request : HttpRequest} {contentType : ContentType}
    {form : Form} (htype : request.contentType = some contentType.render)
    (hboundary : contentType.HasBoundary) (hform : framework.readForm request = .ok form) :
    ContentFits framework request ↔ CutsOut contentType.render ∧
      (∀ field ∈ form.fields, FieldFits field) ∧ ∀ file ∈ form.files, FileFits file := by
  have hbranch := multipartContentType_eq htype
  unfold ContentFits CutsOut
  by_cases hname : "multipart/form-data".toList <:+: contentType.render
  · rw [if_pos (afterFirst_isSome_iff.mpr hname)] at hbranch
    rw [hbranch, and_iff_right hname]
    simp only [hform, Except.ok.injEq, isBoundary_dashes_iff]
    constructor
    · intro ⟨_, rest, rfl, hrest, hfits, hfields, hfiles⟩
      exact ⟨⟨rest, hrest, hfits⟩, hfields, hfiles⟩
    · intro ⟨⟨rest, hrest, hfits⟩, hfields, hfiles⟩
      exact ⟨form, rest, rfl, hrest, hfits, hfields, hfiles⟩
  · rw [if_neg (mt afterFirst_isSome_iff.mp hname)] at hbranch
    rw [hbranch, htype]
    -- without its branch the whole header would have to be a type
    refine iff_of_false ?_ fun h => hname h.1.1
    intro htaken
    exact parameters_ne_nil hboundary ((isMediaType_render_iff contentType).mp htaken)

/-- A form whose header has a boundary is forwarded exactly where the boundary can be cut out of the
header, each field has a name that can be written, and each file has such names and a type without
parameters. -/
theorem forwards_form_iff (framework : Framework) (routes : Routes) (request : HttpRequest)
    (contentType : ContentType) (form : Form) (hrouted : Routed routes request)
    (htype : request.contentType = some contentType.render) (hboundary : contentType.HasBoundary)
    (hform : framework.readForm request = .ok form) :
    (∃ message, forwardRequestAsync framework routes request = .ok (.send message)) ↔
      CutsOut contentType.render ∧
        (∀ field ∈ form.fields, FieldFits field) ∧ ∀ file ∈ form.files, FileFits file := by
  rw [← contentFits_form_iff htype hboundary hform, ← buildContent_ok_iff]
  have hsends : (∃ message,
      forwardRequestAsync framework routes request = .ok (.send message) ∧ True) ↔
        ∃ content, buildContent framework request = .ok content ∧ True :=
    sends_iff hrouted (P := fun _ => True)
  simpa only [and_true] using hsends

/-! ### An avatar -/

/-- A content type for forms with one parameter. -/
def formType (value : ParameterValue) : ContentType where
  type := "multipart".toList
  subtype := "form-data".toList
  typeToken := by decide
  subtypeToken := by decide
  parameters := [.spaced ⟨"boundary".toList, by decide, value⟩]

def avatarForm : Form where
  fields := []
  files := [⟨"file".toList, "me.png".toList, some "image/png".toList, [0x89, 0x50, 0x4E, 0x47]⟩]

/-- `POST /media/avatar` with one file. -/
def avatarRequest (value : ParameterValue) : HttpRequest where
  method := "POST".toList
  path := some ⟨"/media/avatar".toList, .inr rfl⟩
  queryString := .empty
  contentType := some (formType value).render
  headers := []
  body := []

/-- A framework that reads this form. -/
def avatarFramework : Framework := { plainFramework with readForm := fun _ => .ok avatarForm }

theorem routed_avatarRequest (value : ParameterValue) : Routed appsettings (avatarRequest value) :=
  ⟨"media".toList, _, ⟨"bookhub-media-service:8011".toList, ["avatar".toList], []⟩, rfl, rfl, by rfl,
    by rfl⟩

def plainBoundary : ParameterValue := .token "----WebKitFormBoundaryAa0Bb1Cc2Dd3Ee4F".toList (by decide)

/-- Between quotes, as some clients always write it. -/
def quotedBoundary : ParameterValue :=
  .quoted [⟨'A', false, by decide, by decide⟩, ⟨'a', false, by decide, by decide⟩,
    ⟨'0', false, by decide, by decide⟩]

theorem forwards_avatar : ∃ message,
    forwardRequestAsync avatarFramework appsettings (avatarRequest plainBoundary) =
      .ok (.send message) :=
  (forwards_form_iff avatarFramework appsettings (avatarRequest plainBoundary) (formType plainBoundary)
    avatarForm (routed_avatarRequest plainBoundary) rfl
    ⟨("boundary".toList, plainBoundary.text), List.mem_cons_self, by decide, by decide⟩ rfl).mpr
    ⟨⟨by decide, plainBoundary.text, by decide, by decide⟩, by simp [avatarForm], by
      intro file hfile
      rw [List.mem_singleton.mp hfile]
      exact ⟨⟨_, rfl, by decide⟩, ⟨by decide, by decide⟩, by decide, by decide⟩⟩

theorem not_forwards_form :
    ¬ ∀ (framework : Framework) (routes : Routes) (request : HttpRequest) (contentType : ContentType)
        (form : Form), Routed routes request → request.contentType = some contentType.render →
      equalsIgnoreCase contentType.mediaType "multipart/form-data".toList = true →
      contentType.HasBoundary → framework.readForm request = .ok form →
      ∃ message, forwardRequestAsync framework routes request = .ok (.send message) := by
  intro h
  have hboundary : (formType quotedBoundary).HasBoundary :=
    ⟨("boundary".toList, "Aa0".toList), List.mem_cons_self, by decide, by decide⟩
  obtain ⟨message, hsend⟩ := h avatarFramework appsettings (avatarRequest quotedBoundary)
    (formType quotedBoundary) avatarForm (routed_avatarRequest _) rfl (by decide) hboundary rfl
  have hrefused : forwardRequestAsync avatarFramework appsettings (avatarRequest quotedBoundary) =
      .error .argumentException := by
    rfl
  rw [hrefused] at hsend
  cases hsend

end BookHub.ApiGateway
