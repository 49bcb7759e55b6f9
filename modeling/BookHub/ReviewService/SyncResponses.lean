import BookHub.ReviewService.Books
import BookHub.ReviewService.Retry

/-!
# What the sync takes for a snapshot

One round of the sync makes two requests, and neither looks at the status of its answer: the body
decides. The token is decoded from the whole body, the snapshot from the first JSON text of it, and
`null` decodes into no books. So an error answer that happens to decode ends the sync.
-/

namespace BookHub.ReviewService

/-- A body, as the decoders read it: the JSON texts it begins with, one after the other, and whether
anything else comes behind them, text that is no JSON or a read that fails. -/
structure Body where
  texts : List Json
  trailing : Bool

structure Response where
  status : Nat
  body : Body

/-- What one round of the loop meets; `none` is a transport error. -/
structure SyncRound where
  tokenResponse : Option Response
  snapshotResponse : Option Response
  bulk : BulkEnv

structure ServiceTokenResponse where
  accessToken : String
  deriving DecidableEq, Repr

namespace ServiceTokenResponse

def decodeField (token : ServiceTokenResponse) : String × Json → Option ServiceTokenResponse
  | (_, .null) => some token
  | (name, value) =>
      if foldName name = foldName "access_token" then (decodeString value).map mk else some token

/-- `json.Unmarshal`; an answer without the field leaves the token empty. -/
def decode : Json → Option ServiceTokenResponse
  | .null => some ⟨""⟩
  | .obj fields => fields.foldlM decodeField ⟨""⟩
  | _ => none

end ServiceTokenResponse

/-- A request whose header has a control character in it is not sent. -/
def validHeaderFieldValue (value : String) : Bool :=
  value.toList.all fun c => c = '\t' || !(c < ' ' || c = '\x7f')

namespace SyncRound

/-- The whole body is one JSON text, or the token is an error. -/
def getServiceToken (met : SyncRound) : Option ServiceTokenResponse :=
  match met.tokenResponse with
  | some ⟨_, [text], false⟩ => ServiceTokenResponse.decode text
  | _ => none

def getBooksSnapshot (met : SyncRound) (token : ServiceTokenResponse) : Option (List BookIn) :=
  if validHeaderFieldValue ("Bearer " ++ token.accessToken) then
    met.snapshotResponse.bind fun response =>
      ReviewService.getBooksSnapshot response.body.texts.head?
  else none

/-- The body of the loop; `none` goes on with the next round. -/
def sync (met : SyncRound) (books : BooksCollection) : Option BulkResult × BooksCollection :=
  match met.getServiceToken with
  | none => (none, books)
  | some token =>
      match met.getBooksSnapshot token with
      | none => (none, books)
      | some items => saveBooksSnapshot books items met.bulk

/-- What the round comes to for the collection. -/
def attempt (met : SyncRound) : SyncAttempt :=
  match met.getServiceToken with
  | none => .tokenFails
  | some token =>
      match met.getBooksSnapshot token with
      | none => .snapshotFails
      | some items => .fetched items met.bulk

end SyncRound

/-- `StartBookSync`, over the rounds of its loop. -/
def bookSync (arch : Arch) (books : BooksCollection) (rounds : List SyncRound) :
    Retried BulkResult BooksCollection :=
  retry arch SyncRound.sync 0 books rounds

/-! ### What a sync may end with -/

/-- The answer is a success, and its body is one list of books. -/
def Response.Lists (response : Response) (items : List BookIn) : Prop :=
  200 ≤ response.status ∧ response.status < 300 ∧
    ∃ elements, response.body = ⟨[.arr elements], false⟩ ∧ elements.mapM BookIn.decode = some items

/-- If the loop has been left, it was with a round whose snapshot was listed and written. -/
def EndsOnSuccess (arch : Arch) (books : BooksCollection) (rounds : List SyncRound) : Prop :=
  ∀ result, (bookSync arch books rounds).result = some result →
    ∃ before met rest response items, rounds = before ++ met :: rest ∧
      (bookSync arch books before).result = none ∧
      met.snapshotResponse = some response ∧ response.Lists items ∧
      (items = [] ∨ met.bulk.raises = false) ∧
      saveBooksSnapshot (bookSync arch books before).state items met.bulk =
        (some result, (bookSync arch books rounds).state)

/-- The round gets a token it can send, and the snapshot answer decodes into books, which are none or
are written; but the answer is no success, or its body is `null`, or goes on after the list. -/
def SyncRound.Misread (met : SyncRound) : Prop :=
  ∃ token response items, met.getServiceToken = some token ∧
    validHeaderFieldValue ("Bearer " ++ token.accessToken) = true ∧
    met.snapshotResponse = some response ∧
    ReviewService.getBooksSnapshot response.body.texts.head? = some items ∧
    (items = [] ∨ met.bulk.raises = false) ∧ ¬response.Lists items

/-! ### One round -/

/-- The loop over the answers is the loop over what they come to. -/
theorem bookSync_eq (arch : Arch) (books : BooksCollection) (rounds : List SyncRound) :
    ((bookSync arch books rounds).result, (bookSync arch books rounds).state) =
      startBookSync books (rounds.map SyncRound.attempt) := by
  unfold bookSync
  generalize 0 = attempt
  induction rounds generalizing attempt books with
  | nil => rfl
  | cons met rest ih =>
      rw [List.map_cons, retry]
      cases htoken : met.getServiceToken with
      | none =>
          simp only [SyncRound.sync, SyncRound.attempt, htoken, startBookSync]
          exact ih books (attempt + 1)
      | some token =>
          cases hitems : met.getBooksSnapshot token with
          | none =>
              simp only [SyncRound.sync, SyncRound.attempt, htoken, hitems, startBookSync]
              exact ih books (attempt + 1)
          | some items =>
              simp only [SyncRound.sync, SyncRound.attempt, htoken, hitems, startBookSync]
              cases hsave : saveBooksSnapshot books items met.bulk with
              | mk outcome after =>
                  cases outcome with
                  | none => exact ih after (attempt + 1)
                  | some result => rfl

theorem saveBooksSnapshot_isSome (books : BooksCollection) (items : List BookIn) (env : BulkEnv) :
    (saveBooksSnapshot books items env).1.isSome = true ↔ items = [] ∨ env.raises = false := by
  simp only [saveBooksSnapshot, convertToMongoWriteModel, List.map_eq_nil_iff]
  by_cases hnil : items = []
  · rw [if_pos hnil]
    simp [hnil]
  · rw [if_neg hnil]
    cases env.raises <;> simp [hnil]

/-- What a round that ends the loop has met. -/
theorem sync_eq_some {met : SyncRound} {books after : BooksCollection} {result : BulkResult}
    (h : met.sync books = (some result, after)) :
    ∃ token response items, met.getServiceToken = some token ∧
      validHeaderFieldValue ("Bearer " ++ token.accessToken) = true ∧
      met.snapshotResponse = some response ∧
      getBooksSnapshot response.body.texts.head? = some items ∧
      (items = [] ∨ met.bulk.raises = false) ∧
      saveBooksSnapshot books items met.bulk = (some result, after) := by
  unfold SyncRound.sync at h
  cases htoken : met.getServiceToken with
  | none =>
      rw [htoken] at h
      cases h
  | some token =>
      cases hitems : met.getBooksSnapshot token with
      | none =>
          simp only [htoken, hitems] at h
          cases h
      | some items =>
          simp only [htoken, hitems] at h
          unfold SyncRound.getBooksSnapshot at hitems
          split at hitems
          · rename_i hvalid
            obtain ⟨response, hresponse, hdecoded⟩ := Option.bind_eq_some_iff.mp hitems
            refine ⟨token, response, items, rfl, hvalid, hresponse, hdecoded, ?_, h⟩
            rw [← saveBooksSnapshot_isSome books items met.bulk, h]
            rfl
          · cases hitems

/-- A round that is misread ends the loop, whatever the collection. -/
theorem sync_of_misread {met : SyncRound} (h : met.Misread) (books : BooksCollection) :
    (met.sync books).1.isSome = true := by
  obtain ⟨token, response, items, htoken, hvalid, hresponse, hdecoded, hbulk, -⟩ := h
  have hitems : met.getBooksSnapshot token = some items := by
    rw [SyncRound.getBooksSnapshot, if_pos hvalid, hresponse]
    exact hdecoded
  simp only [SyncRound.sync, htoken, hitems]
  exact (saveBooksSnapshot_isSome books items met.bulk).mpr hbulk

theorem endsOnSuccess_of_not_misread {arch : Arch} {books : BooksCollection}
    {rounds : List SyncRound} (h : ∀ met ∈ rounds, ¬met.Misread) :
    EndsOnSuccess arch books rounds := by
  intro result hresult
  obtain ⟨before, met, rest, hsplit, hnone, hsync⟩ := retry_eq_some hresult
  obtain ⟨token, response, items, htoken, hvalid, hresponse, hdecoded, hbulk, hsave⟩ :=
    sync_eq_some hsync
  refine ⟨before, met, rest, response, items, hsplit, hnone, hresponse, ?_, hbulk, hsave⟩
  by_contra hlists
  have hmet : met ∈ rounds := by
    rw [hsplit]
    exact List.mem_append_right before List.mem_cons_self
  exact h met hmet
    ⟨token, response, items, htoken, hvalid, hresponse, hdecoded, hbulk, hlists⟩

/-! ### Over all runs -/

/-- Every sync ends on success only, exactly if no answer it may meet is misread. -/
theorem endsOnSuccess_iff (arch : Arch) (allowed : SyncRound → Prop) :
    (∀ books rounds, (∀ met ∈ rounds, allowed met) → EndsOnSuccess arch books rounds) ↔
      ∀ met, allowed met → ¬met.Misread := by
  constructor
  · intro h met hallowed hmisread
    have hends := h ⟨[], List.nodup_nil⟩ [met]
      (fun other hother => by rw [List.mem_singleton.mp hother]; exact hallowed)
    have hsome := sync_of_misread hmisread ⟨[], List.nodup_nil⟩
    obtain ⟨result, hresult⟩ := Option.isSome_iff_exists.mp hsome
    have hleft : (bookSync arch ⟨[], List.nodup_nil⟩ [met]).result = some result := by
      cases hsync : met.sync ⟨[], List.nodup_nil⟩ with
      | mk outcome after =>
          rw [hsync] at hresult
          subst hresult
          simp only [bookSync, retry, hsync]
    obtain ⟨before, last, rest, response, items, hsplit, -, hresponse, hlists, -, hsave⟩ :=
      hends result hleft
    have hlast : last = met := by
      have hmem : last ∈ [met] := by
        rw [hsplit]
        exact List.mem_append_right before List.mem_cons_self
      exact List.mem_singleton.mp hmem
    subst hlast
    obtain ⟨token, response', items', -, -, hresponse', hdecoded, -, hnot⟩ := hmisread
    rw [hresponse] at hresponse'
    cases hresponse'
    -- a list is decoded in one way
    apply hnot
    obtain ⟨hlow, hhigh, elements, hbody, hitems⟩ := hlists
    refine ⟨hlow, hhigh, elements, hbody, ?_⟩
    rw [hbody] at hdecoded
    exact hdecoded
  · intro h books rounds hallowed
    exact endsOnSuccess_of_not_misread fun met hmet => h met (hallowed met hmet)

/-- An error answer with the body `null`, where the token is in order. -/
def nullAnswer : SyncRound :=
  ⟨some ⟨200, [.obj [("access_token", .str "t")]], false⟩, some ⟨500, [.null], false⟩, ⟨0, [], false⟩⟩

/-- The sync takes it for an empty snapshot and is done. -/
theorem bookSync_nullAnswer :
    (bookSync .amd64 ⟨[], List.nodup_nil⟩ [nullAnswer]).result = some ⟨0, 0⟩ ∧
      ¬EndsOnSuccess .amd64 ⟨[], List.nodup_nil⟩ [nullAnswer] := by
  have hresult : (bookSync .amd64 ⟨[], List.nodup_nil⟩ [nullAnswer]).result = some ⟨0, 0⟩ := by
    decide +kernel
  refine ⟨hresult, ?_⟩
  intro h
  obtain ⟨before, met, rest, response, items, hsplit, -, hresponse, hlists, -⟩ := h _ hresult
  have hmet : met = nullAnswer := by
    have hmem : met ∈ [nullAnswer] := by
      rw [hsplit]
      exact List.mem_append_right before List.mem_cons_self
    exact List.mem_singleton.mp hmem
  rw [hmet] at hresponse
  cases hresponse
  have hstatus := hlists.2.1
  revert hstatus
  decide

end BookHub.ReviewService
