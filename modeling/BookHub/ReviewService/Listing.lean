import Mathlib.Data.List.DropRight
import Mathlib.Tactic.Ring
import BookHub.Base.Calendar
import BookHub.Base.JsonText
import BookHub.Base.Utf8
import BookHub.ReviewService.Ownership

/-!
# The reviews of a book

`GetByBookId` answers with the reviews of a book as JSON. What `AddReview` has answered with 201 is in
that response, once and as it was answered, until a `RemoveReview` has deleted its id; and the id that
is printed there is the one that `RemoveReview` takes.
-/

namespace BookHub.ReviewService

open Elixir (DateTime)

/-! ### Ids and times as texts -/

def hexDigits : Nat → Nat → List Char
  | 0, _ => []
  | width + 1, n => Json.hexLower (n / 16 ^ width % 16) :: hexDigits width n

/-- `ObjectID.Hex` -/
def hex (id : ObjectId) : String := String.ofList (hexDigits 24 id.toNat)

/-- A time in milliseconds since 1970, in microseconds since the year 0. -/
def isoMicros (millis : Int) : Int := (millis + 62167219200000) * 1000

/-- The year has four digits, as the encoder demands. -/
def Printable (millis : Int) : Prop :=
  0 ≤ isoMicros millis / 86400000000 ∧ isoMicros millis / 86400000000 ≤ 3652424

instance (millis : Int) : Decidable (Printable millis) := inferInstanceAs (Decidable (_ ∧ _))

/-- The text of a time in the layout `time.RFC3339Nano`, which leaves out zeros at the end. -/
def rfc3339Nano (millis : Int) : String :=
  let decimals := (Elixir.pad 3 (millis % 1000).toNat).rdropWhile (· == '0')
  String.ofList (DateTime.dateText (isoMicros millis) ++ 'T' :: (DateTime.timeText (isoMicros millis) ++
    ((if decimals.isEmpty then [] else '.' :: decimals) ++ ['Z'])))

/-! ### The response -/

/-- `json.Marshal` of a review, which fails on a time that is not printable. -/
def Review.marshal (review : Review) : Option Json :=
  if Printable review.timestamp then
    some (.obj [("Id", .str (hex review.id)), ("BookId", .str review.bookId),
      ("UserId", .str review.userId), ("Rating", .int review.rating), ("Text", .str review.text),
      ("Timestamp", .str (rfc3339Nano review.timestamp))])
  else none

/-- `json.NewEncoder(w).Encode(value)`; nothing is written of a value that fails. -/
def encode (value : Option Json) : List UInt8 :=
  value.elim [] fun value => Utf8.encode (Json.marshal.write value ++ ['\n'])

/-- The body of the response of `GetByBookId`, when the database answers; a slice without items is
nil. -/
def getByBookId (reviews : ReviewsCollection) (bookId : String) : List UInt8 :=
  let result := reviews.docs.filter fun review => review.bookId == bookId
  encode (if result.isEmpty then some .null else (result.mapM Review.marshal).map .arr)

/-! ### What is listed -/

/-- The response for the book of this review has the review, and no other item with its id. -/
def Listed (reviews : ReviewsCollection) (review : Review) : Prop :=
  ∃ items, Json.read (Utf8.decode (getByBookId reviews review.bookId)) = some (.arr items) ∧
    (∃ item ∈ items, review.marshal = some item) ∧ (items.map (·.field? "Id")).Nodup

/-- The steps of a run so far, with the states that they started from. -/
abbrev ReviewPast : Type := List (ReviewPool × ReviewMove)

/-- After the request at this index was answered with this review, a `RemoveReview` that names its id has
deleted it. -/
def RemovedSince (past : ReviewPast) (index : Nat) (review : Review) : Prop :=
  ∃ p deleting env u t resume claims reviewId, (p, .resume deleting env) ∈ past ∧
    p.threads[index]? = some u ∧ u.code = .done (.ok (.created review)) ∧
    p.threads[deleting]? = some t ∧ t.code = .await (.deleteOne review.id) resume ∧
    t.request = .remove claims reviewId ∧ objectIDFromHex reviewId = some review.id ∧
    review ∈ p.store.docs ∧ review ∉ (exec p.store (.deleteOne review.id) env).2.docs

/-- What was answered with 201 is listed as it was answered, unless it has been removed by its id since. -/
def CreatedListed (past : ReviewPast) (p : ReviewPool) (move : ReviewMove) (p' : ReviewPool) : Prop :=
  ∀ (index : Nat) t, p'.threads[index]? = some t → ∀ review, t.code = .done (.ok (.created review)) →
    Listed p'.store review ∨ RemovedSince (past ++ [(p, move)]) index review

/-- The clock of the service is in the years that can be printed. -/
def ClockPrintable : ReviewMove → Prop
  | .arrive _ => True
  | .resume _ env => Printable env.millis

/-! ### Ids are read back -/

theorem hexDigit_hexLower : ∀ d < 16, hexDigit (Json.hexLower d) = some d := by decide

theorem foldlM_hexDigits (width n value : Nat) :
    (hexDigits width n).foldlM (fun value c => (hexDigit c).map (16 * value + ·)) value =
      some (value * 16 ^ width + n % 16 ^ width) := by
  induction width generalizing value with
  | zero => simp [hexDigits, Nat.mod_one]
  | succ width ih =>
      have hdigit := hexDigit_hexLower (n / 16 ^ width % 16) (Nat.mod_lt _ (by decide))
      rw [hexDigits, List.foldlM_cons, hdigit]
      show (hexDigits width n).foldlM _ (16 * value + n / 16 ^ width % 16) = _
      rw [ih, Nat.mod_pow_succ, Nat.pow_succ]
      congr 1
      ring

theorem length_hexDigits (width n : Nat) : (hexDigits width n).length = width := by
  induction width with
  | zero => rfl
  | succ width ih => rw [hexDigits, List.length_cons, ih]

theorem objectIDFromHex_hex (id : ObjectId) : objectIDFromHex (hex id) = some id := by
  have hlt : id.toNat < 16 ^ 24 := id.isLt
  rw [objectIDFromHex, hex, String.toList_ofList, if_pos (length_hexDigits 24 _), foldlM_hexDigits,
    Nat.zero_mul, Nat.zero_add, Nat.mod_eq_of_lt hlt, Option.map_some, BitVec.ofNat_toNat,
    BitVec.setWidth_eq]

theorem hex_injective {id id' : ObjectId} (h : hex id = hex id') : id = id' := by
  have hread := objectIDFromHex_hex id
  rw [h, objectIDFromHex_hex] at hread
  exact (Option.some.inj hread).symm

/-! ### The response is read back -/

theorem field?_marshal {review : Review} {item : Json} (h : review.marshal = some item) :
    item.field? "Id" = some (.str (hex review.id)) := by
  obtain ⟨-, h⟩ := Option.ite_none_right_eq_some.mp h
  cases h
  rfl

theorem wellFormed_marshal {review : Review} {item : Json} (h : review.marshal = some item) :
    item.WellFormed := by
  obtain ⟨-, h⟩ := Option.ite_none_right_eq_some.mp h
  cases h
  exact ⟨trivial, trivial, trivial, trivial, trivial, trivial, trivial⟩

/-- The items of reviews that can all be printed. -/
theorem mapM_marshal {reviews : List Review} (h : ∀ review ∈ reviews, Printable review.timestamp) :
    ∃ items, reviews.mapM Review.marshal = some items ∧ Json.WellFormedItems items ∧
      (∀ review ∈ reviews, ∃ item ∈ items, review.marshal = some item) ∧
      items.map (·.field? "Id") = reviews.map fun review => some (.str (hex review.id)) := by
  induction reviews with
  | nil => exact ⟨[], rfl, trivial, nofun, rfl⟩
  | cons review rest ih =>
      rw [List.forall_mem_cons] at h
      obtain ⟨items, hitems, hwellFormed, hall, hids⟩ := ih h.2
      obtain ⟨item, hitem⟩ : ∃ item, review.marshal = some item := ⟨_, if_pos h.1⟩
      refine ⟨item :: items, ?_, ⟨wellFormed_marshal hitem, hwellFormed⟩, ?_, ?_⟩
      · rw [List.mapM_cons, hitem, hitems]
        rfl
      · rw [List.forall_mem_cons]
        refine ⟨⟨item, List.mem_cons_self, hitem⟩, fun other hother => ?_⟩
        obtain ⟨found, hfound, heq⟩ := hall other hother
        exact ⟨found, List.mem_cons_of_mem item hfound, heq⟩
      · rw [List.map_cons, List.map_cons, field?_marshal hitem, hids]

theorem read_encode {value : Json} (h : value.WellFormed) :
    Json.read (Utf8.decode (encode (some value))) = some value := by
  show Json.read (Utf8.decode (Utf8.encode (Json.marshal.write value ++ ['\n']))) = _
  rw [Utf8.decode_encode]
  exact Json.read_write_append Json.marshal h rfl

/-- Every review that is stored is listed, as long as the times of all of them can be printed. -/
theorem listed_of_mem {reviews : ReviewsCollection} {review : Review} (hreview : review ∈ reviews.docs)
    (h : ∀ review ∈ reviews.docs, Printable review.timestamp) : Listed reviews review := by
  have hmem : review ∈ reviews.docs.filter fun other => other.bookId == review.bookId :=
    List.mem_filter.mpr ⟨hreview, beq_self_eq_true _⟩
  have hnodup :
      ((reviews.docs.filter fun other => other.bookId == review.bookId).map Review.id).Nodup :=
    reviews.nodup.sublist (List.filter_sublist.map _)
  have hbody : getByBookId reviews review.bookId = encode
      (if (reviews.docs.filter fun other => other.bookId == review.bookId).isEmpty then some .null
        else ((reviews.docs.filter fun other => other.bookId == review.bookId).mapM Review.marshal).map
          .arr) := rfl
  have hprintable : ∀ other ∈ reviews.docs.filter fun other => other.bookId == review.bookId,
      Printable other.timestamp := fun other hother => h other (List.mem_filter.mp hother).1
  rw [Listed, hbody]
  generalize reviews.docs.filter (fun other => other.bookId == review.bookId) = result at *
  obtain ⟨items, hitems, hwellFormed, hall, hids⟩ := mapM_marshal hprintable
  have hnonempty : result.isEmpty = false := by
    rw [List.isEmpty_eq_false_iff]
    exact List.ne_nil_of_mem hmem
  refine ⟨items, ?_, hall review hmem, ?_⟩
  · rw [hnonempty, hitems]
    exact read_encode hwellFormed
  · rw [hids]
    have hmap : (result.map Review.id).map (fun id => some (Json.str (hex id))) =
        result.map fun review => some (Json.str (hex review.id)) := by
      rw [List.map_map]
      rfl
    rw [← hmap]
    apply hnodup.map
    intro id id' heq
    exact hex_injective (Json.str.inj (Option.some.inj heq))

/-! ### What the handlers do -/

/-- A delete is of the id that the request names. -/
def NamesId (request : ReviewRequest) (_ : List ReviewEvent) (op : ReviewOp) : Prop :=
  ∀ id, op = .deleteOne id →
    ∃ claims reviewId, request = .remove claims reviewId ∧ objectIDFromHex reviewId = some id

/-- What is answered with 201 is the item of the last insert, with the id that the database gave. -/
def Inserted (_ : ReviewRequest) (trace : List ReviewEvent)
    (result : Except MongoError ReviewResponse) : Prop :=
  ∀ review, result = .ok (.created review) →
    ∃ earlier item, trace = earlier ++ [⟨.insertOne item, .ok review.id⟩] ∧
      review = { item with id := review.id }

/-- An insert has the time that was read before it. -/
theorem Issued.insertOne_clock {request : ReviewRequest} {trace : List ReviewEvent} {item : Review}
    (h : Issued request trace (.insertOne item)) : ⟨.now, .ok item.timestamp⟩ ∈ trace := by
  cases h with
  | insertOne claims body timestamp => exact List.mem_singleton_self _

theorem namesId_handler (request : ReviewRequest) :
    Coroutine.Issues (fun _ _ => True) (NamesId request) [] (reviewService.handler request) := by
  cases request with
  | add claims body =>
      cases body with
      | none => trivial
      | some item =>
          refine ⟨nofun, fun answer _ => ?_⟩
          cases answer with
          | error err => trivial
          | ok timestamp =>
              refine ⟨nofun, fun answer _ => ?_⟩
              cases answer <;> trivial
  | remove claims reviewId =>
      show Coroutine.Issues _ _ _ (removeReview claims reviewId)
      unfold removeReview
      split
      · trivial
      · rename_i objID hid
        refine ⟨nofun, fun (answer : Except MongoError Review) _ => ?_⟩
        cases answer with
        | error err => cases err <;> trivial
        | ok dbReview =>
            show Coroutine.Issues _ _ _
              (if (claims.subject != dbReview.userId && claims.role != "admin") = true then _ else _)
            split
            · trivial
            · refine ⟨?_, fun answer _ => ?_⟩
              · rintro id ⟨⟩
                exact ⟨claims, reviewId, rfl, hid⟩
              · cases answer <;> trivial

theorem inserted_handler (request : ReviewRequest) :
    Coroutine.Ends (fun _ _ => True) (Inserted request) [] (reviewService.handler request) := by
  cases request with
  | add claims body =>
      cases body with
      | none => exact nofun
      | some item =>
          intro answer _
          cases answer with
          | error err => exact nofun
          | ok timestamp =>
              intro answer _
              cases answer with
              | error err => exact nofun
              | ok insertedID =>
                  rintro review ⟨⟩
                  exact ⟨[⟨.now, .ok timestamp⟩], _, rfl, rfl⟩
  | remove claims reviewId =>
      show Coroutine.Ends _ _ _ (removeReview claims reviewId)
      unfold removeReview
      split
      · exact nofun
      · intro (answer : Except MongoError Review) _
        cases answer with
        | error err => cases err <;> exact nofun
        | ok dbReview =>
            show Coroutine.Ends _ _ _
              (if (claims.subject != dbReview.userId && claims.role != "admin") = true then _ else _)
            split
            · exact nofun
            · intro answer _
              cases answer <;> exact nofun

/-! ### What stays true -/

structure ListingInv (past : ReviewPast) (p : ReviewPool) : Prop where
  issued : Service.Justified (fun _ _ => True) Issued p
  names : Service.Justified (fun _ _ => True) NamesId p
  inserted : Service.Ended (fun _ _ => True) Inserted p
  stored : ∀ review ∈ p.store.docs, Printable review.timestamp
  read : ∀ t ∈ p.threads, ∀ millis, ⟨.now, .ok millis⟩ ∈ t.trace → Printable millis
  kept : ∀ (index : Nat) t, p.threads[index]? = some t →
    ∀ review, t.code = .done (.ok (.created review)) →
      review ∈ p.store.docs ∨ RemovedSince past index review

theorem listingInv_start {reviews : ReviewsCollection}
    (h : ∀ review ∈ reviews.docs, Printable review.timestamp) :
    ListingInv [] (Service.start reviews) where
  issued := Service.justified_start _
  names := Service.justified_start _
  inserted := Service.ended_start _
  stored := h
  read _ ht := absurd ht List.not_mem_nil
  kept _ _ ht := by cases ht

theorem RemovedSince.mono {past past' : ReviewPast} {index : Nat} {review : Review}
    (h : RemovedSince past index review) (hpast : past ⊆ past') : RemovedSince past' index review := by
  obtain ⟨p, deleting, env, u, t, resume, claims, reviewId, hstep, hrest⟩ := h
  exact ⟨p, deleting, env, u, t, resume, claims, reviewId, hpast hstep, hrest⟩

/-- The handlers go on as their requests say. -/
theorem ListingInv.handlers {past : ReviewPast} {p p' : ReviewPool} {move : ReviewMove}
    (h : ListingInv past p)
    (hstep : reviewService.machine.step p move = some p') :
    Service.Justified (fun _ _ => True) Issued p' ∧ Service.Justified (fun _ _ => True) NamesId p' ∧
      Service.Ended (fun _ _ => True) Inserted p' := by
  refine ⟨?_, ?_, ?_⟩
  · exact reviewService.justified_step (fun _ _ _ => trivial) issues_handler p move p' h.issued hstep
  · exact reviewService.justified_step (fun _ _ _ => trivial) namesId_handler p move p' h.names hstep
  · exact reviewService.ended_step (fun _ _ _ => trivial) inserted_handler p move p' h.inserted hstep

theorem listingInv_arrive {past : ReviewPast} {p : ReviewPool} (h : ListingInv past p)
    {request : ReviewRequest} {p' : ReviewPool}
    (hstep : reviewService.machine.step p (.arrive request) = some p') :
    ListingInv (past ++ [(p, .arrive request)]) p' := by
  obtain ⟨hissued, hnames, hinserted⟩ := h.handlers hstep
  obtain ⟨-, rfl⟩ := reviewService.step_arrive hstep
  refine ⟨hissued, hnames, hinserted, h.stored, ?_, ?_⟩
  · intro t ht millis hread
    obtain ht | ht := List.mem_append.mp ht
    · exact h.read t ht millis hread
    · rw [List.mem_singleton.mp ht] at hread
      exact absurd hread List.not_mem_nil
  · intro index t ht review hcode
    obtain hold | ⟨-, rfl⟩ := getElem?_concat_cases ht
    · apply (h.kept index t hold review hcode).imp_right
      exact fun hremoved => hremoved.mono (List.subset_append_left _ _)
    · -- nothing has been inserted yet
      have hends := hinserted _ (List.mem_of_getElem? ht)
      rw [hcode] at hends
      obtain ⟨earlier, item, htrace, -⟩ := hends review rfl
      exact absurd htrace.symm (List.append_ne_nil_of_right_ne_nil _ (List.cons_ne_nil _ _))

theorem listingInv_resume {past : ReviewPast} {p : ReviewPool} (h : ListingInv past p) {index : Nat}
    {env : ReviewEnv} (hclock : Printable env.millis) {p' : ReviewPool}
    (hstep : reviewService.machine.step p (.resume index env) = some p') :
    ListingInv (past ++ [(p, .resume index env)]) p' := by
  obtain ⟨hissued, hnames, hinserted⟩ := h.handlers hstep
  obtain ⟨t, op, resume, ht, hcode, rfl⟩ := reviewService.step_resume hstep
  have hmem := List.mem_of_getElem? ht
  let t' := Service.advance t op resume (exec p.store op env).1
  have hmem' : t' ∈ p.threads.set index t' := List.mem_set (List.getElem?_eq_some_iff.mp ht).1 t'
  refine ⟨hissued, hnames, hinserted, ?_, ?_, ?_⟩
  · intro review hreview
    obtain hstored | ⟨item, rfl, rfl, -⟩ := mem_exec hreview
    · exact h.stored review hstored
    · -- the time of the item was read before
      have hread := (h.issued.issued_of_await hmem hcode).insertOne_clock
      rw [stored_eq]
      exact h.read t hmem item.timestamp hread
  · intro u hu millis hread
    obtain hold | rfl := List.mem_or_eq_of_mem_set hu
    · exact h.read u hold millis hread
    · obtain hread | hread := List.mem_append.mp hread
      · exact h.read t hmem millis hread
      · obtain ⟨rfl, hanswer⟩ := Sigma.mk.inj (List.mem_singleton.mp hread)
        cases hanswer
        exact hclock
  · intro k u hu review hdone
    obtain hold | ⟨rfl, rfl⟩ := getElem?_set_cases hu
    · obtain hstored | hremoved := h.kept k u hold review hdone
      · by_cases hgone : review ∈ (exec p.store op env).2.docs
        · exact .inl hgone
        · right
          obtain rfl := deleteOne_of_gone hstored hgone
          obtain ⟨claims, reviewId, hrequest, hid⟩ := h.names.issued_of_await hmem hcode review.id rfl
          exact ⟨p, index, env, u, t, resume, claims, reviewId,
            List.mem_append_right _ (List.mem_singleton_self _), hold, hdone, ht, hcode, hrequest, hid,
            hstored, hgone⟩
      · exact .inr (hremoved.mono (List.subset_append_left _ _))
    · left
      have hends : Coroutine.Ends _ (Inserted t.request) (t.trace ++ [⟨op, (exec p.store op env).1⟩])
          (resume (exec p.store op env).1) := hinserted t' hmem'
      rw [show resume (exec p.store op env).1 = _ from hdone] at hends
      obtain ⟨earlier, item, htrace, hreview⟩ := hends review rfl
      obtain ⟨rfl, hanswer⟩ := Sigma.mk.inj (List.singleton_inj.mp (List.append_inj' htrace rfl).2)
      obtain ⟨err, herr⟩ | ⟨hok, hfree⟩ := exec_insertOne p.store item env
      · rw [herr] at hanswer
        cases hanswer
      · rw [hok] at hanswer
        have hid : (env.stored item).id = review.id := Except.ok.inj (eq_of_heq hanswer)
        have hstored : review = env.stored item := by
          rw [hreview, stored_eq, hid]
        show review ∈ (exec p.store (.insertOne item) env).2.docs
        rw [hok, hstored, Collection.mem_docs_iff, Collection.find?_upsertOne, if_pos rfl, hfree]
        rfl

theorem listingInv_step (past : ReviewPast) (p : ReviewPool) (move : ReviewMove) (p' : ReviewPool)
    (h : ListingInv past p) (hclock : ClockPrintable move)
    (hstep : reviewService.machine.step p move = some p') : ListingInv (past ++ [(p, move)]) p' := by
  cases move with
  | arrive request => exact listingInv_arrive h hstep
  | resume index env => exact listingInv_resume h hclock hstep

theorem createdListed_step (past : ReviewPast) (p : ReviewPool) (move : ReviewMove) (p' : ReviewPool)
    (h : ListingInv past p) (hclock : ClockPrintable move)
    (hstep : reviewService.machine.step p move = some p') : CreatedListed past p move p' := by
  have hnext := listingInv_step past p move p' h hclock hstep
  intro index t ht review hcreated
  exact (hnext.kept index t ht review hcreated).imp_left fun hstored => listed_of_mem hstored hnext.stored

/-- From any collection and with a clock whose times can all be printed, after every step: what a user was
told to be created is in the response for its book, and no other item there has its id, until a request
that names this id has deleted it. -/
theorem created_listed {reviews : ReviewsCollection}
    (hreviews : ∀ review ∈ reviews.docs, Printable review.timestamp) {moves : List ReviewMove}
    (hclock : ∀ move ∈ moves, ClockPrintable move) :
    reviewService.machine.EachPast CreatedListed [] (Service.start reviews) moves :=
  Machine.eachPast_of_meets listingInv_step createdListed_step (listingInv_start hreviews)
    (Machine.meets_of_labels hclock _)

instance : DecidablePred ClockPrintable
  | .arrive _ => .isTrue trivial
  | .resume _ env => inferInstanceAs (Decidable (Printable env.millis))

theorem created_listed_addThenCheck :
    (reviewService.machine.run newReviews addThenCheck).isSome ∧
      reviewService.machine.EachPast CreatedListed [] newReviews addThenCheck :=
  ⟨rfl, created_listed (fun _ h => absurd h List.not_mem_nil) (by decide)⟩

end BookHub.ReviewService
