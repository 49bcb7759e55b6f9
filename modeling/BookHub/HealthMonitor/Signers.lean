import BookHub.Base.Collection
import BookHub.Base.Elixir
import BookHub.Base.Machine

/-!
# The signers of the health monitor

A process fetches the keys of the auth service, every hour, and keeps a signer for each of them in a
table that it owns. A fetch inserts; it removes nothing. When the process dies the table goes with it,
and its supervisor starts it again with an empty one. The plug of the HTTP interface looks up the signer
that the header of a token names.

The JWT library and the JSON decoder are parameters.
-/

namespace BookHub.HealthMonitor

open Elixir

/-- What raises. -/
inductive Fault where
  | decodeError
  | badMap
  | enumerable
  | badArgument
  | signerCreate
  | withClause
  deriving DecidableEq, Repr

/-- The JWT library; `none` is an error tuple, and for `create` that it raises. -/
structure Joken (Signer : Type) where
  create : Term → Entries → Option Signer
  peekHeader : String → Option Entries
  verifyAndValidate : Int → String → Signer → Option Entries

/-- The ETS table, a set. -/
abbrev SignerTable (Signer : Type) : Type := Collection (Prod.fst : Term × Signer → Term)

/-- The process, with its table and the time until it fetches again, in milliseconds. -/
structure JwksStrategy (Signer : Type) where
  table : SignerTable Signer
  sendAfter : Nat

/-- What a request to the JWKS endpoint comes to. -/
inductive HttpcResult where
  | response (status : Nat) (body : String)
  | error
  deriving DecidableEq, Repr

section Strategy

variable {Signer : Type} (jason : String → Option Term) (joken : Joken Signer)

namespace JwksStrategy

def init : JwksStrategy Signer := ⟨Collection.empty, 0⟩

/-- The function that `Enum.each` calls. -/
def loadKey (table : SignerTable Signer) : Term → Except Fault (SignerTable Signer)
  | .map keyParams =>
      let alg := (keyParams.find? "alg").getD (.binary "RS256")
      let kid := (keyParams.find? "kid").getD .nil
      match joken.create alg keyParams with
      | some signer => .ok (table.put (kid, signer))
      | none => .error .signerCreate
  | _ => .error .badMap

def loadKeys (table : SignerTable Signer) : Terms → Except Fault (SignerTable Signer)
  | .nil => .ok table
  | .cons key rest => do loadKeys (← loadKey joken table key) rest

/-- `Enum.each(keys, ..)` and `length(keys)`; a map is enumerable, but its entries are no maps and it
has no length. -/
def loadAll (table : SignerTable Signer) : Term → Except Fault (SignerTable Signer)
  | .list keys => loadKeys joken table keys
  | .map .nil => .error .badArgument
  | .map (.cons _ _ _) => .error .badMap
  | _ => .error .enumerable

/-- `handle_info(:fetch, state)`; what it raises, the process dies of. -/
def handleInfo (s : JwksStrategy Signer) : HttpcResult → Except Fault (JwksStrategy Signer)
  | .response 200 body =>
      match jason body with
      | none => .error .decodeError
      | some (.map decoded) => do
          let keys := (decoded.find? "keys").getD (.list .nil)
          let table ← loadAll joken s.table keys
          return ⟨table, 3600000⟩
      | some _ => .error .badMap
  | _ => .ok { s with sendAfter := 60000 }

end JwksStrategy

/-- The table has a name, and a lookup in a table that is not there raises. -/
def getSigner (strategy : Option (JwksStrategy Signer)) (kid : Term) :
    Except Fault (Option Signer) :=
  match strategy with
  | none => .error .badArgument
  | some s => .ok ((s.table.find? kid).map Prod.snd)

/-! ### The plug -/

/-- What becomes of a connection. -/
inductive PlugOutcome where
  | assigned (claims : Entries)
  | unauthorized (message : String)
  deriving DecidableEq, Repr

/-- `"Bearer " <> token`. -/
def bearer? (value : String) : Option String :=
  if "Bearer ".toList.isPrefixOf value.toList then
    some (String.ofList (value.toList.drop "Bearer ".length))
  else none

/-- `Authorization.call`, on the values of the header; where no clause of the `with` or of its `else`
matches, it raises. -/
def Authorization.call (strategy : Option (JwksStrategy Signer)) (now : Int) :
    List String → Except Fault PlugOutcome
  | [] => .ok (.unauthorized "Missing Authorization Header")
  | [value] =>
      match bearer? value with
      | none => .error .withClause
      | some token =>
          match joken.peekHeader token with
          | none => .ok (.unauthorized "Unauthorized")
          | some header =>
              match header.find? "kid" with
              | none => .error .withClause
              | some kid => do
                  match ← getSigner strategy kid with
                  | none => return .unauthorized "Invalid Token Key"
                  | some signer =>
                      match joken.verifyAndValidate now token signer with
                      | some claims => return .assigned claims
                      | none => return .unauthorized "Unauthorized"
  | _ => .error .withClause

/-! ### Runs -/

/-- The ids of a list of keys each of which makes a signer. -/
def usableKids : Terms → Option (List Term)
  | .nil => some []
  | .cons (.map keyParams) rest =>
      if (joken.create ((keyParams.find? "alg").getD (.binary "RS256")) keyParams).isSome then
        (usableKids rest).map ((keyParams.find? "kid").getD .nil :: ·)
      else none
  | .cons _ _ => none

/-- The ids of the key list that a fetch gives, if it succeeds with a well-formed one. -/
def fetchedKids : HttpcResult → Option (List Term)
  | .response 200 body =>
      match jason body with
      | some (.map decoded) =>
          match decoded.find? "keys" with
          | some (.list keys) => usableKids joken keys
          | _ => none
      | _ => none
  | _ => none

/-- The process, if it is alive, and the ids of the last key list that was fetched with success. -/
structure KeyMonitor (Signer : Type) where
  strategy : Option (JwksStrategy Signer)
  published : Option (List Term)

inductive KeyLabel where
  | fetch (result : HttpcResult)
  | restart
  deriving DecidableEq, Repr

def KeyMonitor.start : KeyMonitor Signer := ⟨some .init, none⟩

/-- A fetch that raises takes the process and its table with it, until the supervisor restarts it. -/
def keyMonitor : Machine (KeyMonitor Signer) KeyLabel where
  step m label :=
    match label, m.strategy with
    | .fetch result, some s =>
        let published := (fetchedKids jason joken result).or m.published
        match s.handleInfo jason joken result with
        | .ok s' => some ⟨some s', published⟩
        | .error _ => some ⟨none, published⟩
    | .restart, none => some { m with strategy := some .init }
    | _, _ => none

/-- A key that is not in the last list has no signer, and a token that names it is not let in. -/
structure RetiredRefused (m : KeyMonitor Signer) : Prop where
  signer : ∀ kids, m.published = some kids → ∀ kid signer,
    getSigner m.strategy kid = .ok (some signer) → kid ∈ kids
  token : ∀ kids, m.published = some kids → ∀ now value token header kid claims,
    bearer? value = some token → joken.peekHeader token = some header →
    header.find? "kid" = some kid → kid ∉ kids →
    Authorization.call joken m.strategy now [value] ≠ .ok (.assigned claims)

/-- A fetch that succeeds lists every key that has a signer. -/
def KeepsListed (m : KeyMonitor Signer) : KeyLabel → Prop
  | .fetch result => ∀ s kids, m.strategy = some s → fetchedKids jason joken result = some kids →
      ∀ kid ∈ s.table.keys, kid ∈ kids
  | .restart => True

/-! ### One fetch -/

variable {jason joken}

/-- The keys of a list are loaded, or one of them raises. -/
theorem loadKeys_spec (table : SignerTable Signer) (keys : Terms) :
    match usableKids joken keys with
    | some kids => ∃ table', JwksStrategy.loadKeys joken table keys = .ok table' ∧
        ∀ kid, kid ∈ table'.keys ↔ kid ∈ table.keys ∨ kid ∈ kids
    | none => ∃ err, JwksStrategy.loadKeys joken table keys = .error err := by
  fun_induction usableKids joken keys generalizing table with
  | case1 => exact ⟨table, rfl, by simp⟩
  | case2 keyParams rest hcreate ih =>
      obtain ⟨signer, hsigner⟩ := Option.isSome_iff_exists.mp hcreate
      have hload : JwksStrategy.loadKeys joken table (.cons (.map keyParams) rest) =
          JwksStrategy.loadKeys joken
            (table.put ((keyParams.find? "kid").getD .nil, signer)) rest := by
        simp only [JwksStrategy.loadKeys, JwksStrategy.loadKey, hsigner]
        rfl
      have hrest := ih (table.put ((keyParams.find? "kid").getD .nil, signer))
      rw [hload]
      cases hkids : usableKids joken rest with
      | none =>
          rw [hkids] at hrest
          exact hrest
      | some kids =>
          rw [hkids] at hrest
          obtain ⟨table', hok, hkeys⟩ := hrest
          refine ⟨table', hok, ?_⟩
          intro kid
          rw [hkeys, Collection.mem_keys_put, List.mem_cons]
          tauto
  | case3 keyParams rest hcreate =>
      refine ⟨.signerCreate, ?_⟩
      rw [Option.not_isSome_iff_eq_none] at hcreate
      simp only [JwksStrategy.loadKeys, JwksStrategy.loadKey, hcreate]
      rfl
  | case4 key rest hkey =>
      refine ⟨.badMap, ?_⟩
      have hload : JwksStrategy.loadKey joken table key = .error .badMap := by
        cases key with
        | map keyParams => exact absurd rfl (hkey keyParams)
        | _ => rfl
      simp only [JwksStrategy.loadKeys, hload]
      rfl

theorem handleInfo_map (s : JwksStrategy Signer) {body : String} {decoded : Entries}
    (hbody : jason body = some (.map decoded)) :
    s.handleInfo jason joken (.response 200 body) =
      (JwksStrategy.loadAll joken s.table ((decoded.find? "keys").getD (.list .nil))).map
        fun table => ⟨table, 3600000⟩ := by
  simp only [JwksStrategy.handleInfo, hbody]
  cases JwksStrategy.loadAll joken s.table ((decoded.find? "keys").getD (.list .nil)) <;> rfl

/-- A well-formed list is added to the table. -/
theorem handleInfo_of_fetched (s : JwksStrategy Signer) {result : HttpcResult} {kids : List Term}
    (h : fetchedKids jason joken result = some kids) :
    ∃ s', s.handleInfo jason joken result = .ok s' ∧
      ∀ kid, kid ∈ s'.table.keys ↔ kid ∈ s.table.keys ∨ kid ∈ kids := by
  unfold fetchedKids at h
  split at h
  · rename_i body
    split at h
    · rename_i decoded hbody
      split at h
      · rename_i keys hkeys
        have hload := @loadKeys_spec Signer joken s.table keys
        rw [h] at hload
        obtain ⟨table', hok, hmem⟩ := hload
        refine ⟨⟨table', 3600000⟩, ?_, hmem⟩
        rw [handleInfo_map s hbody, hkeys]
        show (JwksStrategy.loadKeys joken s.table keys).map _ = _
        rw [hok]
        rfl
      · cases h
    · cases h
  · cases h

/-- A body that is no JSON object raises. -/
theorem handleInfo_of_not_map (s : JwksStrategy Signer) {body : String}
    (hbody : ∀ decoded, jason body ≠ some (.map decoded)) :
    ∃ err, s.handleInfo jason joken (.response 200 body) = .error err := by
  cases hdecoded : jason body with
  | none => exact ⟨.decodeError, by simp only [JwksStrategy.handleInfo, hdecoded]⟩
  | some decoded =>
      cases decoded with
      | map decoded => exact absurd hdecoded (hbody decoded)
      | _ => exact ⟨.badMap, by simp only [JwksStrategy.handleInfo, hdecoded]⟩

/-- So do keys that are there and are no list of keys each of which makes a signer. -/
theorem handleInfo_of_unusable (s : JwksStrategy Signer) {body : String} {decoded : Entries}
    {value : Term} (hbody : jason body = some (.map decoded))
    (hkeys : decoded.find? "keys" = some value)
    (h : fetchedKids jason joken (.response 200 body) = none) :
    ∃ err, s.handleInfo jason joken (.response 200 body) = .error err := by
  simp only [fetchedKids, hbody, hkeys] at h
  have hload : ∃ err, JwksStrategy.loadAll joken s.table value = .error err := by
    cases value with
    | list keys =>
        have hload := @loadKeys_spec Signer joken s.table keys
        dsimp only at h
        rw [h] at hload
        exact hload
    | map entries => cases entries <;> exact ⟨_, rfl⟩
    | _ => exact ⟨_, rfl⟩
  obtain ⟨err, herr⟩ := hload
  refine ⟨err, ?_⟩
  rw [handleInfo_map s hbody, hkeys, Option.getD_some, herr]
  rfl

/-- There is no answer, or one that is not 200, or a JSON object without keys. -/
def EndsCleanly (jason : String → Option Term) : HttpcResult → Prop
  | .response status body => status = 200 →
      ∃ decoded, jason body = some (.map decoded) ∧ decoded.find? "keys" = none
  | .error => True

theorem handleInfo_of_no_keys (s : JwksStrategy Signer) {body : String} {decoded : Entries}
    (hbody : jason body = some (.map decoded)) (hkeys : decoded.find? "keys" = none) :
    s.handleInfo jason joken (.response 200 body) = .ok ⟨s.table, 3600000⟩ := by
  rw [handleInfo_map s hbody, hkeys]
  rfl

theorem handleInfo_of_status (s : JwksStrategy Signer) {status : Nat} {body : String}
    (hstatus : status ≠ 200) :
    s.handleInfo jason joken (.response status body) = .ok { s with sendAfter := 60000 } := by
  unfold JwksStrategy.handleInfo
  split
  · rename_i heq
    cases heq
    exact absurd rfl hstatus
  · rfl

/-- A fetch without a usable key list goes on with the table as it is, or raises. -/
theorem handleInfo_of_failed (s : JwksStrategy Signer) {result : HttpcResult}
    (hfailed : fetchedKids jason joken result = none) :
    (EndsCleanly jason result ∧
      ∃ sendAfter, 0 < sendAfter ∧ s.handleInfo jason joken result = .ok ⟨s.table, sendAfter⟩) ∨
    (¬ EndsCleanly jason result ∧ ∃ err, s.handleInfo jason joken result = .error err) := by
  cases result with
  | error => exact .inl ⟨trivial, 60000, by decide, rfl⟩
  | response status body =>
      by_cases hstatus : status = 200
      · subst hstatus
        by_cases hmap : ∃ decoded, jason body = some (.map decoded)
        · obtain ⟨decoded, hbody⟩ := hmap
          cases hkeys : decoded.find? "keys" with
          | none =>
              exact .inl ⟨fun _ => ⟨decoded, hbody, hkeys⟩, 3600000, by decide,
                handleInfo_of_no_keys s hbody hkeys⟩
          | some value =>
              refine .inr ⟨?_, handleInfo_of_unusable s hbody hkeys hfailed⟩
              intro hclean
              obtain ⟨decoded', hbody', hnone⟩ := hclean rfl
              cases hbody.symm.trans hbody'
              cases hkeys.symm.trans hnone
        · refine .inr ⟨?_, handleInfo_of_not_map s fun decoded hbody => hmap ⟨decoded, hbody⟩⟩
          intro hclean
          obtain ⟨decoded, hbody, -⟩ := hclean rfl
          exact hmap ⟨decoded, hbody⟩
      · exact .inl ⟨fun heq => absurd heq hstatus, 60000, by decide, handleInfo_of_status s hstatus⟩

/-- Any other fetch leaves the table alone, if it does not raise. -/
theorem handleInfo_of_not_fetched {s s' : JwksStrategy Signer} {result : HttpcResult}
    (h : fetchedKids jason joken result = none) (hok : s.handleInfo jason joken result = .ok s') :
    s'.table = s.table := by
  obtain ⟨-, sendAfter, -, hsame⟩ | ⟨-, err, herr⟩ := handleInfo_of_failed s h
  · rw [hsame] at hok
    cases hok
    rfl
  · rw [herr] at hok
    cases hok

/-! ### The table and the plug -/

theorem getSigner_some {s : JwksStrategy Signer} {kid : Term} :
    (∃ signer, getSigner (some s) kid = .ok (some signer)) ↔ kid ∈ s.table.keys := by
  rw [Collection.mem_keys]
  show (∃ signer, Except.ok ((s.table.find? kid).map Prod.snd) = _) ↔ _
  cases s.table.find? kid with
  | none => simp
  | some entry => simp

/-- A caller is let in with a signer only. -/
theorem signer_of_assigned {strategy : Option (JwksStrategy Signer)} {now : Int} {value token : String}
    {header claims : Entries} {kid : Term} (hbearer : bearer? value = some token)
    (hheader : joken.peekHeader token = some header) (hkid : header.find? "kid" = some kid)
    (h : Authorization.call joken strategy now [value] = .ok (.assigned claims)) :
    ∃ signer, getSigner strategy kid = .ok (some signer) := by
  simp only [Authorization.call, hbearer, hheader, hkid] at h
  cases hsigner : getSigner strategy kid with
  | error err =>
      rw [hsigner] at h
      cases h
  | ok found =>
      cases found with
      | none =>
          rw [hsigner] at h
          cases h
      | some signer => exact ⟨signer, rfl⟩

theorem retiredRefused_iff {m : KeyMonitor Signer} :
    RetiredRefused joken m ↔ ∀ s kids, m.strategy = some s → m.published = some kids →
      ∀ kid ∈ s.table.keys, kid ∈ kids := by
  constructor
  · intro h s kids hs hkids kid hkid
    obtain ⟨signer, hsigner⟩ := getSigner_some.mpr hkid
    exact h.signer kids hkids kid signer (by rw [hs]; exact hsigner)
  · intro h
    have hsigner : ∀ kids, m.published = some kids → ∀ kid signer,
        getSigner m.strategy kid = .ok (some signer) → kid ∈ kids := by
      intro kids hkids kid signer hsigner
      cases hs : m.strategy with
      | none =>
          rw [hs] at hsigner
          cases hsigner
      | some s =>
          rw [hs] at hsigner
          exact h s kids hs hkids kid (getSigner_some.mp ⟨signer, hsigner⟩)
    refine ⟨hsigner, ?_⟩
    intro kids hkids now value token header kid claims hbearer hheader hkid hnot hcall
    obtain ⟨signer, hfound⟩ := signer_of_assigned hbearer hheader hkid hcall
    exact hnot (hsigner kids hkids kid signer hfound)

/-- A step keeps retired keys out exactly if it is no fetch whose list lacks a key that has a signer. -/
theorem retiredRefused_step {m m' : KeyMonitor Signer} {label : KeyLabel}
    (h : RetiredRefused joken m) (hmove : (keyMonitor jason joken).step m label = some m') :
    RetiredRefused joken m' ↔ KeepsListed jason joken m label := by
  rw [retiredRefused_iff] at h ⊢
  cases label with
  | restart =>
      cases hs : m.strategy with
      | some s =>
          simp only [keyMonitor, hs] at hmove
          cases hmove
      | none =>
          simp only [keyMonitor, hs] at hmove
          cases hmove
          refine iff_of_true ?_ trivial
          intro s kids hinit _ kid hkid
          cases hinit
          cases hkid
  | fetch result =>
      cases hs : m.strategy with
      | none =>
          simp only [keyMonitor, hs] at hmove
          cases hmove
      | some s =>
          simp only [keyMonitor, hs] at hmove
          cases hkids : fetchedKids jason joken result with
          | some kids =>
              obtain ⟨s', hok, hmem⟩ := handleInfo_of_fetched s hkids
              rw [hok, hkids] at hmove
              cases hmove
              constructor
              · intro hall s₀ kids₀ hs₀ hkids₀ kid hkid
                cases hs.symm.trans hs₀
                cases hkids.symm.trans hkids₀
                exact hall s' kids rfl rfl kid ((hmem kid).mpr (Or.inl hkid))
              · intro hlisted s₀ kids₀ hs₀ hkids₀ kid hkid
                cases hs₀
                cases hkids₀
                exact ((hmem kid).mp hkid).elim (hlisted s kids hs hkids kid) id
          | none =>
              refine iff_of_true ?_ ?_
              · cases hok : s.handleInfo jason joken result with
                | error err =>
                    rw [hok] at hmove
                    cases hmove
                    intro s₀ _ hs₀
                    cases hs₀
                | ok s' =>
                    rw [hok, hkids] at hmove
                    cases hmove
                    intro s₀ kids₀ hs₀ hkids₀ kid hkid
                    cases hs₀
                    rw [handleInfo_of_not_fetched hkids hok] at hkid
                    exact h s kids₀ hs hkids₀ kid hkid
              · intro s₀ kids₀ _ hkids₀
                cases hkids.symm.trans hkids₀

/-- Retired keys are refused throughout a run exactly if every key list that is fetched with success
has every key that has a signer by then: nothing is ever taken out of the table. -/
theorem always_retiredRefused_iff (labels : List KeyLabel) :
    (keyMonitor jason joken).Always (RetiredRefused joken) .start labels ↔
      (keyMonitor jason joken).Meets (KeepsListed jason joken) .start labels := by
  apply Machine.always_iff_meets
  · intro m label m' h hmove
    exact retiredRefused_step h hmove
  · intro m label hnone
    cases label with
    | restart => trivial
    | fetch result =>
        intro s kids hs
        simp only [keyMonitor, hs] at hnone
        split at hnone <;> cases hnone
  · rw [retiredRefused_iff]
    intro s kids _ hkids
    cases hkids

end Strategy

/-! ### A rotation -/

/-- A body is the id of the one key that it lists. -/
def oneKey (body : String) : Option Term :=
  some (.map (.cons "keys" (.list (.cons (.map (.cons "kid" (.binary body) .nil)) .nil)) .nil))

/-- A signer is the id of its key; a token is the id of the key that it is signed with. -/
def plainJoken : Joken Term where
  create _ keyParams := keyParams.find? "kid"
  peekHeader token := some (.cons "kid" (.binary token) .nil)
  verifyAndValidate _ token signer := if signer = .binary token then some .nil else none

/-- The auth service has a new key, and publishes the old one no more. -/
def rotation : List KeyLabel := [.fetch (.response 200 "k1"), .fetch (.response 200 "k2")]

theorem not_retiredRefused_rotation :
    ∃ m, (keyMonitor oneKey plainJoken).run .start rotation = some m ∧
      m.published = some [.binary "k2"] ∧
      Authorization.call plainJoken m.strategy 0 ["Bearer k1"] = .ok (.assigned .nil) ∧
      ¬RetiredRefused plainJoken m := by
  refine ⟨_, rfl, by decide, by rfl, ?_⟩
  intro h
  have hlisted := h.signer [.binary "k2"] (by decide) (.binary "k1") (.binary "k1") (by rfl)
  revert hlisted
  decide

end BookHub.HealthMonitor
