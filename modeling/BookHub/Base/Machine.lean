import Mathlib.Data.Option.Basic

/-!
# Machines and their runs

A machine is a step function whose nondeterminism is carried by its labels: the label says who moves
and how the environment answers, and a label that is not enabled gives `none`. A run is a list of
labels. The ways a development argues about runs are packaged here once: an invariant that every step
keeps holds after every run; where only some steps keep it, it holds after every run whose steps all
meet a condition on the state they start from; and what the invariant and the condition give of one
step, they give of each step of such a run.
-/

namespace BookHub

/-- A transition system with a partial step function. -/
structure Machine (State Label : Type) where
  step : State → Label → Option State

namespace Machine

variable {State Label : Type} (m : Machine State Label)

/-- The state after a list of labels, if each of them is enabled when its turn comes. -/
def run : State → List Label → Option State
  | s, [] => some s
  | s, label :: rest => (m.step s label).bind fun s' => run s' rest

/-- Every step of the run meets the condition, judged in the state the step starts from. -/
def Meets (cond : State → Label → Prop) : State → List Label → Prop
  | _, [] => True
  | s, label :: rest => cond s label ∧ ∀ s', m.step s label = some s' → Meets cond s' rest

/-- Every step of the run has the property, a relation between the state before and the state after. -/
def Each (prop : State → Label → State → Prop) : State → List Label → Prop
  | _, [] => True
  | s, label :: rest => ∀ s', m.step s label = some s' → prop s label s' ∧ Each prop s' rest

/-- The predicate holds in every state that the run comes through, the first one included. -/
def Always (inv : State → Prop) : State → List Label → Prop
  | s, [] => inv s
  | s, label :: rest => inv s ∧ ∀ s', m.step s label = some s' → Always inv s' rest

/-- Every step of the run has the property, which may look at the steps before it: at their labels, and
at the states they have started from. -/
def EachPast (prop : List (State × Label) → State → Label → State → Prop) :
    List (State × Label) → State → List Label → Prop
  | _, _, [] => True
  | past, s, label :: rest => ∀ s', m.step s label = some s' →
      prop past s label s' ∧ EachPast prop (past ++ [(s, label)]) s' rest

@[simp] theorem meets_cons (cond : State → Label → Prop) (s : State) (label : Label)
    (rest : List Label) :
    m.Meets cond s (label :: rest) ↔
      cond s label ∧ ∀ s', m.step s label = some s' → m.Meets cond s' rest := Iff.rfl

theorem meets_cons_of_step {cond : State → Label → Prop} {s s' : State} {label : Label}
    {rest : List Label} (h : m.step s label = some s') :
    m.Meets cond s (label :: rest) ↔ cond s label ∧ m.Meets cond s' rest := by
  simp [h]

theorem each_cons_of_step {prop : State → Label → State → Prop} {s s' : State} {label : Label}
    {rest : List Label} (h : m.step s label = some s') :
    m.Each prop s (label :: rest) ↔ prop s label s' ∧ m.Each prop s' rest := by
  simp [Each, h]

/-- A condition that can be evaluated can be evaluated along a run. -/
instance decidableMeets (cond : State → Label → Prop) [∀ s label, Decidable (cond s label)] :
    (s : State) → (labels : List Label) → Decidable (m.Meets cond s labels)
  | _, [] => .isTrue trivial
  | s, label :: rest =>
      match h : m.step s label with
      | none => decidable_of_iff (cond s label) (by simp [h])
      | some s' =>
          have := decidableMeets cond s' rest
          decidable_of_iff (cond s label ∧ m.Meets cond s' rest) (m.meets_cons_of_step h).symm

instance decidableEach (prop : State → Label → State → Prop) [∀ s label s', Decidable (prop s label s')] :
    (s : State) → (labels : List Label) → Decidable (m.Each prop s labels)
  | _, [] => .isTrue trivial
  | s, label :: rest =>
      match h : m.step s label with
      | none => .isTrue (by simp [Each, h])
      | some s' =>
          have := decidableEach prop s' rest
          decidable_of_iff (prop s label s' ∧ m.Each prop s' rest) (m.each_cons_of_step h).symm

theorem meets_append {cond : State → Label → Prop} {s : State} {first second : List Label}
    (h : m.Meets cond s (first ++ second)) :
    m.Meets cond s first ∧ ∀ s', m.run s first = some s' → m.Meets cond s' second := by
  induction first generalizing s with
  | nil =>
      refine ⟨trivial, fun s' hrun => ?_⟩
      cases hrun
      exact h
  | cons label rest ih =>
      obtain ⟨hcond, hrest⟩ := h
      refine ⟨⟨hcond, fun s' hstep => (ih (hrest s' hstep)).1⟩, fun s' hrun => ?_⟩
      obtain ⟨mid, hstep, hrun⟩ := Option.bind_eq_some_iff.mp hrun
      exact (ih (hrest mid hstep)).2 s' hrun

theorem run_append (s : State) (first second : List Label) :
    m.run s (first ++ second) = (m.run s first).bind fun s' => m.run s' second := by
  induction first generalizing s with
  | nil => rfl
  | cons label rest ih =>
      show (m.step s label).bind _ = ((m.step s label).bind _).bind _
      rw [Option.bind_assoc]
      congr 1
      funext s'
      exact ih s'

variable {m}

/-- A machine that is never stuck has a run of any labels. -/
theorem exists_run (htotal : ∀ s label, (m.step s label).isSome) (s : State) (labels : List Label) :
    ∃ s', m.run s labels = some s' := by
  induction labels generalizing s with
  | nil => exact ⟨s, rfl⟩
  | cons label rest ih =>
      obtain ⟨mid, hmid⟩ := Option.isSome_iff_exists.mp (htotal s label)
      obtain ⟨s', hrest⟩ := ih mid
      exact ⟨s', Option.bind_eq_some_iff.mpr ⟨mid, hmid, hrest⟩⟩

/-- A predicate that every step meeting `cond` keeps holds after every run whose steps meet `cond`. -/
theorem invariant_of_meets {cond : State → Label → Prop} {inv : State → Prop}
    (hstep : ∀ s label s', inv s → cond s label → m.step s label = some s' → inv s')
    {s s' : State} {labels : List Label} (hinit : inv s) (hmeets : m.Meets cond s labels)
    (hrun : m.run s labels = some s') : inv s' := by
  induction labels generalizing s with
  | nil =>
      cases hrun
      exact hinit
  | cons label rest ih =>
      obtain ⟨mid, hmid, hrest⟩ := Option.bind_eq_some_iff.mp hrun
      exact ih (hstep s label mid hinit hmeets.1 hmid) (hmeets.2 mid hmid) hrest

/-- What the invariant gives of a state holds in all states of such a run. -/
theorem always_of_meets {cond : State → Label → Prop} {inv prop : State → Prop}
    (hstep : ∀ s label s', inv s → cond s label → m.step s label = some s' → inv s')
    (hprop : ∀ s, inv s → prop s) {s : State} {labels : List Label} (hinit : inv s)
    (hmeets : m.Meets cond s labels) : m.Always prop s labels := by
  induction labels generalizing s with
  | nil => exact hprop s hinit
  | cons label rest ih =>
      refine ⟨hprop s hinit, fun s' hmove => ?_⟩
      exact ih (hstep s label s' hinit hmeets.1 hmove) (hmeets.2 s' hmove)

/-- A condition that each label of the run satisfies. -/
theorem meets_of_labels {good : Label → Prop} {labels : List Label} (h : ∀ label ∈ labels, good label)
    (s : State) : m.Meets (fun _ label => good label) s labels := by
  induction labels generalizing s with
  | nil => trivial
  | cons label rest ih =>
      refine ⟨h label List.mem_cons_self, fun s' _ => ?_⟩
      exact ih (fun other hother => h other (List.mem_cons_of_mem label hother)) s'

/-- A property of the steps that meet `cond` from states where the invariant holds is a property of
every step of a run whose steps meet `cond`. -/
theorem each_of_meets {cond : State → Label → Prop} {prop : State → Label → State → Prop}
    {inv : State → Prop}
    (hstep : ∀ s label s', inv s → cond s label → m.step s label = some s' → inv s')
    (hprop : ∀ s label s', inv s → cond s label → m.step s label = some s' → prop s label s')
    {s : State} {labels : List Label} (hinit : inv s) (hmeets : m.Meets cond s labels) :
    m.Each prop s labels := by
  induction labels generalizing s with
  | nil => trivial
  | cons label rest ih =>
      intro s' hmove
      refine ⟨hprop s label s' hinit hmeets.1 hmove, ?_⟩
      apply ih
      · exact hstep s label s' hinit hmeets.1 hmove
      · exact hmeets.2 s' hmove

/-- Where a step with a good label from a state with `base` keeps the predicate exactly when it meets
`cond`, the runs with such labels that keep it throughout are those whose steps all meet `cond`. -/
theorem always_iff_meets_of_good {good : Label → Prop} {cond : State → Label → Prop}
    {base inv : State → Prop}
    (hbase : ∀ s label s', good label → base s → inv s → m.step s label = some s' → base s')
    (hstep : ∀ s label s', good label → base s → inv s → m.step s label = some s' →
      (inv s' ↔ cond s label))
    (hstuck : ∀ s label, m.step s label = none → cond s label)
    {s : State} {labels : List Label} (hgood : ∀ label ∈ labels, good label) (hs : base s)
    (hinit : inv s) : m.Always inv s labels ↔ m.Meets cond s labels := by
  induction labels generalizing s with
  | nil => exact iff_of_true hinit trivial
  | cons label rest ih =>
      rw [List.forall_mem_cons] at hgood
      obtain ⟨hlabel, hgood⟩ := hgood
      have hfirst : ∀ s', m.Always inv s' rest → inv s' := by
        intro s' h
        cases rest with
        | nil => exact h
        | cons _ _ => exact h.1
      constructor
      · intro h
        obtain ⟨-, hrest⟩ := h
        have hcond : cond s label := by
          cases hmove : m.step s label with
          | none => exact hstuck s label hmove
          | some s' => exact (hstep s label s' hlabel hs hinit hmove).mp (hfirst s' (hrest s' hmove))
        refine ⟨hcond, fun s' hmove => ?_⟩
        have hs' := hbase s label s' hlabel hs hinit hmove
        exact (ih hgood hs' ((hstep s label s' hlabel hs hinit hmove).mpr hcond)).mp (hrest s' hmove)
      · intro h
        obtain ⟨hcond, hrest⟩ := h
        refine ⟨hinit, fun s' hmove => ?_⟩
        have hs' := hbase s label s' hlabel hs hinit hmove
        exact (ih hgood hs' ((hstep s label s' hlabel hs hinit hmove).mpr hcond)).mpr (hrest s' hmove)

theorem always_iff_meets_of_base {cond : State → Label → Prop} {base inv : State → Prop}
    (hbase : ∀ s label s', base s → inv s → m.step s label = some s' → base s')
    (hstep : ∀ s label s', base s → inv s → m.step s label = some s' → (inv s' ↔ cond s label))
    (hstuck : ∀ s label, m.step s label = none → cond s label)
    {s : State} {labels : List Label} (hs : base s) (hinit : inv s) :
    m.Always inv s labels ↔ m.Meets cond s labels :=
  always_iff_meets_of_good (fun s label s' (_ : True) => hbase s label s')
    (fun s label s' (_ : True) => hstep s label s') hstuck (fun _ _ => trivial) hs hinit

theorem always_iff_meets {cond : State → Label → Prop} {inv : State → Prop}
    (hstep : ∀ s label s', inv s → m.step s label = some s' → (inv s' ↔ cond s label))
    (hstuck : ∀ s label, m.step s label = none → cond s label)
    {s : State} {labels : List Label} (hinit : inv s) :
    m.Always inv s labels ↔ m.Meets cond s labels :=
  always_iff_meets_of_base (fun _ _ _ _ _ _ => trivial)
    (fun s label s' (_ : True) hinv hmove => hstep s label s' hinv hmove) hstuck trivial hinit

/-- Where a step has the property exactly when it meets `cond`, the runs whose steps all have it are
those whose steps all meet `cond`. -/
theorem each_iff_meets {cond : State → Label → Prop} {prop : State → Label → State → Prop}
    {inv : State → Prop}
    (hstep : ∀ s label s', inv s → cond s label → m.step s label = some s' → inv s')
    (hprop : ∀ s label s', inv s → m.step s label = some s' → (prop s label s' ↔ cond s label))
    (hstuck : ∀ s label, m.step s label = none → cond s label)
    {s : State} {labels : List Label} (hinit : inv s) :
    m.Each prop s labels ↔ m.Meets cond s labels := by
  refine ⟨fun h => ?_, each_of_meets hstep (fun s label s' hinv hcond hmove =>
    (hprop s label s' hinv hmove).mpr hcond) hinit⟩
  induction labels generalizing s with
  | nil => trivial
  | cons label rest ih =>
      have hcond : cond s label := by
        cases hmove : m.step s label with
        | none => exact hstuck s label hmove
        | some s' => exact (hprop s label s' hinit hmove).mp (h s' hmove).1
      refine ⟨hcond, fun s' hmove => ?_⟩
      exact ih (hstep s label s' hinit hcond hmove) (h s' hmove).2

/-- What each step of a run has, its last step has. -/
theorem each_last {prop : State → Label → State → Prop} {s mid s' : State} {labels : List Label}
    {label : Label} (h : m.Each prop s (labels ++ [label])) (hrun : m.run s labels = some mid)
    (hmove : m.step mid label = some s') : prop mid label s' := by
  induction labels generalizing s with
  | nil =>
      cases hrun
      exact (h s' hmove).1
  | cons first rest ih =>
      obtain ⟨next, hfirst, hrest⟩ := Option.bind_eq_some_iff.mp hrun
      exact ih (h next hfirst).2 hrest

/-- What no step of a run changes is at the end as it was. -/
theorem eq_of_each {τ : Type} {f : State → τ} {s s' : State} {labels : List Label}
    (h : m.Each (fun s _ s' => f s' = f s) s labels) (hrun : m.run s labels = some s') :
    f s' = f s := by
  induction labels generalizing s with
  | nil =>
      cases hrun
      rfl
  | cons label rest ih =>
      obtain ⟨mid, hmid, hrest⟩ := Option.bind_eq_some_iff.mp hrun
      obtain ⟨hsame, heach⟩ := h mid hmid
      rw [ih heach hrest, hsame]

/-- A condition on the labels alone, where every label is enabled. -/
theorem meets_label_iff {good : Label → Prop} (htotal : ∀ s label, (m.step s label).isSome)
    (s : State) (labels : List Label) :
    m.Meets (fun _ label => good label) s labels ↔ ∀ label ∈ labels, good label := by
  induction labels generalizing s with
  | nil => simp [Meets]
  | cons label rest ih =>
      obtain ⟨s', hmove⟩ := Option.isSome_iff_exists.mp (htotal s label)
      rw [m.meets_cons_of_step hmove, ih, List.forall_mem_cons]

theorem forall_step_and {first second : State → Prop} {s : State} {label : Label} :
    (∀ s', m.step s label = some s' → first s' ∧ second s') ↔
      (∀ s', m.step s label = some s' → first s') ∧
        ∀ s', m.step s label = some s' → second s' :=
  ⟨fun h => ⟨fun s' hmove => (h s' hmove).1, fun s' hmove => (h s' hmove).2⟩,
    fun h s' hmove => ⟨h.1 s' hmove, h.2 s' hmove⟩⟩

theorem meets_and_iff {first second : State → Label → Prop} {s : State} {labels : List Label} :
    m.Meets (fun s label => first s label ∧ second s label) s labels ↔
      m.Meets first s labels ∧ m.Meets second s labels := by
  induction labels generalizing s with
  | nil => simp [Meets]
  | cons label rest ih =>
      simp only [meets_cons, ih, forall_step_and]
      exact and_and_and_comm

theorem always_and_iff {first second : State → Prop} {s : State} {labels : List Label} :
    m.Always (fun s => first s ∧ second s) s labels ↔
      m.Always first s labels ∧ m.Always second s labels := by
  induction labels generalizing s with
  | nil => exact Iff.rfl
  | cons label rest ih =>
      simp only [Always, ih, forall_step_and]
      exact and_and_and_comm

theorem meets_of_forall {cond : State → Label → Prop} (h : ∀ s label, cond s label) (s : State)
    (labels : List Label) : m.Meets cond s labels := by
  induction labels generalizing s with
  | nil => trivial
  | cons label rest ih => exact ⟨h s label, fun s' _ => ih s'⟩

/-- A predicate that every step keeps holds after every run. -/
theorem invariant {inv : State → Prop}
    (hstep : ∀ s label s', inv s → m.step s label = some s' → inv s')
    {s s' : State} {labels : List Label} (hinit : inv s) (hrun : m.run s labels = some s') :
    inv s' :=
  invariant_of_meets (fun s label s' hinv _ hmove => hstep s label s' hinv hmove) hinit
    (meets_of_forall (fun _ _ => trivial) s labels) hrun

/-- An invariant of the state and of the steps that have led to it, along a run whose steps meet `cond`. -/
theorem eachPast_of_meets {cond : State → Label → Prop} {inv : List (State × Label) → State → Prop}
    {prop : List (State × Label) → State → Label → State → Prop}
    (hstep : ∀ past s label s', inv past s → cond s label → m.step s label = some s' →
      inv (past ++ [(s, label)]) s')
    (hprop : ∀ past s label s', inv past s → cond s label → m.step s label = some s' →
      prop past s label s')
    {past : List (State × Label)} {s : State} (hinit : inv past s) {labels : List Label}
    (hmeets : m.Meets cond s labels) : m.EachPast prop past s labels := by
  induction labels generalizing past s with
  | nil => trivial
  | cons label rest ih =>
      intro s' hmove
      refine ⟨hprop past s label s' hinit hmeets.1 hmove, ?_⟩
      exact ih (hstep past s label s' hinit hmeets.1 hmove) (hmeets.2 s' hmove)

/-- An invariant of the state and of the steps that have led to it. -/
theorem eachPast_of_invariant {inv : List (State × Label) → State → Prop}
    {prop : List (State × Label) → State → Label → State → Prop}
    (hstep : ∀ past s label s', inv past s → m.step s label = some s' → inv (past ++ [(s, label)]) s')
    (hprop : ∀ past s label s', inv past s → m.step s label = some s' → prop past s label s')
    {past : List (State × Label)} {s : State} (hinit : inv past s) (labels : List Label) :
    m.EachPast prop past s labels :=
  eachPast_of_meets (fun past s label s' hinv _ hmove => hstep past s label s' hinv hmove)
    (fun past s label s' hinv _ hmove => hprop past s label s' hinv hmove) hinit
    (meets_of_forall (fun _ _ => trivial) s labels)

/-- Where every step of one machine is a step of another one on a part of the state, or leaves that part
as it is, so is every run. -/
theorem run_filterMap {State' Label' : Type} {m' : Machine State' Label'}
    {label? : Label → Option Label'} {part : State → State'}
    (hskip : ∀ s label s', label? label = none → m.step s label = some s' → part s' = part s)
    (hstep : ∀ s label s' label', label? label = some label' → m.step s label = some s' →
      m'.step (part s) label' = some (part s'))
    {s s' : State} {labels : List Label} (hrun : m.run s labels = some s') :
    m'.run (part s) (labels.filterMap label?) = some (part s') := by
  induction labels generalizing s with
  | nil =>
      cases hrun
      rfl
  | cons label rest ih =>
      obtain ⟨mid, hmid, hrest⟩ := Option.bind_eq_some_iff.mp hrun
      cases hlabel : label? label with
      | none =>
          rw [List.filterMap_cons_none hlabel, ← hskip s label mid hlabel hmid]
          exact ih hrest
      | some label' =>
          rw [List.filterMap_cons_some hlabel]
          exact Option.bind_eq_some_iff.mpr
            ⟨part mid, hstep s label mid label' hlabel hmid, ih hrest⟩

/-- Where every step lowers a rank, a run is not longer than the rank it begins with. -/
theorem length_le_of_rank {inv : State → Prop} {rank : State → Nat}
    (hstep : ∀ s label s', inv s → m.step s label = some s' → inv s' ∧ rank s' < rank s)
    {s s' : State} {labels : List Label} (hinit : inv s) (hrun : m.run s labels = some s') :
    labels.length ≤ rank s := by
  induction labels generalizing s with
  | nil => exact Nat.zero_le _
  | cons label rest ih =>
      obtain ⟨mid, hmid, hrest⟩ := Option.bind_eq_some_iff.mp hrun
      obtain ⟨hinv, hlt⟩ := hstep s label mid hinit hmid
      have hle := ih hinv hrest
      rw [List.length_cons]
      omega

/-- Where every step of one machine can be followed by the same step of another, so can every run. -/
theorem run_of_simulates {State' : Type} {m' : Machine State' Label} {rel : State → State' → Prop}
    (hstep : ∀ s t label s', rel s t → m.step s label = some s' →
      ∃ t', m'.step t label = some t' ∧ rel s' t')
    {s s' : State} {t : State'} {labels : List Label} (h : rel s t) (hrun : m.run s labels = some s') :
    ∃ t', m'.run t labels = some t' ∧ rel s' t' := by
  induction labels generalizing s t with
  | nil =>
      cases hrun
      exact ⟨t, rfl, h⟩
  | cons label rest ih =>
      obtain ⟨mid, hmid, hrest⟩ := Option.bind_eq_some_iff.mp hrun
      obtain ⟨mid', hmid', hrel⟩ := hstep s t label mid h hmid
      obtain ⟨t', ht', hfinal⟩ := ih hrel hrest
      exact ⟨t', Option.bind_eq_some_iff.mpr ⟨mid', hmid', ht'⟩, hfinal⟩

/-- Where every step of one machine is the step of another on what the states stand for, so is every
run. -/
theorem run_map {State' : Type} {m' : Machine State' Label} {f : State → State'} {inv : State' → Prop}
    (hstep : ∀ s label, inv (f s) → (m.step s label).map f = m'.step (f s) label)
    (hinv : ∀ s label s', inv s → m'.step s label = some s' → inv s')
    {s : State} (hinit : inv (f s)) (labels : List Label) :
    (m.run s labels).map f = m'.run (f s) labels := by
  induction labels generalizing s with
  | nil => rfl
  | cons label rest ih =>
      have hmove := hstep s label hinit
      show ((m.step s label).bind _).map f = (m'.step (f s) label).bind _
      rw [← hmove]
      cases hmid : m.step s label with
      | none => rfl
      | some mid =>
          rw [hmid] at hmove
          exact ih (hinv (f s) label (f mid) hinit hmove.symm)

end Machine

end BookHub
