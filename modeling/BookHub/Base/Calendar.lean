import BookHub.Base.Jason

/-!
# Dates written and read back

The writer of instants finds the year by a guess and the month by a count, and the reader adds the days
up again. Both are about the same calendar: `dateFromIsoDays_spec`. With the decimals, which are written
as many as the instant has, the reader gets back what was written: `parseUtc?_toIso8601`. An instant that
was read has that many decimals, so to write it and to read it again changes nothing:
`fromIso8601_toIso8601`.
-/

namespace BookHub.Elixir

/-! ### Decimal digits -/

def digitChar (digit : Nat) : Char := Char.ofNat ('0'.toNat + digit)

/-- The last digit comes last. -/
theorem pad_succ (width value : Nat) :
    pad (width + 1) value = pad width (value / 10) ++ [digitChar (value % 10)] := by
  unfold pad
  rw [List.range_succ_eq_map, List.reverse_cons, List.map_append, ← List.map_reverse, List.map_map]
  congr 1
  · apply List.map_congr_left
    intro i _
    show Char.ofNat ('0'.toNat + value / 10 ^ (i + 1) % 10) = _
    rw [Nat.pow_succ', Nat.div_div_eq_div_mul]
  · show [Char.ofNat ('0'.toNat + value / 1 % 10)] = _
    rw [Nat.div_one]
    rfl

theorem length_pad (width value : Nat) : (pad width value).length = width := by
  simp [pad]

/-- The first digits are those of the number without its last ones. -/
theorem take_pad {kept width : Nat} (h : kept ≤ width) (value : Nat) :
    (pad width value).take kept = pad kept (value / 10 ^ (width - kept)) := by
  induction width generalizing value with
  | zero =>
      obtain rfl := Nat.le_zero.mp h
      rfl
  | succ width ih =>
      obtain hlt | rfl := Nat.lt_or_eq_of_le h
      · have hle : kept ≤ width := Nat.le_of_lt_succ hlt
        rw [pad_succ, List.take_append_of_le_length (by rwa [length_pad]), ih hle,
          Nat.succ_sub hle, Nat.pow_succ', Nat.div_div_eq_div_mul]
      · rw [Nat.sub_self, Nat.pow_zero, Nat.div_one]
        exact List.take_of_length_le (Nat.le_of_eq (length_pad _ _))

theorem digitChar_facts : ∀ digit < 10, DateTime.digit? (digitChar digit) = some digit ∧
    (digitChar digit).isDigit = true ∧ digitChar digit ≠ '-' ∧ digitChar digit ≠ '+' := by decide

theorem isDigit_of_mem_pad {width value : Nat} {c : Char} (h : c ∈ pad width value) :
    c.isDigit = true := by
  obtain ⟨i, -, rfl⟩ := List.mem_map.mp h
  exact (digitChar_facts _ (Nat.mod_lt _ (by decide))).2.1

namespace DateTime

theorem number?_concat (digits : List Char) (c : Char) :
    number? (digits ++ [c]) =
      (number? digits).bind fun value => (digit? c).map fun digit => 10 * value + digit := by
  simp only [number?, List.foldlM_append, List.foldlM_cons, List.foldlM_nil, Option.bind_eq_bind]
  congr 1
  funext value
  cases digit? c <;> rfl

theorem number?_pad (width value : Nat) : number? (pad width value) = some (value % 10 ^ width) := by
  induction width generalizing value with
  | zero =>
      rw [Nat.pow_zero, Nat.mod_one]
      rfl
  | succ width ih =>
      rw [pad_succ, number?_concat, ih, (digitChar_facts _ (Nat.mod_lt _ (by decide))).1,
        Nat.pow_succ', Nat.mod_mul, Nat.add_comm]
      rfl

theorem number?_pad_of_lt {width value : Nat} (h : value < 10 ^ width) :
    number? (pad width value) = some value := by
  rw [number?_pad, Nat.mod_eq_of_lt h]

/-! ### The calendar -/

theorem daysInPreviousYears_succ (year : Int) :
    daysInPreviousYears (year + 1) =
      daysInPreviousYears year + (if leapYear year then 366 else 365) := by
  unfold daysInPreviousYears leapYear
  simp only [Bool.and_eq_true, decide_eq_true_eq, Bool.or_eq_true]
  split <;> omega

/-- The guess is off by one at most. -/
theorem yearOfIsoDays_spec (days : Int) :
    daysInPreviousYears (yearOfIsoDays days) ≤ days ∧
      days < daysInPreviousYears (yearOfIsoDays days + 1) := by
  have hguess : daysInPreviousYears (days * 400 / 146097 - 1) ≤ days := by
    unfold daysInPreviousYears
    omega
  have hguess' : days < daysInPreviousYears (days * 400 / 146097 + 2) := by
    unfold daysInPreviousYears
    omega
  unfold yearOfIsoDays
  simp only
  split
  · rename_i h
    exact ⟨h, by rwa [Int.add_assoc]⟩
  · split
    · rename_i h h'
      exact ⟨h', by omega⟩
    · rename_i h h'
      refine ⟨hguess, ?_⟩
      rw [Int.sub_add_cancel]
      omega

theorem daysBeforeMonth_succ (year : Int) (month : Nat) :
    daysBeforeMonth year (month + 2) =
      daysBeforeMonth year (month + 1) + daysInMonth year (month + 1) := by
  show (List.range (month + 1)).foldl _ 0 = (List.range month).foldl _ 0 + _
  rw [List.range_succ, List.foldl_append]
  rfl

theorem daysBeforeMonth_mono (year : Int) {month month' : Nat} (h : month ≤ month') :
    daysBeforeMonth year (month + 1) ≤ daysBeforeMonth year (month' + 1) := by
  induction h with
  | refl => exact Nat.le_refl _
  | step _ ih =>
      rw [daysBeforeMonth_succ]
      exact Nat.le_trans ih (Nat.le_add_right _ _)

theorem daysBeforeMonth_thirteen (year : Int) :
    daysBeforeMonth year 13 = if leapYear year then 366 else 365 := by
  cases hleap : leapYear year <;> simp [daysBeforeMonth, List.range_succ, daysInMonth, hleap]

/-- Where a predicate holds up to some number and not from there on, that number is how many of a range
satisfy it. -/
theorem length_filter_range {p : Nat → Bool} (hdown : ∀ i j, i ≤ j → p j = true → p i = true)
    (n : Nat) : ∃ k ≤ n, ((List.range n).filter p).length = k ∧ (∀ i < k, p i = true) ∧
      ∀ i < n, k ≤ i → p i = false := by
  induction n with
  | zero => exact ⟨0, Nat.le_refl _, rfl, by simp, by simp⟩
  | succ n ih =>
      rw [List.range_succ, List.filter_append, List.length_append]
      obtain ⟨k, hk, hlength, hbelow, habove⟩ := ih
      cases hp : p n with
      | true =>
          have hall : k = n := by
            by_contra hne
            have hkn := hdown k n hk hp
            rw [habove k (by omega) (Nat.le_refl _)] at hkn
            cases hkn
          subst hall
          refine ⟨k + 1, Nat.le_refl _, by simp [hp, hlength], ?_, ?_⟩
          · intro i hi
            exact hdown i k (by omega) hp
          · intro i hi hle
            omega
      | false =>
          refine ⟨k, by omega, by simp [hp, hlength], hbelow, ?_⟩
          intro i hi hle
          by_cases hin : i = n
          · rw [hin, hp]
          · exact habove i (by omega) hle

/-- Of a day of the year, the month and the day of the month. -/
theorem monthOfDay_spec (year : Int) {dayOfYear : Nat}
    (hday : dayOfYear < if leapYear year then 366 else 365) {month : Nat}
    (hmonth : month =
      ((List.range 12).filter fun m => daysBeforeMonth year (m + 1) ≤ dayOfYear).length) :
    1 ≤ month ∧ month ≤ 12 ∧ daysBeforeMonth year month ≤ dayOfYear ∧
      dayOfYear < daysBeforeMonth year month + daysInMonth year month := by
  have hdown : ∀ i j, i ≤ j → decide (daysBeforeMonth year (j + 1) ≤ dayOfYear) = true →
      decide (daysBeforeMonth year (i + 1) ≤ dayOfYear) = true := by
    intro i j hij hj
    have hle := of_decide_eq_true hj
    exact decide_eq_true (Nat.le_trans (daysBeforeMonth_mono year hij) hle)
  obtain ⟨k, hk, hlength, hbelow, habove⟩ := length_filter_range hdown 12
  rw [hlength] at hmonth
  subst hmonth
  have hpos : 1 ≤ month := by
    by_contra hzero
    have hfirst := habove 0 (by decide) (by omega)
    have hfalse : ¬ daysBeforeMonth year 1 ≤ dayOfYear := of_decide_eq_false hfirst
    exact hfalse (Nat.zero_le _)
  obtain ⟨previous, rfl⟩ := Nat.exists_eq_add_of_le' hpos
  have hle : daysBeforeMonth year (previous + 1) ≤ dayOfYear :=
    of_decide_eq_true (hbelow previous (Nat.lt_succ_self _))
  refine ⟨hpos, hk, hle, ?_⟩
  rw [← daysBeforeMonth_succ]
  obtain hlt | heq := Nat.lt_or_eq_of_le hk
  · exact Nat.lt_of_not_le (of_decide_eq_false (habove (previous + 1) hlt (Nat.le_refl _)))
  · have hthirteen := daysBeforeMonth_thirteen year
    have hprevious : previous = 11 := by omega
    subst hprevious
    rw [hthirteen]
    exact hday

/-- Every day is a date of the calendar, and the date is that day. -/
theorem dateFromIsoDays_spec {days year : Int} {month day : Nat}
    (h : dateFromIsoDays days = (year, month, day)) :
    validDate year month day = true ∧ dateToIsoDays year month day = days ∧
      daysInPreviousYears year ≤ days ∧ days < daysInPreviousYears (year + 1) := by
  obtain ⟨hle, hlt⟩ := yearOfIsoDays_spec days
  simp only [dateFromIsoDays, Prod.mk.injEq] at h
  obtain ⟨hyear, hmonth, hday⟩ := h
  rw [hyear] at hle hlt hmonth hday
  have hdayOfYear : (days - daysInPreviousYears year).toNat <
      if leapYear year then 366 else 365 := by
    rw [daysInPreviousYears_succ] at hlt
    split at hlt
    · rename_i hleap
      rw [if_pos hleap]
      omega
    · rename_i hleap
      rw [if_neg hleap]
      omega
  obtain ⟨hfirst, hlast, hbefore, hin⟩ := monthOfDay_spec year hdayOfYear hmonth.symm
  rw [hmonth] at hday
  have hrange : 1 ≤ day ∧ day ≤ daysInMonth year month := by omega
  refine ⟨?_, ?_, hle, hlt⟩
  · simp [validDate, hfirst, hlast, hrange.1, hrange.2]
  · unfold dateToIsoDays
    omega

/-! ### The text of an instant -/

/-- The date that an instant falls on, in UTC. -/
def dateText (micros : Int) : List Char :=
  let (year, month, day) := dateFromIsoDays (micros / 86400000000)
  (if year < 0 then ['-'] else []) ++ pad 4 year.natAbs ++ '-' :: pad 2 month ++ '-' :: pad 2 day

/-- The time of that day, in whole seconds. -/
def timeText (micros : Int) : List Char :=
  let seconds := (micros % 86400000000).toNat / 1000000
  pad 2 (seconds / 3600) ++ ':' :: pad 2 (seconds / 60 % 60) ++ ':' :: pad 2 (seconds % 60)

theorem parseDate_pad {year month day : Nat} (hyear : year < 10000) (hmonth : month < 100)
    (hday : day < 100) (rest : List Char) :
    parseDate (pad 4 year ++ '-' :: (pad 2 month ++ '-' :: (pad 2 day ++ rest))) =
      some ((year, month, day), rest) := by
  have hy := @number?_pad_of_lt 4 year hyear
  have hm := @number?_pad_of_lt 2 month hmonth
  have hd := @number?_pad_of_lt 2 day hday
  have hfour : pad 4 year = [digitChar (year / 10 ^ 3 % 10), digitChar (year / 10 ^ 2 % 10),
      digitChar (year / 10 ^ 1 % 10), digitChar (year / 10 ^ 0 % 10)] := rfl
  have htwo : ∀ value, pad 2 value =
      [digitChar (value / 10 ^ 1 % 10), digitChar (value / 10 ^ 0 % 10)] := fun _ => rfl
  rw [hfour] at hy ⊢
  rw [htwo] at hm hd
  rw [htwo month, htwo day]
  simp only [List.cons_append, List.nil_append, parseDate, hy, hm, hd]
  rfl

theorem parseTime_pad {hour minute second : Nat} (hhour : hour < 100) (hminute : minute < 100)
    (hsecond : second < 100) (rest : List Char) :
    parseTime (pad 2 hour ++ ':' :: (pad 2 minute ++ ':' :: (pad 2 second ++ rest))) =
      some ((hour, minute, second), rest) := by
  have hh := @number?_pad_of_lt 2 hour hhour
  have hm := @number?_pad_of_lt 2 minute hminute
  have hs := @number?_pad_of_lt 2 second hsecond
  have htwo : ∀ value, pad 2 value =
      [digitChar (value / 10 ^ 1 % 10), digitChar (value / 10 ^ 0 % 10)] := fun _ => rfl
  rw [htwo] at hh hm hs
  rw [htwo hour, htwo minute, htwo second]
  simp only [List.cons_append, List.nil_append, parseTime, hh, hm, hs]
  rfl

/-- A year without a minus has no sign. -/
theorem parseSign_pad (year : Nat) (rest : List Char) :
    parseSign (pad 4 year ++ rest) = (1, pad 4 year ++ rest) := by
  obtain ⟨-, -, hminus, hplus⟩ := digitChar_facts _ (Nat.mod_lt (year / 10 ^ 3) (by decide : 0 < 10))
  show parseSign (digitChar (year / 10 ^ 3 % 10) :: _) = (1, digitChar (year / 10 ^ 3 % 10) :: _)
  unfold parseSign
  split
  · rename_i heq
    exact absurd (List.cons.inj heq).1 hminus
  · rename_i heq
    exact absurd (List.cons.inj heq).1 hplus
  · rfl

theorem parseMicrosecond_pad {precision value : Nat} (hpos : 0 < precision) (hle : precision ≤ 6)
    (hvalue : value < 10 ^ precision) :
    parseMicrosecond ('.' :: (pad precision value ++ ['Z'])) =
      some ((value * 10 ^ (6 - precision), precision), ['Z']) := by
  have htake : (pad precision value ++ ['Z']).takeWhile Char.isDigit = pad precision value := by
    rw [List.takeWhile_append_of_pos fun c hc => isDigit_of_mem_pad hc]
    exact List.append_nil _
  have hdrop : (pad precision value ++ ['Z']).dropWhile Char.isDigit = ['Z'] := by
    rw [List.dropWhile_append_of_pos fun c hc => isDigit_of_mem_pad hc]
    rfl
  have hkept : (pad precision value).take 6 = pad precision value :=
    List.take_of_length_le (by rwa [length_pad])
  show parseFraction (pad precision value ++ ['Z']) = _
  unfold parseFraction
  rw [htake, hdrop]
  have hnumber := number?_pad_of_lt hvalue
  have hlength := length_pad precision value
  cases hdigits : pad precision value with
  | nil =>
      rw [hdigits, List.length_nil] at hlength
      omega
  | cons digit digits =>
      rw [hdigits] at hkept hnumber hlength
      simp only [hkept, hnumber, hlength]
      rfl

/-! ### Reading it back -/

/-- The seconds since midnight. -/
def secondsOfDay (micros : Int) : Nat := (micros % 86400000000).toNat / 1000000

theorem secondsOfDay_lt (micros : Int) : secondsOfDay micros < 86400 := by
  unfold secondsOfDay
  omega

theorem parseTime_timeText (micros : Int) (rest : List Char) :
    parseTime (timeText micros ++ rest) =
      some ((secondsOfDay micros / 3600, secondsOfDay micros / 60 % 60, secondsOfDay micros % 60),
        rest) := by
  have hlt := secondsOfDay_lt micros
  have hparsed := @parseTime_pad (secondsOfDay micros / 3600) (secondsOfDay micros / 60 % 60)
    (secondsOfDay micros % 60) (by omega) (by omega) (by omega) rest
  rw [← hparsed]
  rfl

/-- The sign and the digits of a date; the year has four of them. -/
theorem parseSign_dateText {micros year : Int} {month day : Nat}
    (hdate : dateFromIsoDays (micros / 86400000000) = (year, month, day)) (rest : List Char) :
    parseSign (dateText micros ++ rest) = ((if year < 0 then -1 else 1),
      pad 4 year.natAbs ++ '-' :: (pad 2 month ++ '-' :: (pad 2 day ++ rest))) := by
  unfold dateText
  simp only [hdate]
  split
  · simp [parseSign]
  · rw [List.nil_append]
    simp only [List.append_assoc, List.cons_append]
    exact parseSign_pad _ _

/-- The years of the calendar have four digits, and the other parts of a date two. -/
theorem date_bounds {days year : Int} {month day : Nat}
    (hdate : dateFromIsoDays days = (year, month, day)) (hle : -3652059 ≤ days)
    (hlt : days ≤ 3652424) : year.natAbs < 10000 ∧ month < 100 ∧ day < 100 := by
  obtain ⟨hvalid, -, hfirst, hlast⟩ := dateFromIsoDays_spec hdate
  simp only [validDate, Bool.and_eq_true, decide_eq_true_eq] at hvalid
  have hday : daysInMonth year month ≤ 31 := by
    unfold daysInMonth
    split
    · split <;> decide
    · split <;> decide
  unfold daysInPreviousYears at hfirst hlast
  omega

/-- A text of the date, the time and some decimals is the instant that they make. -/
theorem parseUtc?_text {micros : Int} (hcalendar : inCalendar ⟨micros, 0⟩ = true)
    {decimals : List Char} {fraction precision : Nat}
    (hdecimals : parseMicrosecond (decimals ++ ['Z']) = some ((fraction, precision), ['Z'])) :
    parseUtc? (String.ofList (dateText micros ++ 'T' :: (timeText micros ++ (decimals ++ ['Z'])))) =
      some ⟨micros / 1000000 * 1000000 + fraction, precision⟩ := by
  unfold inCalendar at hcalendar
  rw [Bool.and_eq_true, decide_eq_true_eq, decide_eq_true_eq] at hcalendar
  obtain ⟨hle, hlt⟩ := hcalendar
  obtain ⟨year, month, day, hdate⟩ :
      ∃ year month day, dateFromIsoDays (micros / 86400000000) = (year, month, day) := ⟨_, _, _, rfl⟩
  obtain ⟨hyear, hmonth, hday⟩ := date_bounds hdate hle hlt
  obtain ⟨hvalid, hdays, -, -⟩ := dateFromIsoDays_spec hdate
  have hsign : (if year < 0 then (-1 : Int) else 1) * year.natAbs = year := by
    split <;> omega
  have hseconds := secondsOfDay_lt micros
  have htime : validTime (secondsOfDay micros / 3600) (secondsOfDay micros / 60 % 60)
      (secondsOfDay micros % 60) = true := by
    simp only [validTime, Bool.and_eq_true, decide_eq_true_eq]
    omega
  unfold parseUtc?
  rw [String.toList_ofList, parseSign_dateText hdate]
  simp only [parseDate_pad hyear hmonth hday, Option.bind_eq_bind, Option.bind_some, List.head?_cons,
    List.tail_cons, parseTime_timeText, hdecimals, hsign, hvalid, htime]
  have hwhole : (micros / 86400000000 * 86400 + (((secondsOfDay micros / 3600 : Nat) : Int) * 3600 +
      ((secondsOfDay micros / 60 % 60 : Nat) : Int) * 60 + ((secondsOfDay micros % 60 : Nat) : Int)) - 0) *
        1000000 = micros / 1000000 * 1000000 := by
    unfold secondsOfDay
    omega
  have hoffset : parseOffset ['Z'] = some 0 := rfl
  rw [hoffset, hdays]
  rw [if_neg (by decide)]
  exact congrArg (fun whole => some (DateTime.mk (whole + fraction) precision)) hwhole

/-! ### What is written is read back -/

/-- The decimals that an instant is written with. -/
def decimals (micros : Int) (precision : Nat) : List Char :=
  if precision = 0 then []
  else '.' :: (pad 6 ((micros % 86400000000).toNat % 1000000)).take precision

theorem toIso8601_eq (dt : DateTime) :
    dt.toIso8601 = String.ofList (dateText dt.micros ++
      'T' :: (timeText dt.micros ++ (decimals dt.micros dt.precision ++ ['Z']))) := by
  simp [toIso8601, dateText, timeText, decimals, List.append_assoc]

/-- An instant without decimals beyond those it is written with, on a day of the calendar. -/
structure Written (dt : DateTime) : Prop where
  precision : dt.precision ≤ 6
  decimals : ((10 ^ (6 - dt.precision) : Nat) : Int) ∣ dt.micros
  calendar : dt.inCalendar = true

/-- As many decimals of the seconds as there are. -/
theorem parseMicrosecond_decimals (micros : Int) {precision : Nat} (hprecision : precision ≤ 6)
    (hdvd : ((10 ^ (6 - precision) : Nat) : Int) ∣ micros) :
    parseMicrosecond (decimals micros precision ++ ['Z']) =
      some (((micros % 1000000).toNat, precision), ['Z']) := by
  have hmicros : (micros % 86400000000).toNat % 1000000 = (micros % 1000000).toNat := by omega
  have hpow : (10 ^ (6 - precision) : Nat) ∣ 10 ^ 6 := Nat.pow_dvd_pow 10 (Nat.sub_le 6 precision)
  have hdvd' : 10 ^ (6 - precision) ∣ (micros % 1000000).toNat := by
    rw [← Int.natCast_dvd_natCast, Int.toNat_of_nonneg (Int.emod_nonneg _ (by decide))]
    apply Int.dvd_of_emod_eq_zero
    show micros % ((10 ^ 6 : Nat) : Int) % _ = 0
    rw [Int.emod_emod_of_dvd _ (Int.natCast_dvd_natCast.mpr hpow)]
    exact Int.emod_eq_zero_of_dvd hdvd
  unfold decimals
  by_cases hzero : precision = 0
  · subst hzero
    obtain ⟨k, hk⟩ := hdvd'
    have hnone : (micros % 1000000).toNat = 0 := by omega
    rw [if_pos rfl, hnone]
    rfl
  · have hsplit : 10 ^ precision * 10 ^ (6 - precision) = 10 ^ 6 := by
      rw [← Nat.pow_add, Nat.add_sub_cancel' hprecision]
    have hvalue : (micros % 1000000).toNat / 10 ^ (6 - precision) < 10 ^ precision := by
      apply Nat.div_lt_of_lt_mul
      rw [Nat.mul_comm, hsplit]
      omega
    rw [if_neg hzero, hmicros, take_pad hprecision, List.cons_append,
      parseMicrosecond_pad (Nat.pos_of_ne_zero hzero) hprecision hvalue, Nat.div_mul_cancel hdvd']

/-- The reader gives back the instant that was written. -/
theorem parseUtc?_toIso8601 {dt : DateTime} (h : Written dt) : parseUtc? dt.toIso8601 = some dt := by
  rw [toIso8601_eq, parseUtc?_text h.calendar
    (parseMicrosecond_decimals dt.micros h.precision h.decimals)]
  have hmicros : dt.micros / 1000000 * 1000000 + ((dt.micros % 1000000).toNat : Int) = dt.micros := by
    omega
  rw [hmicros]

/-! ### What is read can be written -/

theorem parseMicrosecond_spec {chars rest : List Char} {value precision : Nat}
    (h : parseMicrosecond chars = some ((value, precision), rest)) :
    precision ≤ 6 ∧ 10 ^ (6 - precision) ∣ value := by
  have hfraction : ∀ chars, parseFraction chars = some ((value, precision), rest) →
      precision ≤ 6 ∧ 10 ^ (6 - precision) ∣ value := by
    intro chars hparsed
    unfold parseFraction at hparsed
    split at hparsed
    · cases hparsed
    · obtain ⟨number, -, heq⟩ := Option.bind_eq_some_iff.mp hparsed
      simp only [Option.pure_def, Option.some_inj, Prod.mk.injEq] at heq
      obtain ⟨⟨rfl, rfl⟩, -⟩ := heq
      exact ⟨List.length_take_le _ _, Nat.dvd_mul_left _ _⟩
  unfold parseMicrosecond at h
  split at h
  · exact hfraction _ h
  · exact hfraction _ h
  · cases h
    exact ⟨Nat.zero_le _, Nat.dvd_zero _⟩

theorem written_of_parseUtc? {text : String} {dt : DateTime} (h : parseUtc? text = some dt)
    (hcalendar : dt.inCalendar = true) : Written dt := by
  unfold parseUtc? at h
  simp only [Option.bind_eq_bind, Option.bind_eq_some_iff] at h
  obtain ⟨date, -, separator, -, h⟩ := h
  split at h
  · simp at h
  · simp only [Option.bind_eq_some_iff] at h
    obtain ⟨time, -, ⟨⟨value, precision⟩, rest⟩, hfraction, offset, -, h⟩ := h
    obtain ⟨hprecision, hvalue⟩ := parseMicrosecond_spec hfraction
    split at h
    · cases h
      refine ⟨hprecision, ?_, hcalendar⟩
      have hseconds : ((10 ^ (6 - precision) : Nat) : Int) ∣ 1000000 :=
        Int.natCast_dvd_natCast.mpr (Nat.pow_dvd_pow 10 (Nat.sub_le 6 precision))
      exact Int.dvd_add (Int.dvd_mul_of_dvd_right hseconds) (Int.natCast_dvd_natCast.mpr hvalue)
    · cases h

/-- An instant that has been read is written as a text that is read as the same instant. -/
theorem fromIso8601_toIso8601 {term : Term} {dt : DateTime}
    (h : fromIso8601 term = .ok (some dt)) :
    fromIso8601 (.binary dt.toIso8601) = .ok (some dt) := by
  unfold fromIso8601 at h
  split at h
  · split at h
    · cases h
    · rename_i found hparsed
      split at h
      · rename_i hcalendar
        cases h
        have hwritten := written_of_parseUtc? hparsed hcalendar
        simp only [fromIso8601, parseUtc?_toIso8601 hwritten, hcalendar, if_true]
      · cases h
  · cases h

end DateTime

end BookHub.Elixir
