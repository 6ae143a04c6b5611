-- The formats of days and times. A check accepts what has its shape and is in the calendar, tells a
-- day or time that does not exist from a text of another shape, and reports nothing else. What it
-- accepts as an instant is read as one, to the second that it writes.
import CauseLists.Bundled.Regex.Reader
import CauseLists.Proofs.Calendar.Reading
import CauseLists.Proofs.Pattern.Rows

namespace CauseLists.Format

open Text

/-! ## Expressions -/

/-- The expression of days as it is written. -/
theorem read_dateExpr :
    Regex.read .rules "^([0-9]\x7b4\x7d)-([0-9]\x7b2\x7d)-([0-9]\x7b2\x7d)$" = .ok dateExpr := by
  rfl

/-- The expression of instants as it is written. -/
theorem read_dateTimeExpr :
    Regex.read .rules ("^([0-9]\x7b4\x7d)-([0-9]\x7b2\x7d)-([0-9]\x7b2\x7d)T" ++
      "([0-9]\x7b2\x7d):([0-9]\x7b2\x7d):([0-9]\x7b2\x7d)" ++
      "(?:\\.(?:[0-9]\x7b3\x7d|[0-9]\x7b9\x7d))?Z$") = .ok dateTimeExpr := by
  rfl

theorem mem_language_digits {count : Nat} {cs : List Char} :
    cs ∈ (times count digit).language ↔ IsNumeral count (valueOf cs) cs := by
  have hdigits : cs ∈ digit.language ^ count ↔
      cs.length = count ∧ ∀ c ∈ cs, '0' ≤ c ∧ c ≤ '9' := by
    induction count generalizing cs with
    | zero =>
      rw [pow_zero, Language.mem_one, List.length_eq_zero_iff]
      constructor
      · rintro rfl
        simp
      · exact And.left
    | succ count ih =>
      simp only [pow_succ', Language.mem_mul, mem_language_digit, ih]
      constructor
      · rintro ⟨_, ⟨c, hc, rfl⟩, rest, ⟨rfl, hrest⟩, rfl⟩
        exact ⟨rfl, List.forall_mem_cons.mpr ⟨hc, hrest⟩⟩
      · rintro ⟨hlength, hall⟩
        obtain ⟨c, rest, rfl⟩ := List.exists_cons_of_length_eq_add_one hlength
        obtain ⟨hc, hrest⟩ := List.forall_mem_cons.mp hall
        exact ⟨[c], ⟨c, hc, rfl⟩, rest, ⟨Nat.succ.inj hlength, hrest⟩, rfl⟩
  rw [language_times, hdigits]
  constructor
  · rintro ⟨hlength, hall⟩
    exact ⟨hlength, hall, rfl⟩
  · rintro ⟨hlength, hall, -⟩
    exact ⟨hlength, hall⟩

theorem mem_language_dayParts {cs : List Char} :
    cs ∈ (dayParts.map Expr.language).prod ↔ ∃ d, WritesDate d cs := by
  simp only [dayParts, List.map_cons, List.map_nil, List.prod_cons, List.prod_nil, mul_one,
    Language.mem_mul, mem_language_digits, mem_language_literally]
  constructor
  · rintro ⟨y, hyear, _, ⟨_, rfl, _, ⟨m, hmonth, _, ⟨_, rfl, d, hday, rfl⟩, rfl⟩, rfl⟩, rfl⟩
    exact ⟨_, .parts hyear hmonth hday⟩
  · rintro ⟨_, ⟨hyear, hmonth, hday⟩⟩
    exact ⟨_, hyear.itself, _, ⟨_, rfl, _, ⟨_, hmonth.itself, _, ⟨_, rfl, _, hday.itself, rfl⟩,
      rfl⟩, rfl⟩, rfl⟩

theorem mem_language_timeParts {cs : List Char} :
    cs ∈ (timeParts.map Expr.language).prod ↔
      ∃ hour minute second, WritesTime hour minute second cs := by
  simp only [timeParts, List.map_cons, List.map_nil, List.prod_cons, List.prod_nil, mul_one,
    Language.mem_mul, mem_language_digits, mem_language_literally]
  constructor
  · rintro ⟨h, hhour, _, ⟨_, rfl, _, ⟨m, hminute, _, ⟨_, rfl, s, hsecond, rfl⟩, rfl⟩, rfl⟩, rfl⟩
    exact ⟨_, _, _, .parts hhour hminute hsecond⟩
  · rintro ⟨_, _, _, ⟨hhour, hminute, hsecond⟩⟩
    exact ⟨_, hhour.itself, _, ⟨_, rfl, _, ⟨_, hminute.itself, _, ⟨_, rfl, _, hsecond.itself, rfl⟩,
      rfl⟩, rfl⟩, rfl⟩

theorem mem_language_fraction {cs : List Char} : cs ∈ fraction.language ↔ ∃ ds : List Char,
    (∀ c ∈ ds, '0' ≤ c ∧ c ≤ '9') ∧ (ds.length = 0 ∨ ds.length = 3 ∨ ds.length = 9) ∧
      cs = fractionText ds := by
  rw [fraction, mem_language_optional, language_inTurn]
  simp only [List.map_cons, List.map_nil, List.prod_cons, List.prod_nil, mul_one, Language.mem_mul,
    mem_language_literally, language_anyOf _ (List.cons_ne_nil _ _), List.sum_cons, List.sum_nil,
    add_zero, Language.mem_add, mem_language_digits]
  constructor
  · rintro (rfl | ⟨_, rfl, ds, hds, rfl⟩)
    · exact ⟨[], by simp, .inl rfl, rfl⟩
    · have hcount : ds.length = 3 ∨ ds.length = 9 := hds.imp (·.length) (·.length)
      have hsome : ds ≠ [] := by
        rintro rfl
        simp at hcount
      refine ⟨ds, hds.elim (·.digits) (·.digits), .inr hcount, ?_⟩
      rw [fractionText, if_neg hsome]
      rfl
  · rintro ⟨ds, hdigits, hcount, rfl⟩
    unfold fractionText
    split
    · exact .inl rfl
    · rename_i hsome
      have hthree : ds.length = 3 ∨ ds.length = 9 :=
        hcount.resolve_left (fun hnone => hsome (List.length_eq_zero_iff.mp hnone))
      exact .inr ⟨_, rfl, ds, hthree.imp (⟨·, hdigits, rfl⟩) (⟨·, hdigits, rfl⟩), rfl⟩

/-- A day, a `T`, a time of day, a fraction in no, three or nine digits, and a `Z`. -/
inductive WritesDateTime : Date → TimeOfDay → List Char → Prop
  | parts {d : Date} {t : TimeOfDay} {date time fraction : List Char} (hdate : WritesDate d date)
      (htime : WritesTime t.hour t.minute t.second time)
      (hdigits : ∀ c ∈ fraction, '0' ≤ c ∧ c ≤ '9')
      (hcount : fraction.length = 0 ∨ fraction.length = 3 ∨ fraction.length = 9) :
      WritesDateTime d t (date ++ 'T' :: (time ++ fractionText fraction ++ ['Z']))

theorem exists_writesDateTime_iff {value : String} :
    dateTimeExpr.occursIn value = true ↔ ∃ d t, WritesDateTime d t value.toList := by
  have hplain : ∀ e ∈ dayParts ++ literally "T" :: (timeParts ++ [fraction, literally "Z"]),
      e.isPlain = true := by decide
  rw [dateTimeExpr, occursIn_fromEndToEnd_iff hplain]
  simp only [List.map_append, List.map_cons, List.map_nil, List.prod_append, List.prod_cons,
    List.prod_nil, mul_one, Language.mem_mul, mem_language_dayParts, mem_language_timeParts,
    mem_language_fraction, mem_language_literally]
  constructor
  · rintro ⟨_, ⟨d, hdate⟩, _, ⟨_, rfl, _, ⟨_, ⟨hour, minute, second, htime⟩, _,
      ⟨_, ⟨ds, hdigits, hcount, rfl⟩, _, rfl, rfl⟩, rfl⟩, rfl⟩, htext⟩
    refine ⟨d, ⟨hour, minute, second⟩, ?_⟩
    have hparts := WritesDateTime.parts (t := ⟨hour, minute, second⟩) hdate htime hdigits hcount
    rw [List.append_assoc] at hparts
    rw [← htext]
    exact hparts
  · rintro ⟨d, t, h⟩
    generalize value.toList = cs at h
    obtain ⟨hdate, htime, hdigits, hcount⟩ := h
    refine ⟨_, ⟨d, hdate⟩, _, ⟨_, rfl, _, ⟨_, ⟨_, _, _, htime⟩, _,
      ⟨_, ⟨_, hdigits, hcount, rfl⟩, _, rfl, rfl⟩, rfl⟩, rfl⟩, ?_⟩
    rw [List.append_assoc]
    rfl

theorem exists_writesDate_iff {value : String} :
    dateExpr.occursIn value = true ↔ ∃ d, WritesDate d value.toList := by
  have hplain : ∀ e ∈ dayParts, e.isPlain = true := by decide
  rw [dateExpr, occursIn_fromEndToEnd_iff hplain, mem_language_dayParts]

/-- A group of digits is the number that it writes. -/
theorem groupAt_eq (front rest : List Char) {cs ds : List Char} {place count n : Nat}
    (hds : IsNumeral count n ds) (hplace : front.length = place)
    (hcs : cs = front ++ (ds ++ rest)) : groupAt place count cs = n := by
  unfold groupAt
  rw [hcs, List.drop_left' hplace, List.take_left' hds.length, hds.value]

theorem dateIn_of_writes {d : Date} {date : List Char} (h : WritesDate d date)
    (rest : List Char) : dateIn (date ++ rest) = d := by
  obtain ⟨hyear, hmonth, hday⟩ := h
  rename_i year month day y m d
  unfold dateIn
  rw [groupAt_eq [] ('-' :: (m ++ '-' :: d) ++ rest) hyear List.length_nil (by simp),
    groupAt_eq (y ++ ['-']) ('-' :: d ++ rest) hmonth (by simp [hyear.length]) (by simp),
    groupAt_eq (y ++ '-' :: (m ++ ['-'])) rest hday (by simp [hyear.length, hmonth.length])
      (by simp)]

theorem timeIn_of_writes {d : Date} {t : TimeOfDay} {date time : List Char}
    (hdate : WritesDate d date) (htime : WritesTime t.hour t.minute t.second time)
    (rest : List Char) : timeIn (date ++ 'T' :: (time ++ rest)) = t := by
  obtain ⟨hour, minute, second⟩ := t
  obtain ⟨hhour, hminute, hsecond⟩ := htime
  rename_i h m s
  unfold timeIn
  rw [groupAt_eq (date ++ ['T']) (':' :: (m ++ ':' :: s) ++ rest) hhour (by simp [hdate.length])
      (by simp),
    groupAt_eq (date ++ 'T' :: (h ++ [':'])) (':' :: s ++ rest) hminute
      (by simp [hdate.length, hhour.length]) (by simp),
    groupAt_eq (date ++ 'T' :: (h ++ ':' :: (m ++ [':']))) rest hsecond
      (by simp [hdate.length, hhour.length, hminute.length]) (by simp)]

/-! ## Verdicts -/

/-- The verdict on a value of which a shape was read: what was read has to be real. -/
def verdict {α : Type} (real : α → Bool) (value shape : String) :
    Option α → Except FormatFault Unit
  | some a => if real a then .ok () else .error (.notReal value)
  | none => .error (.malformed value shape)

section

variable {α : Type} {real : α → Bool} {value shape : String} {read : Option α}

theorem verdict_eq_ok_iff :
    verdict real value shape read = .ok () ↔ ∃ a, read = some a ∧ real a = true := by
  cases read <;> simp [verdict]

theorem verdict_eq_notReal_iff : verdict real value shape read = .error (.notReal value) ↔
    ∃ a, read = some a ∧ ¬real a = true := by
  cases read <;> simp [verdict]

theorem verdict_eq_malformed_iff :
    verdict real value shape read = .error (.malformed value shape) ↔ ∀ a, ¬read = some a := by
  cases read with
  | none => simp [verdict]
  | some a =>
    simp only [verdict, Option.some.injEq]
    constructor
    · intro h
      split at h <;> cases h
    · intro h
      exact absurd rfl (h a)

end

/-- The day in a text that is one. -/
def wholeDate? (value : String) : Option Date :=
  if dateExpr.occursIn value then some (dateIn value.toList) else none

/-- The day and the time in a text that is an instant. -/
def wholeDateTime? (value : String) : Option (Date × TimeOfDay) :=
  if dateTimeExpr.occursIn value then some (dateIn value.toList, timeIn value.toList) else none

theorem wholeDate?_eq_some_iff {value : String} {d : Date} :
    wholeDate? value = some d ↔ WritesDate d value.toList := by
  have hin : ∀ {d : Date}, WritesDate d value.toList → dateIn value.toList = d := by
    intro d h
    have hrest := dateIn_of_writes h []
    rwa [List.append_nil] at hrest
  unfold wholeDate?
  rw [Option.ite_none_right_eq_some, Option.some.injEq, exists_writesDate_iff]
  constructor
  · rintro ⟨⟨d', h⟩, rfl⟩
    rwa [hin h]
  · intro h
    exact ⟨⟨d, h⟩, hin h⟩

theorem wholeDateTime?_eq_some_iff {value : String} {d : Date} {t : TimeOfDay} :
    wholeDateTime? value = some (d, t) ↔ WritesDateTime d t value.toList := by
  have hin : ∀ {d : Date} {t : TimeOfDay}, WritesDateTime d t value.toList →
      dateIn value.toList = d ∧ timeIn value.toList = t := by
    intro d t h
    generalize value.toList = cs at h
    obtain ⟨hdate, htime, -, -⟩ := h
    rw [List.append_assoc]
    exact ⟨dateIn_of_writes hdate _, timeIn_of_writes hdate htime _⟩
  unfold wholeDateTime?
  rw [Option.ite_none_right_eq_some, Option.some.injEq, Prod.mk.injEq, exists_writesDateTime_iff]
  constructor
  · rintro ⟨⟨d', t', h⟩, rfl, rfl⟩
    obtain ⟨hd, ht⟩ := hin h
    rwa [hd, ht]
  · intro h
    exact ⟨⟨d, t, h⟩, hin h⟩

theorem checkDateTime_eq_verdict (value : String) : checkDateTime value =
    verdict (fun read => read.1.exists? && read.2.exists?) value
      "yyyy-MM-ddTHH:mm:ss[.SSS|.SSSSSSSSS]Z" (wholeDateTime? value) := by
  unfold checkDateTime wholeDateTime?
  cases dateTimeExpr.occursIn value <;> rfl

theorem checkDate_eq_verdict (value : String) :
    checkDate value = verdict Date.exists? value "yyyy-MM-dd" (wholeDate? value) := by
  unfold checkDate wholeDate?
  cases dateExpr.occursIn value <;> rfl

/-- There is such a day, and its clocks show such a time. -/
def IsReal (d : Date) (t : TimeOfDay) : Prop :=
  d.exists? = true ∧ t.hour ≤ 23 ∧ t.minute ≤ 59 ∧ t.second ≤ 59

theorem isReal_iff {d : Date} {t : TimeOfDay} : (d.exists? && t.exists?) = true ↔ IsReal d t := by
  simp [IsReal, TimeOfDay.exists?, and_assoc]

/-! ## Instants -/

/-- What has the shape of an instant and is real is read as the instant that it writes. -/
theorem parseUniversal_of_writes {value : String} {d : Date} {t : TimeOfDay}
    (h : WritesDateTime d t value.toList) (hreal : IsReal d t) :
    ∃ i, Instant.parseUniversal value = .ok i ∧
      i.text = String.ofList (value.toList.take 19) ++ "Z" := by
  obtain ⟨hday, hhour, hminute, hsecond⟩ := hreal
  obtain ⟨cs, rfl⟩ : ∃ cs, value = String.ofList cs := ⟨_, String.ofList_toList.symm⟩
  rw [String.toList_ofList] at h ⊢
  obtain ⟨hdate, htimeText, hdigits, -⟩ := h
  rename_i date time fraction
  have hlt : t.hour * 3600 + t.minute * 60 + t.second < 86400 := by omega
  obtain ⟨hlow, hhigh⟩ := hdate.year_bounds
  let i : Instant := ⟨_, d.inCalendar_of_year hday hlow hhigh hlt⟩
  obtain ⟨hiDate, hiSecond⟩ := @Instant.date_of_seconds i d _ hday hlt rfl
  refine ⟨i, ?_, ?_⟩
  · -- A fraction is passed over, and a Z is no offset.
    have hread := Instant.Reader.instant_of_writes hdate hday (by decide : 'T' ∈ ['T', 't', ' '])
      htimeText hhour hminute hsecond hdigits (by decide : ['Z'] ∈ zoneTexts 0) (by decide)
      (t := i) (by simp [i])
    have hlast : (date ++ 'T' :: (time ++ fractionText fraction ++ ['Z'])).getLast? = some 'Z' := by
      rw [← List.cons_append, ← List.append_assoc]
      exact List.getLast?_concat
    unfold Instant.parseUniversal Instant.parse
    rw [String.toList_ofList, hlast, if_pos (beq_self_eq_true _), encode_ofList, hread]
  · have htake : (date ++ 'T' :: (time ++ fractionText fraction ++ ['Z'])).take 19 =
        date ++ 'T' :: time := by
      have hlength : (date ++ 'T' :: time).length = 19 := by
        simp [hdate.length, htimeText.length]
      rw [List.append_assoc, ← List.cons_append, ← List.append_assoc, List.take_left' hlength]
    unfold Instant.text
    rw [hiDate, hiSecond, htake, hdate.eq_text, htimeText.eq_timeText hminute hsecond]
    apply String.toList_injective
    simp

/-- Every text has one of three verdicts, as an instant and as a day: it is accepted if it has the
shape and what it writes is real, it is no real day or time if it has the shape alone, and it is
malformed if it has not. Whatever is accepted as an instant is read as one, whose text is the
day and the time of the accepted text in universal time. -/
theorem days_and_times_are_accepted_as_they_exist (value : String) :
    ((checkDateTime value = .ok () ↔ ∃ d t, WritesDateTime d t value.toList ∧ IsReal d t) ∧
      (checkDateTime value = .error (.notReal value) ↔
        ∃ d t, WritesDateTime d t value.toList ∧ ¬IsReal d t) ∧
      (checkDateTime value = .error (.malformed value "yyyy-MM-ddTHH:mm:ss[.SSS|.SSSSSSSSS]Z") ↔
        ∀ d t, ¬WritesDateTime d t value.toList)) ∧
    ((checkDate value = .ok () ↔ ∃ d, WritesDate d value.toList ∧ d.exists? = true) ∧
      (checkDate value = .error (.notReal value) ↔
        ∃ d, WritesDate d value.toList ∧ ¬d.exists? = true) ∧
      (checkDate value = .error (.malformed value "yyyy-MM-dd") ↔
        ∀ d, ¬WritesDate d value.toList)) ∧
    (checkDateTime value = .ok () → ∃ i, Instant.parseUniversal value = .ok i ∧
      i.text = String.ofList (value.toList.take 19) ++ "Z") := by
  have haccepted :
      checkDateTime value = .ok () ↔ ∃ d t, WritesDateTime d t value.toList ∧ IsReal d t := by
    rw [checkDateTime_eq_verdict, verdict_eq_ok_iff]
    simp only [Prod.exists, wholeDateTime?_eq_some_iff, isReal_iff]
  refine ⟨⟨haccepted, ?_, ?_⟩, ⟨?_, ?_, ?_⟩, ?_⟩
  · rw [checkDateTime_eq_verdict, verdict_eq_notReal_iff]
    simp only [Prod.exists, wholeDateTime?_eq_some_iff, isReal_iff]
  · rw [checkDateTime_eq_verdict, verdict_eq_malformed_iff]
    simp only [Prod.forall, wholeDateTime?_eq_some_iff]
  · rw [checkDate_eq_verdict, verdict_eq_ok_iff]
    simp only [wholeDate?_eq_some_iff]
  · rw [checkDate_eq_verdict, verdict_eq_notReal_iff]
    simp only [wholeDate?_eq_some_iff]
  · rw [checkDate_eq_verdict, verdict_eq_malformed_iff]
    simp only [wholeDate?_eq_some_iff]
  · intro h
    obtain ⟨d, t, hwrites, hreal⟩ := haccepted.mp h
    exact parseUniversal_of_writes hwrites hreal

/-- A leap day with milliseconds is accepted, and read to the second. -/
theorem a_leap_day_is_read_to_the_second :
    checkDateTime "2024-02-29T23:59:59.250Z" = .ok () ∧
      ∃ i, Instant.parseUniversal "2024-02-29T23:59:59.250Z" = .ok i ∧
        i.text = "2024-02-29T23:59:59Z" := by
  have haccepted : checkDateTime "2024-02-29T23:59:59.250Z" = .ok () := by decide +kernel
  obtain ⟨i, hread, htext⟩ :=
    (days_and_times_are_accepted_as_they_exist "2024-02-29T23:59:59.250Z").2.2 haccepted
  have hfront : String.ofList ("2024-02-29T23:59:59.250Z".toList.take 19) ++ "Z" =
      "2024-02-29T23:59:59Z" := by decide +kernel
  exact ⟨haccepted, i, hread, htext.trans hfront⟩

end CauseLists.Format
