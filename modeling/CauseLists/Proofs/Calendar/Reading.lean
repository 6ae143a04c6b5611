-- Reading instants. Each reader reads what is written for it off the front of the bytes and leaves
-- what follows, so a day, a time of day, a fraction and an offset one after another are read as the
-- instant that lies the offset before that day and time.
import CauseLists.Calendar.Rfc3339
import CauseLists.Proofs.Calendar.Spelling
import CauseLists.Proofs.Text.Utf8
import Mathlib.Data.List.Basic

namespace CauseLists.Instant.Reader

open Text

/-! ## Digits and marks -/

theorem isDigitByte_iff (b : UInt8) : isDigitByte b = true ↔ 48 ≤ b.toNat ∧ b.toNat ≤ 57 := by
  simp [isDigitByte, UInt8.le_iff_toNat_le]

/-- The byte of a digit is judged and read as the digit is. -/
theorem encodeChars_digit {c : Char} (h : '0' ≤ c ∧ c ≤ '9') (cs : List Char) :
    ∃ b, encodeChars (c :: cs) = b :: encodeChars cs ∧ isDigitByte b = true ∧
      b.toNat - 0x30 = digitValue c := by
  obtain ⟨b, hbyte, hvalue⟩ := encodeChar_of_digit h
  have hlt := digitValue_lt h
  have hzero : '0'.toNat = 48 := rfl
  refine ⟨b, ?_, (isDigitByte_iff b).mpr (by omega), by omega⟩
  rw [encodeChars_cons, hbyte, List.singleton_append]

theorem digits_encodeChars {cs : List Char} (h : ∀ c ∈ cs, '0' ≤ c ∧ c ≤ '9') (value : Nat)
    (rest : Bytes) : digits cs.length value (encodeChars cs ++ rest) =
      .ok (cs.foldl (fun n c => n * 10 + digitValue c) value, rest) := by
  induction cs generalizing value with
  | nil => rfl
  | cons c cs ih =>
    obtain ⟨b, hbytes, hdigit, hvalue⟩ := encodeChars_digit (h c List.mem_cons_self) cs
    rw [hbytes, List.cons_append, List.length_cons, digits, if_pos hdigit, hvalue,
      ih (fun d hd => h d (List.mem_cons_of_mem c hd)), List.foldl_cons]

theorem digits_of_isNumeral {width n : Nat} {cs : List Char} (h : IsNumeral width n cs)
    (rest : Bytes) : digits width 0 (encodeChars cs ++ rest) = .ok (n, rest) := by
  have hread := digits_encodeChars h.digits 0 rest
  rwa [h.length, ← valueOf, h.value] at hread

theorem mark_of_mem {allowed : Bytes} {b : UInt8} (h : b ∈ allowed) (rest : Bytes) :
    mark allowed (b :: rest) = .ok ((), rest) := by
  rw [mark, if_pos (List.contains_iff_mem.mpr h)]

theorem encodeChars_colon (cs : List Char) : encodeChars (':' :: cs) = 0x3a :: encodeChars cs :=
  encodeChars_ascii (by decide) cs

/-! ## Days and times -/

theorem date_of_writes {d : Date} {cs : List Char} (h : WritesDate d cs)
    (hexists : d.exists? = true) (rest : Bytes) :
    date (encodeChars cs ++ rest) = .ok (d, rest) := by
  obtain ⟨hyear, hmonth, hday⟩ := h
  rename_i year month day y m d
  have hhyphen : ∀ tail, encodeChars ('-' :: tail) = 0x2d :: encodeChars tail :=
    encodeChars_ascii (by decide)
  rw [encodeChars_append, hhyphen, encodeChars_append, hhyphen]
  simp only [List.append_assoc, List.cons_append]
  unfold date
  simp only [digits_of_isNumeral hyear, digits_of_isNumeral hmonth, digits_of_isNumeral hday,
    mark_of_mem (List.mem_singleton_self _), bind, Except.bind, if_pos hexists]

/-- The bytes that can stand behind a time of day and its fraction. -/
def startsZone (b : UInt8) : Bool := ([0x5a, 0x7a, 0x2b, 0x2d] : Bytes).contains b

theorem not_fraction_of_startsZone {b : UInt8} (h : startsZone b = true) :
    isDigitByte b = false ∧ b ≠ 0x2e := by
  simp only [startsZone, List.contains_iff_mem, List.mem_cons, List.not_mem_nil, or_false] at h
  rcases h with rfl | rfl | rfl | rfl <;> decide

theorem dropWhile_digits {cs : List Char} (h : ∀ c ∈ cs, '0' ≤ c ∧ c ≤ '9') {b : UInt8}
    (hb : isDigitByte b = false) (rest : Bytes) :
    (encodeChars cs ++ b :: rest).dropWhile isDigitByte = b :: rest := by
  induction cs with
  | nil => simp [encodeChars_nil, hb]
  | cons c cs ih =>
    obtain ⟨first, hbytes, hdigit, -⟩ := encodeChars_digit (h c List.mem_cons_self) cs
    rw [hbytes, List.cons_append, List.dropWhile_cons_of_pos hdigit]
    exact ih (fun d hd => h d (List.mem_cons_of_mem c hd))

theorem fraction_of_text {ds : List Char} (h : ∀ c ∈ ds, '0' ≤ c ∧ c ≤ '9') {b : UInt8}
    (hb : startsZone b = true) (rest : Bytes) :
    fraction (encodeChars (fractionText ds) ++ b :: rest) = .ok ((), b :: rest) := by
  obtain ⟨hdigit, hpoint⟩ := not_fraction_of_startsZone hb
  unfold fractionText
  split
  · rw [encodeChars_nil, List.nil_append, fraction]
    intro rest' heq
    exact hpoint (List.cons.inj heq).1
  · rename_i hsome
    obtain ⟨d, ds, rfl⟩ := List.exists_cons_of_ne_nil hsome
    obtain ⟨first, hbytes, hfirst, -⟩ := encodeChars_digit (h d List.mem_cons_self) ds
    have hdrop := dropWhile_digits h hdigit rest
    have hpoint : ∀ tail, encodeChars ('.' :: tail) = 0x2e :: encodeChars tail :=
      encodeChars_ascii (by decide)
    rw [hbytes, List.cons_append] at hdrop
    rw [hpoint, List.cons_append, hbytes, List.cons_append, fraction, if_pos hfirst, hdrop]

theorem timeOfDay_of_writes {hour minute second : Nat} {cs : List Char}
    (h : WritesTime hour minute second cs) (hhour : hour ≤ 23) (hminute : minute ≤ 59)
    (hsecond : second ≤ 59) {ds : List Char} (hds : ∀ c ∈ ds, '0' ≤ c ∧ c ≤ '9') {b : UInt8}
    (hb : startsZone b = true) (rest : Bytes) :
    timeOfDay (encodeChars (cs ++ fractionText ds) ++ b :: rest) =
      .ok (hour * 3600 + minute * 60 + second, b :: rest) := by
  obtain ⟨hhourText, hminuteText, hsecondText⟩ := h
  have hleap : (second == 60) = false := by
    rw [beq_eq_false_iff_ne]
    omega
  simp only [encodeChars_append, encodeChars_colon, List.append_assoc, List.cons_append]
  unfold timeOfDay
  simp only [digits_of_isNumeral hhourText, digits_of_isNumeral hminuteText,
    digits_of_isNumeral hsecondText, mark_of_mem (List.mem_singleton_self _),
    fraction_of_text hds hb, bind, Except.bind, hleap, Bool.false_eq_true, if_false, hhour, hminute,
    hsecond, decide_true, Bool.and_self, if_true]

/-! ## Offsets -/

theorem twoDigits_of_isNumeral {n : Nat} {cs : List Char} (h : IsNumeral 2 n cs) (rest : Bytes) :
    twoDigits (encodeChars cs ++ rest) = .ok (n, rest) := by
  obtain ⟨hlength, hdigits, hvalue⟩ := h
  obtain ⟨a, b, rfl⟩ := List.length_eq_two.mp hlength
  obtain ⟨first, hfirst, hdigit, hvalueFirst⟩ := encodeChars_digit (hdigits a (by simp)) [b]
  obtain ⟨second, hsecond, hdigit', hvalueSecond⟩ := encodeChars_digit (hdigits b (by simp)) []
  have hn : digitValue a * 10 + digitValue b = n := by
    simpa [valueOf] using hvalue
  rw [hfirst, hsecond, encodeChars_nil, List.cons_append, List.cons_append, List.nil_append]
  unfold twoDigits
  simp only [pair, bind, Except.bind, hdigit, hdigit', Bool.and_self, if_true, hvalueFirst,
    hvalueSecond, hn]

/-- Behind a sign stand hours and minutes. -/
theorem offset_of_sign {b : UInt8} {negative : Bool} {hours minutes : Nat} {h m : List Char}
    (hletter : (b == 0x5a || b == 0x7a) = false)
    (hsign : ∀ tail, offsetSign (b :: tail) = .ok (negative, tail)) (hhours : IsNumeral 2 hours h)
    (hminutes : IsNumeral 2 minutes m) (hbound : minutes < 60) :
    offset (b :: encodeChars (h ++ ':' :: m)) =
      .ok (if negative then -(hours * 3600 + minutes * 60 : Int) else hours * 3600 + minutes * 60,
        []) := by
  have hlast := twoDigits_of_isNumeral hminutes []
  rw [List.append_nil] at hlast
  rw [encodeChars_append, encodeChars_colon]
  unfold offset
  simp only [hletter, hsign, twoDigits_of_isNumeral hhours, mark_of_mem (List.mem_singleton_self _),
    hlast, bind, Except.bind, Nat.not_le.mpr hbound, Bool.false_eq_true, if_false, pure]

theorem offset_of_offsetText {sign : Char} (hsign : sign = '+' ∨ sign = '-') {minutes : Nat}
    (h : minutes < 1440) : ∃ b rest, encodeChars (offsetText sign minutes) = b :: rest ∧
      startsZone b = true ∧
      offset (b :: rest) =
        .ok (if sign = '-' then -(60 * minutes : Int) else 60 * minutes, []) := by
  have hhours := @isNumeral_padded 2 (minutes / 60) (by decide) (by omega)
  have hminutes := @isNumeral_padded 2 (minutes % 60) (by decide) (by omega)
  have hbound : minutes % 60 < 60 := Nat.mod_lt _ (by decide)
  have hsize : ((minutes / 60 : Nat) : Int) * 3600 + ((minutes % 60 : Nat) : Int) * 60 =
      60 * minutes := by omega
  rcases hsign with rfl | rfl
  · refine ⟨0x2b, _, encodeChars_ascii (by decide) _, by decide, ?_⟩
    rw [@offset_of_sign _ false _ _ _ _ rfl (fun _ => rfl) hhours hminutes hbound, hsize]
    rfl
  · refine ⟨0x2d, _, encodeChars_ascii (by decide) _, by decide, ?_⟩
    rw [@offset_of_sign _ true _ _ _ _ rfl (fun _ => rfl) hhours hminutes hbound, hsize]
    rfl

/-- An offset of less than a day is read as so many seconds. -/
theorem offset_of_zone {minutes : Int} {zone : List Char} (h : zone ∈ zoneTexts minutes)
    (hbound : minutes.natAbs < 1440) :
    ∃ b rest, encodeChars zone = b :: rest ∧ startsZone b = true ∧
      offset (b :: rest) = .ok (60 * minutes, []) := by
  unfold zoneTexts at h
  split at h
  · rename_i hzero
    simp only [List.mem_cons, List.not_mem_nil, or_false] at h
    subst hzero
    rcases h with rfl | rfl | rfl | rfl
    · exact ⟨0x5a, [], rfl, by decide, rfl⟩
    · exact ⟨0x7a, [], rfl, by decide, rfl⟩
    · exact offset_of_offsetText (.inl rfl) hbound
    · exact offset_of_offsetText (.inr rfl) hbound
  · obtain rfl := List.mem_singleton.mp h
    split
    · have hbehind : 60 * minutes = -(60 * (minutes.natAbs : Int)) := by omega
      rw [hbehind]
      exact offset_of_offsetText (.inr rfl) hbound
    · have hahead : 60 * minutes = 60 * (minutes.natAbs : Int) := by omega
      rw [hahead]
      exact offset_of_offsetText (.inl rfl) hbound

/-! ## Instants -/

/-- What stands between a day and a time is one of the marks that the reader allows there. -/
theorem encodeChars_separator {separator : Char} (h : separator ∈ ['T', 't', ' '])
    (cs : List Char) : ∃ m ∈ ([0x54, 0x74, 0x20] : Bytes),
      encodeChars (separator :: cs) = m :: encodeChars cs := by
  simp only [List.mem_cons, List.not_mem_nil, or_false] at h
  rcases h with rfl | rfl | rfl
  · exact ⟨0x54, by decide, encodeChars_ascii (by decide) cs⟩
  · exact ⟨0x74, by decide, encodeChars_ascii (by decide) cs⟩
  · exact ⟨0x20, by decide, encodeChars_ascii (by decide) cs⟩

/-- A day, a time of day, a fraction and an offset are read as the instant that lies the offset
before that day and time; the fraction is passed over. -/
theorem instant_of_writes {d : Date} {date : List Char} (hdate : WritesDate d date)
    (hexists : d.exists? = true) {separator : Char} (hseparator : separator ∈ ['T', 't', ' '])
    {hour minute second : Nat} {time : List Char} (htime : WritesTime hour minute second time)
    (hhour : hour ≤ 23) (hminute : minute ≤ 59) (hsecond : second ≤ 59) {ds : List Char}
    (hds : ∀ c ∈ ds, '0' ≤ c ∧ c ≤ '9') {minutes : Int} {zone : List Char}
    (hzone : zone ∈ zoneTexts minutes) (hbound : minutes.natAbs < 1440) {t : Instant}
    (ht : t.seconds = d.dayNumber * secondsPerDay + (hour * 3600 + minute * 60 + second : Nat) -
      60 * minutes) :
    instant (encodeChars (date ++ separator :: (time ++ fractionText ds ++ zone))) = .ok t := by
  obtain ⟨b, rest, hbytes, hb, hoffset⟩ := offset_of_zone hzone hbound
  obtain ⟨m, hm, hmarkBytes⟩ :=
    encodeChars_separator hseparator (time ++ fractionText ds ++ zone)
  have hlong : leastLength ≤
      (encodeChars (date ++ separator :: (time ++ fractionText ds ++ zone))).length := by
    have hlength := length_le_length_encodeChars
      (date ++ separator :: (time ++ fractionText ds ++ zone))
    simp only [List.length_append, List.length_cons, hdate.length, htime.length] at hlength
    unfold leastLength
    omega
  have hoffsetBound : ¬secondsPerDay ≤ (60 * minutes).natAbs := by
    unfold secondsPerDay
    omega
  have hmade : ofSeconds? t.seconds = some t := dif_pos t.inCalendar
  unfold instant
  rw [if_neg (Nat.not_lt.mpr hlong), encodeChars_append, hmarkBytes, encodeChars_append, hbytes]
  simp only [date_of_writes hdate hexists, mark_of_mem hm,
    timeOfDay_of_writes htime hhour hminute hsecond hds hb, hoffset, bind, Except.bind,
    List.isEmpty_nil, Bool.not_true, Bool.false_eq_true, if_false, hoffsetBound, ← ht, hmade]

/-- A long enough text that does not begin with a digit is refused for its first character. -/
theorem instant_of_not_digit {b : UInt8} (hb : isDigitByte b = false) {rest : Bytes}
    (hlong : leastLength ≤ (b :: rest).length) :
    instant (b :: rest) = .error .strayCharacter := by
  have hdigits : digits 4 0 (b :: rest) = .error .strayCharacter := by
    rw [digits, if_neg (by simp [hb])]
  have hdate : date (b :: rest) = .error .strayCharacter := by
    unfold date
    simp only [hdigits, bind, Except.bind]
  unfold instant
  simp only [Nat.not_lt.mpr hlong, if_false, hdate, bind, Except.bind]

end CauseLists.Instant.Reader
