-- Instants and their texts. An instant of the years 0 to 9999 is read back from its text, and no
-- other is, for a sign in front of a year is no digit. Wherever a clock stands and however finely
-- it tells the time, what it writes is read as the instant that it is, so texts are of one instant
-- exactly if they are read alike.
import CauseLists.Proofs.Calendar.Reading

namespace CauseLists.Instant

open Text

/-! ## Clocks -/

/-- The seconds since 1970 on a clock that is so many minutes ahead of universal time. -/
def clockSeconds (t : Instant) (minutes : Int) : Int := t.seconds + 60 * minutes

/-- The day on that clock. -/
def clockDate (t : Instant) (minutes : Int) : Date :=
  Date.ofDayNumber (t.clockSeconds minutes / secondsPerDay)

/-- The seconds of that day on that clock. -/
def clockSecondOfDay (t : Instant) (minutes : Int) : Nat :=
  (t.clockSeconds minutes % secondsPerDay).toNat

/-- A way to write instants. -/
structure Wording where
  /-- How many minutes the clock is ahead of universal time. -/
  minutes : Int
  /-- What stands between the day and the time. -/
  separator : Char
  /-- The digits of the fraction of a second. -/
  fraction : List Char
  /-- How the offset is written. -/
  zone : List Char
  lessThanDay : minutes.natAbs < 1440
  separates : separator ∈ ['T', 't', ' ']
  digits : ∀ c ∈ fraction, '0' ≤ c ∧ c ≤ '9'
  writesOffset : zone ∈ zoneTexts minutes

/-- An instant in such words. -/
def Wording.text (w : Wording) (t : Instant) : String :=
  String.ofList ((t.clockDate w.minutes).text.toList ++ w.separator ::
    ((timeText (t.clockSecondOfDay w.minutes)).toList ++ fractionText w.fraction ++ w.zone))

/-- Four digits are enough for the year. -/
def Wording.Fits (w : Wording) (t : Instant) : Prop :=
  0 ≤ (t.clockDate w.minutes).year ∧ (t.clockDate w.minutes).year ≤ 9999

/-- A day and a second of it make up the seconds on the clock. -/
theorem clockSeconds_eq (t : Instant) (minutes : Int) :
    (t.clockDate minutes).dayNumber * secondsPerDay + t.clockSecondOfDay minutes =
      t.clockSeconds minutes := by
  unfold clockDate clockSecondOfDay
  rw [Date.dayNumber_ofDayNumber]
  unfold secondsPerDay
  omega

theorem clockSecondOfDay_lt (t : Instant) (minutes : Int) :
    t.clockSecondOfDay minutes < 86400 := by
  unfold clockSecondOfDay secondsPerDay
  omega

/-- Whatever the offset and the fraction, the instant is read. -/
theorem Wording.parse_text (w : Wording) (t : Instant) (h : w.Fits t) :
    parse (w.text t) = .ok t := by
  have hexists : (t.clockDate w.minutes).exists? = true := Date.exists?_ofDayNumber _
  have hlt := t.clockSecondOfDay_lt w.minutes
  have hseconds := t.clockSeconds_eq w.minutes
  have hread := Reader.instant_of_writes (writesDate_text hexists h.1 h.2) hexists w.separates
    (writesTime_timeText hlt) (by omega) (by omega) (by omega) w.digits w.writesOffset w.lessThanDay
    (t := t) (by unfold clockSeconds at hseconds; omega)
  unfold parse Wording.text
  rw [encode_ofList, hread]

/-! ## The text of an instant -/

/-- Universal time in whole seconds. -/
def Wording.universal : Wording where
  minutes := 0
  separator := 'T'
  fraction := []
  zone := ['Z']
  lessThanDay := by decide
  separates := by decide
  digits := by simp
  writesOffset := by decide

theorem clockDate_zero (t : Instant) : t.clockDate 0 = t.date := by
  simp [clockDate, clockSeconds, date]

theorem clockSecondOfDay_zero (t : Instant) : t.clockSecondOfDay 0 = t.secondOfDay := by
  simp [clockSecondOfDay, clockSeconds, secondOfDay]

theorem secondOfDay_lt (t : Instant) : t.secondOfDay < 86400 := by
  rw [← clockSecondOfDay_zero]
  exact t.clockSecondOfDay_lt 0

theorem Wording.text_universal (t : Instant) : universal.text t = t.text := by
  apply String.toList_injective
  simp [Wording.text, universal, clockDate_zero, clockSecondOfDay_zero, Instant.text, fractionText]

theorem getLast?_text (t : Instant) : t.text.toList.getLast? = some 'Z' := by
  unfold Instant.text
  rw [String.toList_append]
  exact List.getLast?_concat

/-- The text of an instant is read the same whether or not universal time is asked for. -/
theorem parseUniversal_text (t : Instant) : parseUniversal t.text = parse t.text := by
  unfold parseUniversal
  rw [getLast?_text]
  exact if_pos rfl

/-! ## Years with a sign -/

/-- Outside the years 0 to 9999 a text begins with a sign. -/
theorem text_of_year {t : Instant} (h : ¬(0 ≤ t.date.year ∧ t.date.year ≤ 9999)) :
    ∃ sign rest, (sign = '-' ∨ sign = '+') ∧ t.text.toList = sign :: rest ∧ 18 ≤ rest.length := by
  have hyear : ∃ sign, (sign = '-' ∨ sign = '+') ∧
      (yearText t.date.year).toList = sign :: (padded 4 t.date.year.natAbs).toList := by
    unfold yearText
    rw [if_neg (by simpa using h)]
    split
    · exact ⟨'-', .inl rfl, by simp⟩
    · exact ⟨'+', .inr rfl, by simp⟩
  obtain ⟨sign, hsign, hyear⟩ := hyear
  refine ⟨sign, (padded 4 t.date.year.natAbs).toList ++ '-' :: ((padded 2 t.date.month).toList ++
    '-' :: ((padded 2 t.date.day).toList ++ 'T' :: ((timeText t.secondOfDay).toList ++ ['Z']))),
    hsign, ?_, ?_⟩
  · simp [Instant.text, Date.text, hyear]
  · have hfour := le_length_padded 4 t.date.year.natAbs
    have hmonth := le_length_padded 2 t.date.month
    have hday := le_length_padded 2 t.date.day
    have htime := (writesTime_timeText t.secondOfDay_lt).length
    simp only [List.length_append, List.length_cons, List.length_nil]
    omega

theorem parse_text_of_year {t : Instant} (h : ¬(0 ≤ t.date.year ∧ t.date.year ≤ 9999)) :
    parse t.text = .error ⟨t.text, .strayCharacter⟩ := by
  obtain ⟨sign, rest, hsign, htext, hlength⟩ := text_of_year h
  have hbyte : ∃ b, encode t.text = b :: encodeChars rest ∧ Reader.isDigitByte b = false := by
    unfold encode
    rw [htext]
    rcases hsign with rfl | rfl
    · exact ⟨0x2d, encodeChars_ascii (by decide) rest, rfl⟩
    · exact ⟨0x2b, encodeChars_ascii (by decide) rest, rfl⟩
  obtain ⟨b, hbytes, hb⟩ := hbyte
  have hlong : Reader.leastLength ≤ (b :: encodeChars rest).length := by
    have hbytes := length_le_length_encodeChars rest
    rw [List.length_cons, Reader.leastLength]
    omega
  unfold parse
  rw [hbytes, Reader.instant_of_not_digit hb hlong]

/-! ## Texts and instants -/

/-- An instant is read back from its text, with or without asking for universal time, exactly in
the years 0 to 9999. Whatever the offset and the fraction in which a clock writes an instant, it is
that instant that is read; so two such texts are read alike if they are of one instant, and
only then. -/
theorem what_clocks_write_is_read_as_the_instant (t : Instant) :
    (0 ≤ t.date.year ∧ t.date.year ≤ 9999 → parseUniversal t.text = .ok t) ∧
      (¬(0 ≤ t.date.year ∧ t.date.year ≤ 9999) →
        parseUniversal t.text = .error ⟨t.text, .strayCharacter⟩ ∧
          parse t.text = .error ⟨t.text, .strayCharacter⟩) ∧
      (∀ w : Wording, w.Fits t → parse (w.text t) = .ok t) ∧
      ∀ (t' : Instant) (w w' : Wording), w.Fits t → w'.Fits t' →
        (parse (w.text t) = parse (w'.text t') ↔ t = t') := by
  refine ⟨?_, ?_, ?_, ?_⟩
  · intro hyear
    have hfits : Wording.universal.Fits t := by
      unfold Wording.Fits
      rwa [show Wording.universal.minutes = 0 from rfl, clockDate_zero]
    rw [parseUniversal_text, ← Wording.text_universal]
    exact Wording.universal.parse_text t hfits
  · intro hyear
    rw [parseUniversal_text]
    exact ⟨parse_text_of_year hyear, parse_text_of_year hyear⟩
  · intro w hfits
    exact w.parse_text t hfits
  · intro t' w w' hfits hfits'
    rw [w.parse_text t hfits, w'.parse_text t' hfits']
    exact ⟨Except.ok.inj, congrArg Except.ok⟩

/-- A morning in October 2024. -/
def october : Instant := ⟨1727775015, by decide⟩

/-- The last second of the year 9999. -/
def lastOfFourDigits : Instant := ⟨253402300799, by decide⟩

/-- An hour ahead of universal time, in milliseconds. -/
def Wording.hourAhead : Wording where
  minutes := 60
  separator := 'T'
  fraction := ['2', '5', '0']
  zone := offsetText '+' 60
  lessThanDay := by decide
  separates := by decide
  digits := by simp
  writesOffset := by decide

/-- One morning is read from the texts of two clocks, and the day after the last one of four
digits is not read from its own. -/
theorem an_hour_ahead_and_a_day_too_far :
    parseUniversal "2024-10-01T09:30:15Z" = .ok october ∧
      parse "2024-10-01T10:30:15.250+01:00" = .ok october ∧
      ∃ t, lastOfFourDigits.plusDays? 1 = some t ∧ t.text = "+10000-01-01T23:59:59Z" ∧
        parse t.text = .error ⟨t.text, .strayCharacter⟩ := by
  obtain ⟨huniversal, -, hclocks, -⟩ := what_clocks_write_is_read_as_the_instant october
  refine ⟨?_, ?_, ⟨253402387199, by decide⟩, rfl, by decide +kernel, ?_⟩
  · have htext : october.text = "2024-10-01T09:30:15Z" := by decide +kernel
    rw [← htext]
    exact huniversal (by decide +kernel)
  · have htext : Wording.hourAhead.text october = "2024-10-01T10:30:15.250+01:00" := by
      decide +kernel
    rw [← htext]
    exact hclocks Wording.hourAhead (by unfold Wording.Fits; decide +kernel)
  · have hyear := (what_clocks_write_is_read_as_the_instant ⟨253402387199, by decide⟩).2.1
    exact (hyear (by decide +kernel)).2

end CauseLists.Instant
