import Mathlib.Algebra.GroupWithZero.Nat
import Mathlib.Data.List.TakeWhile
import Mathlib.Tactic.SplitIfs
import Reckoner.Instant

/-!
# Stored times are read back

Of the years that are written with four digits, every stored time is one that can be read. For that
the calendar has to have each numbered day: a span of 400 years is taken apart into centuries,
groups of four years, years and days, and the twenty-ninth of February is met only where it exists.
-/

namespace Reckoner

namespace Day

/-! ## The calendar -/

/-- A day of a span of 400 years: its century, its group of four years, its year and its day of the
year, which starts in March. -/
structure Split (dayOfSpan century group year day : Int) : Prop where
  dayOfSpan_eq : dayOfSpan = 36524 * century + 1461 * group + 365 * year + day
  century_nonneg : 0 ≤ century
  century_le : century ≤ 3
  group_nonneg : 0 ≤ group
  group_le : group ≤ 24
  year_nonneg : 0 ≤ year
  year_le : year ≤ 3
  day_nonneg : 0 ≤ day
  day_le : day ≤ 365
  /-- Only the last year of a group has another day, and the last group of the last century alone
  keeps it. -/
  leap : day = 365 → year = 3 ∧ (group ≤ 23 ∨ century = 3)

/-- Every day of a span can be taken apart. -/
theorem exists_split {d : Int} (hlower : 0 ≤ d) (hupper : d < 146097) :
    ∃ century group year day, Split d century group year day := by
  have hcentury : ∃ c r : Int, d = 36524 * c + r ∧ 0 ≤ c ∧ c ≤ 3 ∧ 0 ≤ r ∧
      (r < 36524 ∨ r = 36524 ∧ c = 3) := by
    by_cases hlast : d = 146096
    · exact ⟨3, 36524, by omega⟩
    · exact ⟨d / 36524, d % 36524, by omega⟩
  obtain ⟨c, r, rfl, hc, hc', hr, hr'⟩ := hcentury
  have hyear : ∃ y e : Int, r % 1461 = 365 * y + e ∧ 0 ≤ y ∧ y ≤ 3 ∧ 0 ≤ e ∧
      (e < 365 ∨ e = 365 ∧ y = 3) := by
    by_cases hlast : r % 1461 = 1460
    · exact ⟨3, 365, by omega⟩
    · exact ⟨r % 1461 / 365, r % 1461 % 365, by omega⟩
  obtain ⟨y, e, hye, hy, hy', he, he'⟩ := hyear
  exact ⟨c, r / 1461, y, e, by omega, hc, hc', by omega, by omega, hy, hy', he, by omega, by omega⟩

/-- The year of a day is computed from its parts. -/
theorem Split.yearOfSpan_eq {d c g y e : Int} (h : Split d c g y e) :
    (d - d / 1460 + d / 36524 - d / 146096) / 365 = 100 * c + 4 * g + y := by
  obtain ⟨hd, hc, hc', hg, hg', hy, hy', he, he', hleap⟩ := h
  have hrest : 1461 * g + 365 * y + e < 36524 ∨ d = 146096 ∧ c = 3 := by omega
  have hcenturies : d / 36524 - d / 146096 = c := by
    rcases hrest with hlt | ⟨rfl, rfl⟩
    · have hspan : d / 146096 = 0 := by omega
      have hcentury : d / 36524 = c := by omega
      rw [hspan, hcentury, Int.sub_zero]
    · rfl
  -- Days beyond a multiple of 1460 pile up; near the end of a group they are one more.
  have hgroups : d / 1460 = 25 * c + g ∧ e ≤ 364 ∨
      d / 1460 = 25 * c + g + 1 ∧ y = 3 ∧ 1 ≤ e := by omega
  omega

/-- The day of the year is what is left. -/
theorem Split.dayOfYear_eq {d c g y e : Int} (h : Split d c g y e) :
    d - (365 * (100 * c + 4 * g + y) + (100 * c + 4 * g + y) / 4 -
      (100 * c + 4 * g + y) / 100) = e := by
  obtain ⟨rfl, hc, hc', hg, hg', hy, hy', he, he', hleap⟩ := h
  omega

/-- The day of a year that starts in March. -/
def ofMarch (year dayOfYear : Int) : Day :=
  let month := (5 * dayOfYear + 2) / 153
  let day := dayOfYear - (153 * month + 2) / 5 + 1
  let calendarMonth := if month < 10 then month + 3 else month - 9
  ⟨if calendarMonth ≤ 2 then year + 1 else year, calendarMonth.toNat, day.toNat⟩

/-- A numbered day by its parts. -/
theorem exists_ofNumber (n : Int) : ∃ span d c g y e, n + 719468 = span * 146097 + d ∧
    Split d c g y e ∧ ofNumber n = ofMarch (100 * c + 4 * g + y + span * 400) e := by
  have hspan : (n + 719468).fdiv 146097 = (n + 719468) / 146097 :=
    Int.fdiv_eq_ediv_of_nonneg _ (by decide)
  obtain ⟨d, hd⟩ : ∃ d, d = n + 719468 - (n + 719468) / 146097 * 146097 := ⟨_, rfl⟩
  obtain ⟨c, g, y, e, h⟩ := @exists_split d (by omega) (by omega)
  refine ⟨(n + 719468) / 146097, d, c, g, y, e, by omega, h, ?_⟩
  simp only [ofNumber, hspan, ← hd, h.yearOfSpan_eq, h.dayOfYear_eq]
  rfl

/-- Every month has 28 days. -/
theorem le_monthLength (year : Int) (month : Nat) : 28 ≤ monthLength year month := by
  unfold monthLength
  split_ifs <;> omega

/-- No month has more than 31 days. -/
theorem monthLength_le (year : Int) (month : Nat) : monthLength year month ≤ 31 := by
  unfold monthLength
  split_ifs <;> omega

/-- Within a year that starts in March, months are as long as the calendar has them. -/
theorem isValid_ofMarch {year e : Int} (he : 0 ≤ e) (he' : e ≤ 365)
    (hleap : e = 365 → isLeapYear (year + 1) = true) : (ofMarch year e).isValid = true := by
  by_cases hlast : e = 365
  · subst hlast
    simp [ofMarch, isValid, monthLength, hleap]
  · obtain ⟨month, hmonth⟩ : ∃ month, month = (5 * e + 2) / 153 := ⟨_, rfl⟩
    have hmonths : month = 0 ∨ month = 1 ∨ month = 2 ∨ month = 3 ∨ month = 4 ∨ month = 5 ∨
        month = 6 ∨ month = 7 ∨ month = 8 ∨ month = 9 ∨ month = 10 ∨ month = 11 := by omega
    have hfebruary := le_monthLength (year + 1) 2
    simp only [ofMarch, ← hmonth]
    rcases hmonths with rfl | rfl | rfl | rfl | rfl | rfl | rfl | rfl | rfl | rfl | rfl | rfl <;>
      simp [isValid, monthLength] at hfebruary ⊢ <;> omega

/-- The calendar has every numbered day. -/
theorem isValid_ofNumber (n : Int) : (ofNumber n).isValid = true := by
  obtain ⟨span, d, c, g, y, e, hn, hsplit, hday⟩ := exists_ofNumber n
  rw [hday]
  refine isValid_ofMarch hsplit.day_nonneg hsplit.day_le fun hlast => ?_
  obtain ⟨rfl, hgroup⟩ := hsplit.leap hlast
  have hgroups := hsplit.group_nonneg
  simp only [isLeapYear, Bool.and_eq_true, Bool.or_eq_true, beq_iff_eq, bne_iff_ne]
  have hfour : (100 * c + 4 * g + 3 + span * 400 + 1) % 4 = 0 := by omega
  have hhundred : (100 * c + 4 * g + 3 + span * 400 + 1) % 100 ≠ 0 ∨
      (100 * c + 4 * g + 3 + span * 400 + 1) % 400 = 0 := by
    have hgle := hsplit.group_le
    by_cases hlt : g ≤ 23
    · exact Or.inl (by omega)
    · exact Or.inr (by omega)
  exact ⟨hfour, hhundred⟩

/-- From the first day of year 0 to the last of year 9999, years have four digits. -/
theorem year_ofNumber {n : Int} (hlower : -719528 ≤ n) (hupper : n < 2932897) :
    0 ≤ (ofNumber n).year ∧ (ofNumber n).year ≤ 9999 := by
  obtain ⟨span, d, c, g, y, e, hn, hsplit, hday⟩ := exists_ofNumber n
  obtain ⟨hd, hc, hc', hg, hg', hy, hy', he, he', hleap⟩ := hsplit
  have hspan : span = -1 ∨ 0 ≤ span ∧ span ≤ 24 := by omega
  rw [hday]
  simp only [ofMarch]
  rcases hspan with rfl | ⟨hspan, hspan'⟩
  · -- January and February of year 0 belong to the last year of the span before it.
    obtain ⟨rfl, rfl, rfl⟩ : c = 3 ∧ g = 24 ∧ y = 3 := by omega
    split_ifs <;> omega
  · split_ifs <;> omega

end Day

namespace Instant

/-! ## Digits -/

/-- Padded digits. -/
theorem toList_padded (width n : Nat) : (padded width n).toList =
    List.replicate (width - (Nat.toDigits 10 n).length) '0' ++ Nat.toDigits 10 n := by
  rw [padded, String.toList_ofList]

/-- Padding leads to the width. -/
theorem length_padded {width n : Nat} (hwidth : 0 < width) (h : n < 10 ^ width) :
    (padded width n).toList.length = width := by
  have hlength : (Nat.toDigits 10 n).length ≤ width :=
    (Nat.length_toDigits_le_iff (by decide) hwidth).mpr h
  rw [toList_padded, List.length_append, List.length_replicate]
  omega

/-- Padding adds digits. -/
theorem isDigit_of_mem_padded {width n : Nat} {c : Char} (h : c ∈ (padded width n).toList) :
    c.isDigit = true := by
  rw [toList_padded] at h
  rcases List.mem_append.mp h with h | h
  · rw [List.eq_of_mem_replicate h]
    rfl
  · exact Nat.isDigit_of_mem_toDigits (by decide) (by decide) h

/-- Padded digits are read back. -/
theorem readDigits?_padded {width n : Nat} (hwidth : 0 < width) (h : n < 10 ^ width)
    (rest : List Char) : readDigits? width ((padded width n).toList ++ rest) = some (n, rest) := by
  have hall : (padded width n).toList.all Char.isDigit = true :=
    List.all_eq_true.mpr fun _ => isDigit_of_mem_padded
  have hvalue : (padded width n).toList.foldl (fun n c => 10 * n + (c.toNat - 48)) 0 = n := by
    have hfold := @Nat.ofDigitChars_append 10
      (List.replicate (width - (Nat.toDigits 10 n).length) '0') (Nat.toDigits 10 n) 0
    rw [← toList_padded, Nat.ofDigitChars_replicate_zero, Nat.mul_zero,
      Nat.ofDigitChars_ten_toDigits] at hfold
    exact hfold
  unfold readDigits?
  rw [List.take_left' (length_padded hwidth h), List.drop_left' (length_padded hwidth h)]
  simp only [length_padded hwidth h, hall, hvalue, and_self, if_true]

/-- A point with digits behind it is read as a fraction. -/
theorem readFraction?_padded {width n : Nat} (hwidth : 0 < width) (h : n < 10 ^ width)
    (rest : List Char) : ∃ fraction, readFraction? (("." ++ padded width n).toList ++ '+' :: rest) =
      some (fraction, '+' :: rest) := by
  have htake : ((padded width n).toList ++ '+' :: rest).takeWhile Char.isDigit =
      (padded width n).toList := by
    rw [List.takeWhile_append_of_pos fun _ => isDigit_of_mem_padded]
    simp
  have hdrop : ((padded width n).toList ++ '+' :: rest).dropWhile Char.isDigit = '+' :: rest := by
    rw [List.dropWhile_append_of_pos fun _ => isDigit_of_mem_padded]
    simp
  have hnonempty : (padded width n).toList.isEmpty = false := by
    rw [List.isEmpty_eq_false_iff, ne_eq, ← List.length_eq_zero_iff, length_padded hwidth h]
    exact Nat.ne_of_gt hwidth
  have htext : ("." ++ padded width n).toList ++ '+' :: rest =
      '.' :: ((padded width n).toList ++ '+' :: rest) := by
    simp
  rw [htext, readFraction?, htake, hdrop]
  simp only [hnonempty, Bool.false_eq_true, if_false]
  exact ⟨_, rfl⟩

/-- The fraction of every time is read, whatever its value. -/
theorem readFraction?_fractionText (t : Instant) (rest : List Char) :
    ∃ fraction, readFraction? (t.fractionText.toList ++ '+' :: rest) =
      some (fraction, '+' :: rest) := by
  simp only [fractionText]
  have hlt : t.nanoseconds % 1000000000 < 1000000000 := Nat.mod_lt _ (by decide)
  split_ifs
  · exact ⟨0, rfl⟩
  · exact readFraction?_padded (by decide) (by omega) rest
  · exact readFraction?_padded (by decide) (by omega) rest
  · exact readFraction?_padded (by decide) hlt rest

/-! ## Times -/

/-- A time whose year has four digits. -/
structure Storable (t : Instant) : Prop where
  /-- Year 0 has begun. -/
  lower : -62167219200 ≤ t.seconds
  /-- Year 9999 has not ended. -/
  upper : t.seconds < 253402300800
  nanoseconds_lt : t.nanoseconds < 2000000000

/-- The parts of a stored time. -/
theorem toList_stored {t : Instant} (hyear : 0 ≤ t.day.year ∧ t.day.year ≤ 9999) :
    ∃ hour minute second, hour ≤ 23 ∧ minute ≤ 59 ∧ second ≤ 59 + t.nanoseconds / 1000000000 ∧
      t.stored.toList = (padded 4 t.day.year.toNat).toList ++
        '-' :: ((padded 2 t.day.month).toList ++ '-' :: ((padded 2 t.day.day).toList ++
        'T' :: ((padded 2 hour).toList ++ ':' :: ((padded 2 minute).toList ++
        ':' :: ((padded 2 second).toList ++
        (t.fractionText.toList ++ '+' :: "00:00".toList)))))) := by
  obtain ⟨clock, hclock⟩ : ∃ clock, clock = (t.seconds.fmod 86400).toNat := ⟨_, rfl⟩
  have hlt : t.seconds.fmod 86400 < 86400 := Int.fmod_lt_of_pos _ (by decide)
  refine ⟨clock / 3600, clock / 60 % 60, clock % 60 + t.nanoseconds / 1000000000, by omega,
    by omega, by omega, ?_⟩
  simp [stored, rfc3339, dateText, clockText, yearText, hyear, hclock]

/-- Digits at the front are taken off. -/
theorem bind_readDigits? {α : Type} {width n : Nat} (hwidth : 0 < width) (h : n < 10 ^ width)
    (rest : List Char) (f : Nat × List Char → Option α) :
    (readDigits? width ((padded width n).toList ++ rest) >>= f) = f (n, rest) := by
  rw [readDigits?_padded hwidth h]
  rfl

/-- An accepted character at the front is taken off. -/
theorem bind_readChar? {α : Type} {accepted : List Char} {c : Char}
    (h : accepted.contains c = true) (rest : List Char) (f : List Char → Option α) :
    (readChar? accepted (c :: rest) >>= f) = f rest := by
  rw [readChar?, if_pos h]
  rfl

/-- A stored time can be read. -/
theorem Storable.isSome_ofRfc3339? {t : Instant} (h : t.Storable) :
    (ofRfc3339? t.stored).isSome = true := by
  have hday : t.seconds.fdiv 86400 = t.seconds / 86400 :=
    Int.fdiv_eq_ediv_of_nonneg _ (by decide)
  have hlower := h.lower
  have hupper := h.upper
  have hnanoseconds := h.nanoseconds_lt
  have hyear : 0 ≤ t.day.year ∧ t.day.year ≤ 9999 := Day.year_ofNumber (by omega) (by omega)
  have hvalid : t.day.isValid = true := Day.isValid_ofNumber _
  obtain ⟨hour, minute, second, hhour, hminute, hsecond, htext⟩ := toList_stored hyear
  obtain ⟨fraction, hfraction⟩ := t.readFraction?_fractionText "00:00".toList
  have hparts := hvalid
  simp only [Day.isValid, Bool.and_eq_true, decide_eq_true_eq] at hparts
  have hlength : Day.monthLength t.day.year t.day.month ≤ 31 := Day.monthLength_le _ _
  have hzone : readZone? ('+' :: "00:00".toList) = some 0 := by decide
  have hwhole : ((t.day.year.toNat : Nat) : Int) = t.day.year := Int.toNat_of_nonneg hyear.1
  have hall : (Day.mk t.day.year t.day.month t.day.day).isValid = true ∧ hour ≤ 23 ∧ minute ≤ 59 ∧
      second ≤ 60 := ⟨hvalid, hhour, hminute, by omega⟩
  unfold ofRfc3339?
  rw [htext, bind_readDigits? (by decide) (by omega)]
  dsimp only
  rw [bind_readChar? rfl, bind_readDigits? (by decide) (by omega)]
  dsimp only
  rw [bind_readChar? rfl, bind_readDigits? (by decide) (by omega)]
  dsimp only
  rw [bind_readChar? rfl, bind_readDigits? (by decide) (by omega)]
  dsimp only
  rw [bind_readChar? rfl, bind_readDigits? (by decide) (by omega)]
  dsimp only
  rw [bind_readChar? rfl, bind_readDigits? (by decide) (by omega)]
  dsimp only
  rw [hfraction, Option.bind_eq_bind, Option.bind_some, hzone, Option.bind_eq_bind,
    Option.bind_some, hwhole, if_pos hall]
  rfl

end Instant

end Reckoner
