import OpenCdc.Foundation.Calendar
import OpenCdc.Mysql.RowImage

/-!
# Dates and date-times

The texts of `DATE` and `DATETIME2` columns.  A day number is turned into a
date with years of 365 days and a quarter and months of thirty days; the sign
bit of a date-time is taken for a part of its year.
-/

namespace OpenCdc.Mysql

open Foundation Foundation.Calendar Json

variable {ε : Type}

/-! ## Padded numbers -/

theorem toList_padZero_of_nonneg (width : ℕ) {n : ℤ} (hn : 0 ≤ n) :
    (padZero width n).toList = leftPad width (Nat.toDigits 10 n.natAbs) := by
  rw [padZero, if_neg (Int.not_lt.mpr hn), String.toList_ofList]

theorem dash_not_mem_toDigits (n : ℕ) : '-' ∉ Nat.toDigits 10 n := by
  intro hmem
  have hdigit := Nat.isDigit_of_mem_toDigits (by decide) (by decide) hmem
  exact absurd hdigit (by decide)

theorem dash_not_mem_leftPad (width n : ℕ) :
    '-' ∉ leftPad width (Nat.toDigits 10 n) := by
  unfold leftPad
  simp [dash_not_mem_toDigits]

/-- The padding keeps the number. -/
theorem leftPad_injective {width m n : ℕ}
    (h : leftPad width (Nat.toDigits 10 m) =
      leftPad width (Nat.toDigits 10 n)) : m = n := by
  have hvalue : ∀ k, Nat.ofDigitChars 10
      (leftPad width (Nat.toDigits 10 k)) 0 = k := by
    intro k
    rw [leftPad, Nat.ofDigitChars_append]
    simp
  rw [← hvalue m, h, hvalue n]

/-- A text that no dash stands in, and a rest behind a dash. -/
theorem append_dash_inj {xs ys xs' ys' : List Char} (hxs : '-' ∉ xs)
    (hxs' : '-' ∉ xs') (h : xs ++ '-' :: ys = xs' ++ '-' :: ys') :
    xs = xs' ∧ ys = ys' := by
  have hsplit := congrArg (List.splitOn '-') h
  rw [List.splitOn_append_cons_self, List.splitOn_append_cons_self,
    List.splitOn_eq_singleton hxs, List.splitOn_eq_singleton hxs'] at hsplit
  have hhead : xs = xs' := by
    simpa using congrArg List.head? hsplit
  rw [hhead] at h
  exact ⟨hhead, by simpa using h⟩

/-- The sign of a negative number stands in front of its padding. -/
theorem dash_mem_padZero (width : ℕ) {n : ℤ} (hn : n < 0) :
    ∃ digits, (padZero width n).toList = '-' :: digits := by
  rw [padZero, if_pos hn, String.toList_ofList]
  exact ⟨_, rfl⟩

theorem padZero_ne_of_neg {width n : ℕ} {k : ℤ} {rest rest' : List Char}
    (hk : k < 0) :
    (padZero width k).toList ++ rest ≠
      leftPad width (Nat.toDigits 10 n) ++ rest' := by
  obtain ⟨digits, hdigits⟩ := dash_mem_padZero width hk
  obtain ⟨c, cs, hcs⟩ : ∃ c cs, leftPad width (Nat.toDigits 10 n) = c :: cs := by
    apply List.exists_cons_of_ne_nil
    simp [leftPad, Nat.toDigits_ne_nil]
  intro h
  rw [hdigits, hcs] at h
  have hhead : '-' = c := (List.cons.inj h).1
  have hnot := dash_not_mem_leftPad width n
  rw [hcs, ← hhead] at hnot
  exact hnot List.mem_cons_self

/-! ## Day numbers -/

/-- How the parts of a date are written. -/
def dateText (year month day : ℤ) : String :=
  toString year ++ "-" ++ padZero 2 month ++ "-" ++ padZero 2 day

/-- A date as the decoder writes it. -/
def writtenDate (date : Date) : String :=
  dateText date.year date.month date.day

theorem toList_dateText (year : ℕ) (month day : ℤ) :
    (dateText year month day).toList = Nat.toDigits 10 year ++
      '-' :: ((padZero 2 month).toList ++ '-' :: (padZero 2 day).toList) := by
  have hyear : toString (year : ℤ) = toString year := rfl
  simp [dateText, hyear]

/-- The parts are read off from the text, if one of two equal texts has no
negative part. -/
theorem dateText_inj {year year' month' day' : ℕ} {month day : ℤ}
    (h : dateText year month day = dateText year' month' day') :
    year = year' ∧ month = month' ∧ day = day' := by
  have hlists := congrArg String.toList h
  rw [toList_dateText, toList_dateText,
    toList_padZero_of_nonneg 2 (Int.natCast_nonneg month'),
    toList_padZero_of_nonneg 2 (Int.natCast_nonneg day')] at hlists
  simp only [Int.natAbs_natCast] at hlists
  obtain ⟨hyear, hrest⟩ := append_dash_inj (dash_not_mem_toDigits _)
    (dash_not_mem_toDigits _) hlists
  have hmonth : 0 ≤ month := by
    by_contra hneg
    exact padZero_ne_of_neg (Int.not_le.mp hneg) hrest
  rw [toList_padZero_of_nonneg 2 hmonth] at hrest
  obtain ⟨hmonths, hdays⟩ := append_dash_inj (dash_not_mem_leftPad _ _)
    (dash_not_mem_leftPad _ _) hrest
  have hday : 0 ≤ day := by
    by_contra hneg
    have hrest' : (padZero 2 day).toList ++ [] =
        leftPad 2 (Nat.toDigits 10 day') ++ [] := by
      rw [List.append_nil, List.append_nil, hdays]
    exact padZero_ne_of_neg (Int.not_le.mp hneg) hrest'
  rw [toList_padZero_of_nonneg 2 hday] at hdays
  have hmonthEq := leftPad_injective hmonths
  have hdayEq := leftPad_injective hdays
  exact ⟨toDigits_injective hyear, by omega, by omega⟩

/-- The day number is decoded as the date. -/
def IsDecodedAs (n : UInt32) (date : Date) : Prop :=
  ∀ (json : JsonParser) (colMeta : UInt16),
    decodeBinlogValue (ε := String) json (Bytes.toLe 4 n.toNat) mysqlTypeDate
      colMeta = .ok (.string (writtenDate date))

/-- The day numbers are decoded as dates of the calendar, the later one as the
later date. -/
def KeepsOrder (m n : UInt32) : Prop :=
  ∃ a b, IsDecodedAs m a ∧ IsDecodedAs n b ∧ a < b

/-- Day numbers from 366 on count the days from 1970 on, in years of which
every fourth is a leap year; in its year the day is neither one of the last
five or six nor day 59, and is day 58 only in a leap year of the calendar. -/
def HasDate (n : UInt32) : Prop :=
  366 ≤ n.toNat ∧
    julianDay (n.toNat - 366) < 360 ∧ julianDay (n.toNat - 366) ≠ 59 ∧
    (julianDay (n.toNat - 366) = 58 →
      IsLeapYear (1970 + julianYear (n.toNat - 366)))

theorem decodeBinlogValue_date (json : JsonParser) (data : Bytes)
    (colMeta : UInt16) :
    decodeBinlogValue (ε := ε) json data mysqlTypeDate colMeta =
      decodeDate data := by
  rfl

/-- What the decoder makes of a day number. -/
theorem decodeDate_eq {n : ℕ} (hpos : 0 < n) (hn : n < 2 ^ 32) :
    ∃ year month day : ℤ,
      decodeDate (ε := ε) (Bytes.toLe 4 n) =
        .ok (.string (dateText year month day)) ∧
      year = (((n : ℤ) - 366) * 100 + 50).tdiv 36525 + 1970 ∧
      month = ((n : ℤ) - 366 - ((year - 1970) * 365 +
        (year - 1969).tdiv 4)).tdiv 30 + 1 ∧
      day = ((n : ℤ) - 366 - ((year - 1970) * 365 +
        (year - 1969).tdiv 4)).tmod 30 + 1 := by
  refine ⟨_, _, _, ?_, rfl, rfl, rfl⟩
  have hread : readLe (ε := ε) 4 (Bytes.toLe 4 n) = .ok n := readLe_toLe hn
  have hshift : (n : ℤ) - 365 - 1 = n - 366 := by omega
  rw [decodeDate, hread, Outcome.ok_bind, if_neg hpos.ne', hshift]
  rfl

/-- Before the day that is taken for 1 January 1970 the month or the day is not
positive. -/
theorem decodeDate_early {n : ℕ} (hpos : 0 < n) (hn : n < 366) :
    ∃ month day : ℤ, (month < 1 ∨ day < 1) ∧
      decodeDate (ε := ε) (Bytes.toLe 4 n) =
        .ok (.string (dateText (1970 : ℕ) month day)) := by
  obtain ⟨year, month, day, hdecode, hyear, hmonth, hday⟩ :=
    decodeDate_eq (ε := ε) hpos (by omega)
  have hneg : ((n : ℤ) - 366) * 100 + 50 = -((366 - n) * 100 - 50) := by ring
  have h1970 : year = 1970 := by
    rw [hyear, hneg, Int.neg_tdiv, Int.tdiv_eq_ediv_of_nonneg (by omega)]
    omega
  have hback : (n : ℤ) - 366 - ((1970 - 1970) * 365 + Int.tdiv (1970 - 1969) 4) =
      -(366 - n) := by
    rw [Int.tdiv_eq_ediv_of_nonneg (by omega)]
    omega
  rw [h1970, hback] at hmonth hday
  rw [Int.neg_tdiv, Int.tdiv_eq_ediv_of_nonneg (by omega)] at hmonth
  rw [Int.neg_tmod, Int.tmod_eq_emod_of_nonneg (by omega)] at hday
  rw [h1970] at hdecode
  refine ⟨month, day, ?_, hdecode⟩
  omega

/-- Later days are decoded as days of months of thirty days. -/
theorem decodeDate_late {n : ℕ} (hlow : 366 ≤ n) (hn : n < 2 ^ 32) :
    decodeDate (ε := ε) (Bytes.toLe 4 n) =
      .ok (.string (dateText (1970 + julianYear (n - 366) : ℕ)
        (julianDay (n - 366) / 30 + 1 : ℕ)
        (julianDay (n - 366) % 30 + 1 : ℕ))) := by
  obtain ⟨year, month, day, hdecode, hyear, hmonth, hday⟩ :=
    decodeDate_eq (ε := ε) (n := n) (by omega) hn
  have hsplit := julian_day_eq (n - 366)
  have hnext := lt_next_julianYear (n - 366)
  have hyearEq : year = (1970 + julianYear (n - 366) : ℕ) := by
    rw [hyear, Int.tdiv_eq_ediv_of_nonneg (by omega)]
    omega
  have hindex : (n : ℤ) - 366 - ((year - 1970) * 365 +
      (year - 1969).tdiv 4) = julianDay (n - 366) := by
    rw [Int.tdiv_eq_ediv_of_nonneg (by omega), hyearEq]
    omega
  have hmonthEq : month = (julianDay (n - 366) / 30 + 1 : ℕ) := by
    rw [hmonth, hindex, Int.tdiv_eq_ediv_of_nonneg (Int.natCast_nonneg _)]
    omega
  have hdayEq : day = (julianDay (n - 366) % 30 + 1 : ℕ) := by
    rw [hday, hindex, Int.tmod_eq_emod_of_nonneg (Int.natCast_nonneg _)]
    omega
  rw [hdecode, hyearEq, hmonthEq, hdayEq]

/-- A day number that is decoded as a date is one of those that have one. -/
theorem hasDate_of_isDecodedAs {n : UInt32} {date : Date} (hpos : 1 ≤ n)
    (h : IsDecodedAs n date) : HasDate n := by
  have hn : n.toNat < 2 ^ 32 := n.toNat_lt
  have hpos' : 1 ≤ n.toNat := hpos
  have hdecode := h ⟨fun _ => none, fun _ => none⟩ 0
  rw [decodeBinlogValue_date] at hdecode
  obtain ⟨hmonth, -, hday, -⟩ := id date.isDate
  rcases Nat.lt_or_ge n.toNat 366 with hearly | hlate
  · obtain ⟨month, day, hlow, htext⟩ := decodeDate_early hpos' hearly
    rw [htext] at hdecode
    have heq : dateText (1970 : ℕ) month day = writtenDate date :=
      Value.string.inj (Outcome.ok.inj hdecode)
    obtain ⟨-, hmonthEq, hdayEq⟩ := dateText_inj heq
    omega
  · rw [decodeDate_late hlate hn] at hdecode
    have heq : dateText (1970 + julianYear (n.toNat - 366) : ℕ)
        (julianDay (n.toNat - 366) / 30 + 1 : ℕ)
        (julianDay (n.toNat - 366) % 30 + 1 : ℕ) = writtenDate date :=
      Value.string.inj (Outcome.ok.inj hdecode)
    obtain ⟨hyearEq, hmonthEq, hdayEq⟩ := dateText_inj heq
    have hdate := date.isDate
    rw [← hyearEq, ← Int.natCast_inj.mp hmonthEq,
      ← Int.natCast_inj.mp hdayEq, isDate_thirty_iff] at hdate
    exact ⟨hlate, hdate⟩

/-- The date that a day number is decoded as. -/
def dateOf (n : UInt32) (h : HasDate n) : Date where
  year := 1970 + julianYear (n.toNat - 366)
  month := julianDay (n.toNat - 366) / 30 + 1
  day := julianDay (n.toNat - 366) % 30 + 1
  isDate := (isDate_thirty_iff _ _).mpr h.2

theorem isDecodedAs_dateOf {n : UInt32} (h : HasDate n) :
    IsDecodedAs n (dateOf n h) := by
  intro json colMeta
  rw [decodeBinlogValue_date, decodeDate_late h.1 n.toNat_lt]
  rfl

theorem dateOf_lt {m n : UInt32} (hm : HasDate m) (hn : HasDate n)
    (h : m < n) : dateOf m hm < dateOf n hn := by
  have hlt : m.toNat - 366 < n.toNat - 366 := by
    have hlow := hm.1
    have hmn : m.toNat < n.toNat := h
    omega
  rcases julian_lt hlt with hyear | ⟨hyear, hday⟩
  · exact .inl (Nat.add_lt_add_left hyear 1970)
  · right
    refine ⟨congrArg (1970 + ·) hyear, ?_⟩
    simp only [dateOf]
    omega

/-- The order of two days is kept exactly when each of them has a date. -/
theorem keepsOrder_iff {m n : UInt32} (hm : 1 ≤ m) (hmn : m < n) :
    KeepsOrder m n ↔ HasDate m ∧ HasDate n := by
  constructor
  · rintro ⟨a, b, ha, hb, -⟩
    exact ⟨hasDate_of_isDecodedAs hm ha,
      hasDate_of_isDecodedAs (UInt32.le_trans hm (UInt32.le_of_lt hmn)) hb⟩
  · rintro ⟨hm', hn'⟩
    exact ⟨dateOf m hm', dateOf n hn', isDecodedAs_dateOf hm',
      isDecodedAs_dateOf hn', dateOf_lt hm' hn' hmn⟩

theorem keepsOrder_first_days : KeepsOrder 366 367 :=
  (keepsOrder_iff (by decide) (by decide)).mpr
    ⟨⟨by decide, by decide, by decide, by decide⟩,
      by decide, by decide, by decide, by decide⟩

/-- Day 365 is decoded as the text 1970-01-00. -/
theorem not_keepsOrder_365 : ¬ KeepsOrder 365 366 := by
  rintro ⟨a, b, ha, -, -⟩
  have hdate := hasDate_of_isDecodedAs (by decide) ha
  exact absurd hdate.1 (by decide)

/-! ## Date-times -/

/-- A date-time of a column with a number of fractional digits. -/
structure DateTime where
  year : ℕ
  month : ℕ
  day : ℕ
  hour : ℕ
  minute : ℕ
  second : ℕ
  micros : ℕ
  fracSec : ℕ
  year_le : year ≤ 9999
  month_le : 1 ≤ month ∧ month ≤ 12
  day_le : 1 ≤ day ∧ day ≤ 31
  hour_le : hour ≤ 23
  minute_le : minute ≤ 59
  second_le : second ≤ 59
  fracSec_le : fracSec ≤ 6
  micros_lt : micros < 10 ^ 6
  representable : 10 ^ (6 - fracSec) ∣ micros

namespace DateTime

/-- The forty bits of a date-time behind the sign bit, which is one. -/
def packed (t : DateTime) : ℕ :=
  0x8000000000 + ((t.year * 13 + t.month) * 32 + t.day) * 2 ^ 17 +
    t.hour * 2 ^ 12 + t.minute * 2 ^ 6 + t.second

/-- The bytes of the fraction. -/
def fracBytes (t : DateTime) : ℕ := (t.fracSec + 1) / 2

/-- The image that the server writes. -/
def image (t : DateTime) : Bytes :=
  Bytes.toBe 5 t.packed ++
    Bytes.toBe t.fracBytes (t.micros / 10 ^ (6 - 2 * t.fracBytes))

def dateTimeText (t : DateTime) : String :=
  formatDatetime t.year t.month t.day t.hour t.minute t.second ++
    if 0 < t.fracSec then "." ++ padZero 6 t.micros else ""

/-- The image is decoded as the text of the date-time. -/
def IsExact (t : DateTime) : Prop :=
  decodeDatetime2 (ε := String) t.image t.fracSec =
    .ok (.string t.dateTimeText)

/-- The year that the decoder takes the sign bit and the date for. -/
def decodedYear (t : DateTime) : ℕ := t.packed >>> 17 / 13 / 32

theorem le_decodedYear (t : DateTime) : 10000 ≤ t.decodedYear := by
  unfold decodedYear packed
  rw [Nat.shiftRight_eq_div_pow]
  omega

theorem packed_lt (t : DateTime) : t.packed < 256 ^ 5 := by
  have hyear := t.year_le
  have hmonth := t.month_le
  have hday := t.day_le
  have hhour := t.hour_le
  have hminute := t.minute_le
  have hsecond := t.second_le
  unfold packed
  omega

theorem toList_formatDatetime (year : ℕ) (month day hour minute second : ℤ) :
    ∃ rest, (formatDatetime year month day hour minute second).toList =
      leftPad 4 (Nat.toDigits 10 year) ++ '-' :: rest := by
  have hyear := toList_padZero_of_nonneg 4 (Int.natCast_nonneg year)
  unfold formatDatetime
  simp only [String.append_assoc, String.toList_append, hyear]
  exact ⟨_, rfl⟩

/-- The decoded text starts with the decoded year. -/
theorem decodeDatetime2_image (t : DateTime) :
    ∃ (month day hour minute second : ℤ) (fraction : String),
      decodeDatetime2 (ε := ε) t.image t.fracSec =
        .ok (.string (formatDatetime t.decodedYear month day hour minute
          second ++ fraction)) := by
  have hhigh : Bytes.bytesAt (ε := ε) t.image 0 5 =
      .ok (Bytes.toBe 5 t.packed) := by
    rw [Bytes.bytesAt_eq_ok_iff]
    exact ⟨Bytes.length_toBe _ _, List.prefix_append _ _⟩
  have hpacked : Bytes.ofBe (Bytes.toBe 5 t.packed) = t.packed := by
    rw [Bytes.ofBe_toBe, Nat.mod_eq_of_lt t.packed_lt]
  have hlength : t.image.length = 5 + t.fracBytes := by
    simp [image]
  have hslice : Bytes.slice (ε := ε) t.image 5 (5 + t.fracBytes) =
      .ok ((t.image.drop 5).take t.fracBytes) := by
    rw [Bytes.slice, if_pos (by omega), Nat.add_sub_cancel_left]
  unfold decodeDatetime2
  rw [if_neg (by omega), hhigh, Outcome.ok_bind, hpacked]
  dsimp only
  by_cases hfrac : 0 < t.fracSec
  · rw [if_pos ⟨hfrac, hlength.ge⟩, ← fracBytes, hslice, Outcome.ok_bind,
      String.append_assoc]
    exact ⟨_, _, _, _, _, _, rfl⟩
  · rw [if_neg (fun h => hfrac h.1),
      ← String.append_empty (s := formatDatetime _ _ _ _ _ _)]
    exact ⟨_, _, _, _, _, _, rfl⟩

/-- A year of more than four digits shows in the fifth character. -/
theorem formatDatetime_append_ne {year year' : ℕ}
    {month day hour minute second month' day' hour' minute' second' : ℤ}
    {suffix suffix' : String} (hyear : year < 10000) (hyear' : 10000 ≤ year') :
    formatDatetime year' month' day' hour' minute' second' ++ suffix' ≠
      formatDatetime year month day hour minute second ++ suffix := by
  obtain ⟨rest, hrest⟩ := toList_formatDatetime year month day hour minute second
  obtain ⟨rest', hrest'⟩ :=
    toList_formatDatetime year' month' day' hour' minute' second'
  intro h
  have hlists := congrArg String.toList h
  rw [String.toList_append, String.toList_append, hrest, hrest',
    List.append_assoc, List.append_assoc, List.cons_append,
    List.cons_append] at hlists
  obtain ⟨hpad, -⟩ := append_dash_inj (dash_not_mem_leftPad _ _)
    (dash_not_mem_leftPad _ _) hlists
  have heq := leftPad_injective hpad
  omega

/-- An exact text has a year of at most four digits. -/
theorem decodedYear_lt_of_isExact {t : DateTime} (h : t.IsExact) :
    t.decodedYear < 10000 := by
  by_contra hlarge
  obtain ⟨month, day, hour, minute, second, fraction, hdecode⟩ :=
    decodeDatetime2_image (ε := String) t
  unfold IsExact at h
  rw [h] at hdecode
  have heq : t.dateTimeText = _ := Value.string.inj (Outcome.ok.inj hdecode)
  exact formatDatetime_append_ne (Nat.lt_succ_of_le t.year_le)
    (Nat.not_lt.mp hlarge) heq.symm

/-- No date-time is decoded as its own text. -/
theorem not_isExact (t : DateTime) : ¬ t.IsExact := by
  intro hexact
  have hlt := decodedYear_lt_of_isExact hexact
  have hle := t.le_decodedYear
  omega

/-- The date-time 2024-01-02 03:04:05. -/
def secondOfJanuary : DateTime where
  year := 2024
  month := 1
  day := 2
  hour := 3
  minute := 4
  second := 5
  micros := 0
  fracSec := 0
  year_le := by decide
  month_le := by decide
  day_le := by decide
  hour_le := by decide
  minute_le := by decide
  second_le := by decide
  fracSec_le := by decide
  micros_lt := by decide
  representable := by decide

/-- The year 2024 is decoded as 12106. -/
theorem not_isExact_secondOfJanuary :
    secondOfJanuary.decodedYear = 12106 ∧ ¬ secondOfJanuary.IsExact := by
  refine ⟨by decide, fun hexact => ?_⟩
  exact absurd (decodedYear_lt_of_isExact hexact) (by decide)

end DateTime
end OpenCdc.Mysql
