import GatewayMt.Bytes
import GatewayMt.Time.Calendar

/-!
# `Time.Format` with the layouts of `RunOnce`

A UTC `time.Time` is formatted from the date of `absDate` and the clock of
`time.absClock`; `appendInt` writes each numeric field, zero-padded to the
width of its layout element.  For a year from 0 to 9999 every field has its
width exactly, so the formatted bytes are the fields' digits and separators in
a fixed pattern, and they are ordered as the fields are.
-/

namespace GatewayMt.Time

/-- `utod`: `'0' + byte(d)`. -/
def utod (d : Nat) : UInt8 := (48 + d).toUInt8

/-- The decimal digits of `u`, most significant first; `0` has the one digit `0`. -/
def decimal (u : Nat) : Bytes := (Nat.toDigits 10 u).map ascii

/-- `time.appendInt(b, x, width)`: the decimal form of `x`, after a `-` when it is
negative, padded with leading zeros to `width`.  Widths 2 and 4 have fast paths. -/
def appendInt (b : Bytes) (x : Int) (width : Nat) : Bytes :=
  let b := if x < 0 then b ++ [ascii '-'] else b
  let u := x.natAbs
  if width = 2 ∧ u < 100 then b ++ [utod (u / 10), utod (u % 10)]
  else if width = 4 ∧ u < 10000 then
    b ++ [utod (u / 1000), utod (u / 100 % 10), utod (u / 10 % 10), utod (u % 10)]
  else b ++ List.replicate (width - (decimal u).length) (ascii '0') ++ decimal u

/-- A `time.Time`: whole seconds since 1970-01-01T00:00:00Z and the nanoseconds
after them. -/
structure Instant where
  unix : Int
  nsec : Nat
  nsec_lt : nsec < 1000000000

/-- Seconds since 0001-01-01T00:00:00Z: `unixToInternal` is 62135596800. -/
def Instant.abs (t : Instant) : Int := t.unix + 62135596800

def Instant.date (t : Instant) : Date := absDate (t.abs / 86400)

/-- `time.absClock`: the hour, minute and second of the day. -/
def Instant.clock (t : Instant) : Nat × Nat × Nat :=
  let sec := (t.abs % 86400).toNat
  let hour := sec / 3600
  let sec := sec - hour * 3600
  let min := sec / 60
  (hour, min, sec - min * 60)

/-- `t.Format("2006/01/02")`: `2006` writes the year with width 4, `01` and `02`
the month and the day with width 2. -/
def Instant.formatDate (t : Instant) : Bytes :=
  let date := t.date
  let b := appendInt [] date.year 4 ++ [ascii '/']
  let b := appendInt b date.month 2 ++ [ascii '/']
  appendInt b date.day 2

/-- `t.Format(time.RFC3339)`, layout `"2006-01-02T15:04:05Z07:00"`; `Z07:00`
writes `Z` at offset 0. -/
def Instant.formatRFC3339 (t : Instant) : Bytes :=
  let date := t.date
  let (hour, min, sec) := t.clock
  let b := appendInt [] date.year 4 ++ [ascii '-']
  let b := appendInt b date.month 2 ++ [ascii '-']
  let b := appendInt b date.day 2 ++ [ascii 'T']
  let b := appendInt b hour 2 ++ [ascii ':']
  let b := appendInt b min 2 ++ [ascii ':']
  appendInt b sec 2 ++ [ascii 'Z']

/-! ## Fixed-width fields -/

/-- The low `width` decimal digits of `u`, most significant first. -/
def digitsOf : Nat → Nat → Bytes
  | 0, _ => []
  | width + 1, u => digitsOf width (u / 10) ++ [utod (u % 10)]

theorem utod_toNat {d : Nat} (digit : d < 10) : (utod d).toNat = 48 + d := by
  simp only [utod, Nat.toUInt8, UInt8.toNat, UInt8.ofNat]
  simp
  omega

theorem utod_lt_utod {d d' : Nat} (earlier : d < d') (digit : d' < 10) : utod d < utod d' := by
  have below := utod_toNat (show d < 10 by omega)
  have below' := utod_toNat digit
  simp only [UInt8.lt_def, BitVec.lt_def]
  simp only [UInt8.toNat] at below below'
  omega

/-- Every byte of `digitsOf` is a digit, so it is not `'/'`, `'.'` or `','`. -/
theorem mem_digitsOf {width u : Nat} {b : UInt8} (mem : b ∈ digitsOf width u) :
    ∃ d < 10, b = utod d := by
  induction width generalizing u with
  | zero => exact absurd mem (List.not_mem_nil b)
  | succ width ih =>
      rcases List.mem_append.mp mem with earlier | last
      · exact ih earlier
      · exact ⟨u % 10, Nat.mod_lt u (by decide), List.mem_singleton.mp last⟩

@[simp]
theorem length_digitsOf (width u : Nat) : (digitsOf width u).length = width := by
  induction width generalizing u with
  | zero => rfl
  | succ width ih => simp [digitsOf, ih]

/-- Fixed-width digits are ordered as the numbers below `10 ^ width`. -/
theorem digitsOf_less {width u u' : Nat} (earlier : u < u') (fits : u' < 10 ^ width) :
    (digitsOf width u).Less (digitsOf width u') := by
  induction width generalizing u u' with
  | zero => omega
  | succ width ih =>
      rw [pow_succ] at fits
      rcases Nat.lt_or_ge (u / 10) (u' / 10) with higher | same
      · exact (ih higher (by omega)).append_of_length_eq (by simp) _ _
      · rw [digitsOf, digitsOf, show u' / 10 = u / 10 by omega, Bytes.less_append_left_iff]
        exact .rel (utod_lt_utod (by omega) (Nat.mod_lt _ (by decide)))

theorem appendInt_two (b : Bytes) {u : Nat} (fits : u < 100) :
    appendInt b u 2 = b ++ digitsOf 2 u := by
  simp [appendInt, fits, digitsOf, Nat.mod_eq_of_lt (show u / 10 < 10 by omega)]

theorem appendInt_four (b : Bytes) {u : Nat} (fits : u < 10000) :
    appendInt b u 4 = b ++ digitsOf 4 u := by
  simp only [appendInt, digitsOf, Int.natAbs_ofNat, fits]
  simp [Nat.div_div_eq_div_mul, Nat.mod_eq_of_lt (show u / 1000 < 10 by omega)]

/-! ## The formatted fields -/

/-- The year, month and day, with `sep` between them. -/
def dateField (sep : UInt8) (date : Date) : Bytes :=
  digitsOf 4 date.year.toNat ++ sep :: (digitsOf 2 date.month ++ sep :: digitsOf 2 date.day)

/-- The hour, minute and second, with `:` between them. -/
def clockField (clock : Nat × Nat × Nat) : Bytes :=
  digitsOf 2 clock.1 ++ ascii ':' :: (digitsOf 2 clock.2.1 ++ ascii ':' :: digitsOf 2 clock.2.2)

/-- `clock` comes before `clock'` within a day. -/
def ClockBefore (clock clock' : Nat × Nat × Nat) : Prop :=
  clock.1 < clock'.1 ∨ clock.1 = clock'.1 ∧
    (clock.2.1 < clock'.2.1 ∨ clock.2.1 = clock'.2.1 ∧ clock.2.2 < clock'.2.2)

/-- The years whose `"2006"` field has four digits. -/
def FourDigitYear (t : Instant) : Prop := 0 ≤ t.date.year ∧ t.date.year ≤ 9999

instance (t : Instant) : Decidable (FourDigitYear t) :=
  inferInstanceAs (Decidable (0 ≤ _ ∧ _ ≤ _))

theorem Instant.clock_lt (t : Instant) : t.clock.1 < 24 ∧ t.clock.2.1 < 60 ∧ t.clock.2.2 < 60 := by
  simp only [Instant.clock]
  omega

/-- Within one day, later seconds have a later clock. -/
theorem Instant.clockBefore {t t' : Instant} (sameDay : t.abs / 86400 = t'.abs / 86400)
    (earlier : t.unix < t'.unix) : ClockBefore t.clock t'.clock := by
  have later : (t.abs % 86400).toNat < (t'.abs % 86400).toNat := by
    unfold Instant.abs at *
    omega
  simp only [ClockBefore, Instant.clock]
  generalize (t.abs % 86400).toNat = sec at *
  generalize (t'.abs % 86400).toNat = sec' at *
  omega

theorem Instant.date_fields_lt (t : Instant) : t.date.month < 100 ∧ t.date.day < 100 := by
  have valid : t.date.Valid := absDate_valid _
  obtain ⟨_, month_le, _, day_le⟩ := valid
  have := daysIn_le_31 t.date.year month_le
  omega

theorem formatDate_eq {t : Instant} (fourDigits : FourDigitYear t) :
    t.formatDate = dateField (ascii '/') t.date := by
  obtain ⟨month_lt, day_lt⟩ := t.date_fields_lt
  obtain ⟨year, isYear⟩ := Int.eq_ofNat_of_zero_le fourDigits.1
  have year_lt : year < 10000 := by have := fourDigits.2; omega
  simp only [Instant.formatDate, dateField]
  rw [isYear, appendInt_four _ year_lt, appendInt_two _ month_lt, appendInt_two _ day_lt]
  simp

theorem formatRFC3339_eq {t : Instant} (fourDigits : FourDigitYear t) :
    t.formatRFC3339 = dateField (ascii '-') t.date ++ ascii 'T' :: (clockField t.clock ++ [ascii 'Z']) := by
  obtain ⟨month_lt, day_lt⟩ := t.date_fields_lt
  obtain ⟨hour_lt, min_lt, sec_lt⟩ := t.clock_lt
  obtain ⟨year, isYear⟩ := Int.eq_ofNat_of_zero_le fourDigits.1
  have year_lt : year < 10000 := by have := fourDigits.2; omega
  simp only [Instant.formatRFC3339, dateField, clockField]
  rw [isYear, appendInt_four _ year_lt, appendInt_two _ month_lt, appendInt_two _ day_lt,
    appendInt_two _ (by omega : t.clock.1 < 100), appendInt_two _ (by omega : t.clock.2.1 < 100),
    appendInt_two _ (by omega : t.clock.2.2 < 100)]
  simp

@[simp]
theorem length_dateField (sep : UInt8) (date : Date) : (dateField sep date).length = 10 := by
  simp [dateField]

theorem dateField_less (sep : UInt8) {date date' : Date} (nonneg : 0 ≤ date.year)
    (year_lt : date'.year < 10000) (month_lt : date'.month < 100) (day_lt : date'.day < 100)
    (before : date.Before date') : (dateField sep date).Less (dateField sep date') := by
  unfold dateField
  refine Bytes.less_of_field (by simp) sep ?_
  rcases before with earlier | ⟨sameYear, later⟩
  · exact .inl (digitsOf_less (by omega) (show _ < 10000 by omega))
  refine .inr ⟨by rw [sameYear], Bytes.less_of_field (by simp) sep ?_⟩
  rcases later with earlier | ⟨sameMonth, earlier⟩
  · exact .inl (digitsOf_less earlier (show _ < 100 by omega))
  · exact .inr ⟨by rw [sameMonth], digitsOf_less earlier (show _ < 100 by omega)⟩

theorem clockField_less {clock clock' : Nat × Nat × Nat} (hour_lt : clock'.1 < 100)
    (min_lt : clock'.2.1 < 100) (sec_lt : clock'.2.2 < 100) (before : ClockBefore clock clock') :
    (clockField clock).Less (clockField clock') := by
  unfold clockField
  refine Bytes.less_of_field (by simp) _ ?_
  rcases before with earlier | ⟨sameHour, later⟩
  · exact .inl (digitsOf_less earlier (show _ < 100 by omega))
  refine .inr ⟨by rw [sameHour], Bytes.less_of_field (by simp) _ ?_⟩
  rcases later with earlier | ⟨sameMin, earlier⟩
  · exact .inl (digitsOf_less earlier (show _ < 100 by omega))
  · exact .inr ⟨by rw [sameMin], digitsOf_less earlier (show _ < 100 by omega)⟩

end GatewayMt.Time
