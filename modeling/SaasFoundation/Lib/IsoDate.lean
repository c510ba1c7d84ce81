import Mathlib.Data.List.Basic

/-!
# `Date.prototype.toISOString`

The calendar of ECMAScript: days since 1970, the proleptic Gregorian year
of a day, month and day of the month, and the ISO text. Years 0 to 9999
are written with four digits; every other year with a sign and six, so the
first ten characters of the text are a full date only for the former.
-/

namespace SaasFoundation.Lib.IsoDate

def msPerDay : Int := 86400000

/-- `Day(t)`. -/
def day (ms : Int) : Int := ms / msPerDay

/-- `DayFromYear(y)`: the day on which year `y` begins. -/
def dayFromYear (y : Int) : Int :=
  365 * (y - 1970) + (y - 1969) / 4 - (y - 1901) / 100 + (y - 1601) / 400

/-- The year of a day: the mean length of a year gives it up to one. -/
def yearFromDay (d : Int) : Int :=
  let y := 400 * d / 146097 + 1970
  if d < dayFromYear y then y - 1
  else if dayFromYear (y + 1) ≤ d then y + 1
  else y

/-- Days before month `m` (0 is January) in a year with `leap` leap days. -/
def monthStart (leap : Nat) (m : Nat) : Nat :=
  [0, 31, 59 + leap, 90 + leap, 120 + leap, 151 + leap, 181 + leap, 212 + leap,
    243 + leap, 273 + leap, 304 + leap, 334 + leap].getD m 0

/-- The month of the `n`-th day of a year: the last that has begun. -/
def monthOf (leap n : Nat) : Nat :=
  ((List.range 12).filter (fun m => monthStart leap m ≤ n)).length - 1

structure Civil where
  year : Int
  month : Nat
  date : Nat

def civil (d : Int) : Civil :=
  let y := yearFromDay d
  let leap := (dayFromYear (y + 1) - dayFromYear y - 365).toNat
  let n := (d - dayFromYear y).toNat
  let m := monthOf leap n
  ⟨y, m + 1, n - monthStart leap m + 1⟩

def digit (n : Nat) : Char := Char.ofNat (48 + n % 10)

def pad2 (n : Nat) : List Char := [digit (n / 10), digit n]
def pad3 (n : Nat) : List Char := digit (n / 100) :: pad2 n
def pad4 (n : Nat) : List Char := digit (n / 1000) :: pad3 n
def pad6 (n : Nat) : List Char := digit (n / 100000) :: digit (n / 10000) :: pad4 n

def yearText (y : Int) : List Char :=
  if 0 ≤ y ∧ y ≤ 9999 then pad4 y.toNat
  else if 0 ≤ y then '+' :: pad6 y.toNat
  else '-' :: pad6 (-y).toNat

def dateText (d : Int) : List Char :=
  let c := civil d
  yearText c.year ++ ['-'] ++ pad2 c.month ++ ['-'] ++ pad2 c.date

def timeText (ms : Int) : List Char :=
  let t := (ms % msPerDay).toNat
  pad2 (t / 3600000) ++ [':'] ++ pad2 (t / 60000 % 60) ++ [':'] ++ pad2 (t / 1000 % 60)
    ++ ['.'] ++ pad3 (t % 1000) ++ ['Z']

/-- The largest time value of a `Date`. -/
def maxTime : Int := 8640000000000000

/-- `new Date(ms).toISOString()`; `none` is the `RangeError` of an invalid
date. -/
def toIsoString (ms : Int) : Option (List Char) :=
  if -maxTime ≤ ms ∧ ms ≤ maxTime then
    some (dateText (day ms) ++ ['T'] ++ timeText ms)
  else none

/-- Times whose year is written with four digits. -/
def FourDigitYear (ms : Int) : Prop := -62167219200000 ≤ ms ∧ ms < 253402300800000

instance (ms : Int) : Decidable (FourDigitYear ms) := inferInstanceAs (Decidable (_ ∧ _))

/-! ## The year of a day -/

/-- Year starts stay within a few days of the mean calendar. -/
theorem dayFromYear_bounds (y : Int) :
    146097 * (y - 1970) - 400 ≤ 400 * dayFromYear y ∧
      400 * dayFromYear y ≤ 146097 * (y - 1970) + 800 := by
  unfold dayFromYear
  omega

theorem yearFromDay_spec (d : Int) :
    dayFromYear (yearFromDay d) ≤ d ∧ d < dayFromYear (yearFromDay d + 1) := by
  have hdiv : 146097 * (400 * d / 146097) ≤ 400 * d ∧
      400 * d < 146097 * (400 * d / 146097) + 146097 := by omega
  unfold yearFromDay
  generalize 400 * d / 146097 = q at hdiv
  have h₁ := dayFromYear_bounds (q + 1970 - 1)
  have h₂ := dayFromYear_bounds (q + 1970 + 1 + 1)
  simp only
  split
  · rw [show q + 1970 - 1 + 1 = q + 1970 by omega]
    omega
  · split
    · omega
    · omega

theorem year_length (y : Int) :
    dayFromYear (y + 1) - dayFromYear y = 365 ∨ dayFromYear (y + 1) - dayFromYear y = 366 := by
  unfold dayFromYear
  omega

/-- Years begin in order. -/
theorem dayFromYear_mono {y z : Int} (h : y ≤ z) : dayFromYear y ≤ dayFromYear z := by
  unfold dayFromYear
  omega

theorem yearFromDay_fourDigit {ms : Int} (h : FourDigitYear ms) :
    0 ≤ yearFromDay (day ms) ∧ yearFromDay (day ms) ≤ 9999 := by
  obtain ⟨hlo, hhi⟩ := yearFromDay_spec (day ms)
  have hday : -719528 ≤ day ms ∧ day ms < 2932897 := by
    obtain ⟨h₁, h₂⟩ := h
    unfold day msPerDay
    omega
  have h0 : dayFromYear 0 = -719528 := by decide
  have h1 : dayFromYear 10000 = 2932897 := by decide
  constructor
  · by_contra hneg
    have := dayFromYear_mono (show yearFromDay (day ms) + 1 ≤ 0 by omega)
    omega
  · by_contra hbig
    have := dayFromYear_mono (show 10000 ≤ yearFromDay (day ms) by omega)
    omega

/-! ## The text determines the day -/

theorem digit_toNat (n : Nat) : (digit n).toNat = 48 + n % 10 := by
  have h : ∀ k < 10, (Char.ofNat (48 + k)).toNat = 48 + k := by decide
  exact h (n % 10) (Nat.mod_lt _ (by decide))

theorem digit_inj {m n : Nat} (h : digit m = digit n) : m % 10 = n % 10 := by
  have := congrArg Char.toNat h
  rw [digit_toNat, digit_toNat] at this
  omega

theorem pad2_inj {m n : Nat} (hm : m < 100) (hn : n < 100) (h : pad2 m = pad2 n) :
    m = n := by
  simp only [pad2, List.cons.injEq, and_true] at h
  have h₁ := digit_inj h.1
  have h₂ := digit_inj h.2
  omega

theorem pad4_inj {m n : Nat} (hm : m < 10000) (hn : n < 10000) (h : pad4 m = pad4 n) :
    m = n := by
  simp only [pad4, pad3, pad2, List.cons.injEq, and_true] at h
  obtain ⟨h₁, h₂, h₃, h₄⟩ := h
  have h₁ := digit_inj h₁
  have h₂ := digit_inj h₂
  have h₃ := digit_inj h₃
  have h₄ := digit_inj h₄
  omega

/-- Month and day of the month give the day of the year back. -/
theorem monthStart_monthOf : ∀ leap < 2, ∀ n < 366,
    monthOf leap n < 12 ∧ monthStart leap (monthOf leap n) ≤ n ∧
      n - monthStart leap (monthOf leap n) + 1 < 100 := by
  decide +kernel

theorem civil_spec (d : Int) :
    ∃ leap < 2, (civil d).month = monthOf leap (d - dayFromYear (civil d).year).toNat + 1 ∧
      (leap : Int) = dayFromYear ((civil d).year + 1) - dayFromYear (civil d).year - 365 ∧
      d = dayFromYear (civil d).year + monthStart leap ((civil d).month - 1) +
        (civil d).date - 1 ∧
      (civil d).month < 100 ∧ (civil d).date < 100 := by
  obtain ⟨hlo, hhi⟩ := yearFromDay_spec d
  have hlen := year_length (yearFromDay d)
  set y := yearFromDay d with hy
  have hleap : (dayFromYear (y + 1) - dayFromYear y - 365).toNat < 2 := by omega
  have hn : (d - dayFromYear y).toNat < 366 := by omega
  obtain ⟨hm, hle, hdate⟩ := monthStart_monthOf _ hleap _ hn
  refine ⟨_, hleap, rfl, by simp only [civil, ← hy]; omega, ?_, ?_, ?_⟩
  · simp only [civil, ← hy, Nat.add_sub_cancel]
    omega
  · simp only [civil, ← hy]
    omega
  · simpa only [civil, ← hy] using hdate

/-- Two days of four-digit years have the same date text only if they are
the same day. -/
theorem dateText_inj {s t : Int} (hs : FourDigitYear s) (ht : FourDigitYear t)
    (h : dateText (day s) = dateText (day t)) : day s = day t := by
  have hys := yearFromDay_fourDigit hs
  have hyt := yearFromDay_fourDigit ht
  obtain ⟨l₁, -, -, hl₁, hd₁, hm₁, hdd₁⟩ := civil_spec (day s)
  obtain ⟨l₂, -, -, hl₂, hd₂, hm₂, hdd₂⟩ := civil_spec (day t)
  have hy₁ : (civil (day s)).year = yearFromDay (day s) := rfl
  have hy₂ : (civil (day t)).year = yearFromDay (day t) := rfl
  simp only [dateText, yearText, hy₁, hy₂, hys, hyt, and_self, if_true, pad4, pad3, pad2,
    List.cons_append, List.nil_append, List.cons.injEq, and_true, true_and] at h
  obtain ⟨a₁, a₂, a₃, a₄, b₁, b₂, c₁, c₂⟩ := h
  have hyear : (yearFromDay (day s)).toNat = (yearFromDay (day t)).toNat := by
    refine pad4_inj (by omega) (by omega) ?_
    simp only [pad4, pad3, pad2, a₁, a₂, a₃, a₄]
  have hmonth : (civil (day s)).month = (civil (day t)).month :=
    pad2_inj hm₁ hm₂ (by simp only [pad2, b₁, b₂])
  have hdate : (civil (day s)).date = (civil (day t)).date :=
    pad2_inj hdd₁ hdd₂ (by simp only [pad2, c₁, c₂])
  have hyy : (civil (day s)).year = (civil (day t)).year := by
    rw [hy₁, hy₂]
    omega
  have hll : l₁ = l₂ := by
    rw [hyy] at hl₁
    omega
  rw [hd₁, hd₂, hyy, hmonth, hdate, hll]

/-- A four-digit year leaves a date of ten characters. -/
theorem dateText_length {ms : Int} (h : FourDigitYear ms) : (dateText (day ms)).length = 10 := by
  have hy : 0 ≤ (civil (day ms)).year ∧ (civil (day ms)).year ≤ 9999 := yearFromDay_fourDigit h
  simp [dateText, yearText, hy, pad4, pad3, pad2]

theorem digit_ne_hash (n : Nat) : '#' ≠ digit n := by
  intro h
  have := congrArg Char.toNat h
  rw [digit_toNat, show '#'.toNat = 35 from rfl] at this
  omega

/-- The text may be set off by a `#`. -/
theorem hash_not_mem_toIsoString {ms : Int} {s : List Char} (h : toIsoString ms = some s) :
    '#' ∉ s := by
  have hyear : ∀ y, '#' ∉ yearText y := by
    intro y
    unfold yearText
    split
    · simp [pad4, pad3, pad2, digit_ne_hash]
    · split <;> simp [pad6, pad4, pad3, pad2, digit_ne_hash]
  simp only [toIsoString, Option.ite_none_right_eq_some, Option.some.injEq] at h
  rw [← h.2]
  simp [dateText, timeText, pad3, pad2, digit_ne_hash, hyear]

end SaasFoundation.Lib.IsoDate
