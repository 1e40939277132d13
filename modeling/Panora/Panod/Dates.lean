/-
  Panora.Panod.Dates — the times of `before:` and `after:`.

  `parse_time`, `parse_day` and `days_from_civil` (`crates/panora-core/src/search.rs`).  A time is
  a number of seconds, hours and so on before now, or a day.  A day is checked against thirty-one
  whatever its month, and `days_from_civil` counts on into the next one.  Times before now
  saturate; the seconds of a day are computed in `i64`, which a late year overflows (`none`).

  Main results:
    * `midnight_eq` — the era arithmetic is the calendar's;
    * `dates_real_iff` — when a search has the time that is written in it;
    * `next_midnight` — the day after a day.
-/
import Panora.Panod.Formats

namespace Panora.Panod

open Option

/-! ## §1. The calendar -/

def isLeap (year : Int) : Bool := year % 4 = 0 && (year % 100 ≠ 0 || year % 400 = 0)

def monthLength (year : Int) : Nat → Int
  | 2 => if isLeap year then 29 else 28
  | 4 | 6 | 9 | 11 => 30
  | _ => 31

/-- The days before a year, from the year 1. -/
def daysBefore (year : Int) : Int :=
  365 * (year - 1) + (year - 1) / 4 - (year - 1) / 100 + (year - 1) / 400

/-- The number of a day, counted from the first of January 1970. -/
def civilDay (year : Int) (month day : Nat) : Int :=
  daysBefore year - daysBefore 1970
    + ((List.range' 1 (month - 1)).map (monthLength year)).sum + (day - 1)

/-! ## §2. Reading a time -/

/-- `str::parse` of an integer that has no minus sign. -/
def parseUpTo (max : Nat) (s : List Char) : Option Nat :=
  let digits := if s.head? = some '+' then s.tail else s
  let n := decimal 0 (digits.map (fun c => c.toNat - '0'.toNat))
  if digits ≠ [] ∧ digits.all Char.isDigit ∧ n ≤ max then some n else none

/-- What is read: so many of a unit before now, or a day. -/
inductive Reading where
  | ago (amount seconds : Nat)
  | day (year month day : Nat)
  deriving DecidableEq

def unitSeconds (unit : List Char) : Option Nat :=
  match String.ofList unit with
  | "s" | "sec" => some 1
  | "m" | "min" => some 60
  | "h" | "hour" | "hours" => some 3600
  | "d" | "day" | "days" => some 86400
  | "w" | "week" | "weeks" => some (7 * 86400)
  | _ => none

/-- `parse_day`, up to its arithmetic. -/
def readDay (value : List Char) : Option Reading :=
  match value.splitOn '-' with
  | [year, month, day] => do
    let year ← parseUpTo (2 ^ 63 - 1) year
    let month ← parseUpTo (2 ^ 32 - 1) month
    let day ← parseUpTo (2 ^ 32 - 1) day
    if (1 ≤ month ∧ month ≤ 12) ∧ 1 ≤ day ∧ day ≤ 31 then some (.day year month day) else none
  | _ => none

/-- `parse_time`, up to its arithmetic. -/
def readTime (value : List Char) : Option Reading :=
  let digits := value.takeWhile Char.isDigit
  let unit := value.dropWhile Char.isDigit
  if digits ≠ [] ∧ unit ≠ [] then do
    let amount ← parseUpTo (2 ^ 63 - 1) digits
    match unitSeconds unit with
    | some seconds => some (.ago amount seconds)
    | none => readDay value
  else readDay value

/-! ## §3. Its arithmetic -/

/-- A result of `i64` arithmetic. -/
def i64 (n : Int) : Option Int := if -2 ^ 63 ≤ n ∧ n < 2 ^ 63 then some n else none

/-- A result of saturating `i64` arithmetic. -/
def saturated (n : Int) : Int := max (-2 ^ 63) (min n (2 ^ 63 - 1))

/-- The years of `days_from_civil` begin in March. -/
def civilYear (year : Int) (month : Nat) : Int := if month ≤ 2 then year - 1 else year

def dayOfEra (yoe : Int) (month day : Nat) : Int :=
  yoe * 365 + yoe / 4 - yoe / 100 + ((153 * (((month : Int) + 9) % 12) + 2) / 5 + day - 1)

def daysFromCivil (year : Int) (month day : Nat) : Option Int := do
  let y := civilYear year month
  let era := (if 0 ≤ y then y else y - 399).tdiv 400
  let yoe := y - era * 400
  -- no year that is read is negative, so that nothing has left `i64` up to here
  let days ← i64 (era * 146097)
  let days ← i64 (days + dayOfEra yoe month day)
  i64 (days - 719468)

def Reading.time (now : Int64) : Reading → Option Int
  | .ago n seconds => some (saturated (now.toInt - saturated (n * seconds)))
  | .day y m d => (daysFromCivil y m d).bind (fun days => i64 (days * 86400))

/-- `parse_time`: no time (`some none`), a time, or an overflow (`none`). -/
def parseTime (value : List Char) (now : Int64) : Option (Option Int) :=
  match readTime value with
  | none => some none
  | some reading => (reading.time now).map some

theorem era_eq (y : Int) : (if 0 ≤ y then y else y - 399).tdiv 400 = y / 400 := by
  split
  next hy => exact Int.tdiv_eq_ediv_of_nonneg hy
  next hy =>
    rw [show y - 399 = -(399 - y) by omega, Int.neg_tdiv,
      Int.tdiv_eq_ediv_of_nonneg (by omega)]
    omega

/-- **The era arithmetic is the calendar's.** -/
theorem civilDay_eq {month : Nat} (hmonth : 1 ≤ month ∧ month ≤ 12) (year : Int) (day : Nat) :
    civilDay year month day = civilYear year month / 400 * 146097
      + dayOfEra (civilYear year month % 400) month day - 719468 := by
  obtain ⟨h1, h12⟩ := hmonth
  unfold civilDay daysBefore dayOfEra civilYear
  interval_cases month <;> simp [monthLength, isLeap, List.range'] <;> omega

theorem i64_eq_some {n t : Int} : i64 n = some t ↔ n = t ∧ -2 ^ 63 ≤ n ∧ n < 2 ^ 63 := by
  unfold i64
  rw [ite_none_right_eq_some, some.injEq]
  exact and_comm

theorem civil_bounds (y m : Nat) {d : Nat} (hd : 1 ≤ d ∧ d ≤ 31) :
    -1 ≤ civilYear y m / 400 ∧ 0 ≤ dayOfEra (civilYear y m % 400) m d ∧
      dayOfEra (civilYear y m % 400) m d < 150000 := by
  unfold dayOfEra civilYear
  omega

/-- The seconds are the only number that can be too large. -/
theorem midnight_eq (now : Int64) {y m d : Nat} (hm : 1 ≤ m ∧ m ≤ 12) (hd : 1 ≤ d ∧ d ≤ 31) :
    (Reading.day y m d).time now = i64 (civilDay y m d * 86400) := by
  have hbounds := civil_bounds y m hd
  unfold Reading.time daysFromCivil
  dsimp only
  rw [era_eq, show civilYear y m - civilYear y m / 400 * 400 = civilYear y m % 400 by omega,
    civilDay_eq hm]
  generalize dayOfEra (civilYear y m % 400) m d = doe at *
  generalize civilYear y m / 400 = era at *
  refine ext fun t => ?_
  simp only [bind_eq_bind, bind_eq_some_iff, i64_eq_some]
  constructor
  · rintro ⟨_, ⟨_, ⟨rfl, -⟩, _, ⟨rfl, -⟩, rfl, -⟩, rfl, hfits⟩
    exact ⟨rfl, hfits⟩
  · rintro ⟨rfl, hfits⟩
    exact ⟨_, ⟨_, ⟨rfl, by omega⟩, _, ⟨rfl, by omega⟩, rfl, by omega⟩, rfl, hfits⟩

/-! ## §4. What is written -/

/-- A numeral, perhaps with a plus sign. -/
def Numeral (s : List Char) (n : Nat) : Prop :=
  ∃ digits, (s = digits ∨ s = '+' :: digits) ∧ digits ≠ [] ∧ (∀ c ∈ digits, c.isDigit = true) ∧
    decimal 0 (digits.map (fun c => c.toNat - '0'.toNat)) = n

/-- The text says this. -/
def Reading.Written (value : List Char) : Reading → Prop
  | .ago n seconds => ∃ digits unit, value = digits ++ unit ∧ Numeral digits n ∧
      unitSeconds unit = some seconds
  | .day y m d => ∃ year month rest, value = year ++ '-' :: (month ++ '-' :: rest) ∧
      Numeral year y ∧ Numeral month m ∧ Numeral rest d

/-- This is the time: so long before now, or the beginning of a day there is. -/
def Reading.Means (now : Int64) (t : Int) : Reading → Prop
  | .ago n seconds => t = now.toInt - n * seconds
  | .day y m d => (1 ≤ m ∧ m ≤ 12) ∧ 1 ≤ d ∧ d ≤ monthLength y m ∧ t = civilDay y m d * 86400

/-- The month is as long as that, and nothing is out of the range of `i64`. -/
def Reading.Fits (now : Int64) : Reading → Prop
  | .ago n seconds => n * seconds < 2 ^ 63 ∧ -2 ^ 63 ≤ now.toInt - n * seconds
  | .day y m d => d ≤ monthLength y m ∧ civilDay y m d * 86400 < 2 ^ 63

theorem numeral_of_parse {max n : Nat} {s : List Char} (h : parseUpTo max s = some n) :
    Numeral s n := by
  unfold parseUpTo at h
  obtain ⟨⟨hne, hdigits, -⟩, hn⟩ := ite_none_right_eq_some.mp h
  refine ⟨_, ?_, hne, List.all_eq_true.mp hdigits, some.inj hn⟩
  split
  next hplus =>
    obtain ⟨rest, rfl⟩ := List.head?_eq_some_iff.mp hplus
    exact .inr rfl
  next => exact .inl rfl

theorem readDay_written {value : List Char} {r : Reading} (h : readDay value = some r) :
    r.Written value ∧ ∀ y m d, r = .day y m d → (1 ≤ m ∧ m ≤ 12) ∧ 1 ≤ d ∧ d ≤ 31 := by
  unfold readDay at h
  split at h
  next year month rest hsplit =>
    simp only [bind_eq_bind, bind_eq_some_iff, ite_none_right_eq_some, some.injEq] at h
    obtain ⟨y, hy, m, hm, d, hd, hrange, rfl⟩ := h
    refine ⟨⟨year, month, rest, ?_, numeral_of_parse hy, numeral_of_parse hm,
      numeral_of_parse hd⟩, ?_⟩
    · have hjoin : ['-'].intercalate (value.splitOn '-') = value := List.intercalate_splitOn _
      rw [← hjoin, hsplit]
      simp [List.intercalate]
    · rintro y m d ⟨⟩
      exact hrange
  next => cases h

/-- What is read is written there, and a day is one to thirty-one of a month. -/
theorem readTime_written {value : List Char} {r : Reading} (h : readTime value = some r) :
    r.Written value ∧ ∀ y m d, r = .day y m d → (1 ≤ m ∧ m ≤ 12) ∧ 1 ≤ d ∧ d ≤ 31 := by
  unfold readTime at h
  dsimp only at h
  split at h
  next =>
    simp only [bind_eq_bind, bind_eq_some_iff] at h
    obtain ⟨n, hn, h⟩ := h
    split at h
    next seconds hunit =>
      cases h
      exact ⟨⟨_, _, List.takeWhile_append_dropWhile.symm, numeral_of_parse hn, hunit⟩, nofun⟩
    next => exact readDay_written h
  next => exact readDay_written h

/-- The time read is the one written, or there is none. -/
def TimeRight (value : List Char) (now : Int64) : Prop :=
  ∃ time, parseTime value now = some time ∧ ∀ t, time = some t →
    ∃ r, readTime value = some r ∧ r.Written value ∧ r.Means now t

/-- **The time of a search is the one written in it** exactly when the day is one of its month
    and nothing is out of range. -/
theorem dates_real_iff (value : List Char) (now : Int64) :
    TimeRight value now ↔ ∀ r, readTime value = some r → r.Fits now := by
  unfold TimeRight parseTime
  cases hread : readTime value with
  | none => simp
  | some r =>
    obtain ⟨hwritten, hrange⟩ := readTime_written hread
    simp only [some.injEq, map_eq_some_iff]
    cases r with
    | ago n seconds =>
      have hnow := now.toInt_lt
      simp [Reading.time, Reading.Means, Reading.Fits, hwritten, saturated]
      omega
    | day y m d =>
      obtain ⟨hm, hd⟩ := hrange y m d rfl
      have hbounds := civil_bounds y m hd
      have hday := civilDay_eq hm y d
      rw [midnight_eq now hm hd]
      simp [i64_eq_some, Reading.Means, Reading.Fits, hwritten, hm, hd]
      omega

/-! ## §5. One day after another -/

/-- The day after. -/
def nextDay (y m d : Nat) : Reading :=
  if d < monthLength y m then .day y m (d + 1)
  else if m < 12 then .day y (m + 1) 1 else .day (y + 1) 1 1

/-- **Days follow one another**: the midnight of the day after is a day later, or too late. -/
theorem next_midnight (now : Int64) {y m d : Nat} (hm : 1 ≤ m ∧ m ≤ 12)
    (hd : 1 ≤ d ∧ d ≤ monthLength y m) : (nextDay y m d).time now
      = ((Reading.day y m d).time now).bind (fun t => i64 (t + 86400)) := by
  have hlength : monthLength y m ≤ 31 := by
    unfold monthLength
    grind
  have hd' : 1 ≤ d ∧ d ≤ 31 := ⟨hd.1, by omega⟩
  have hnext : (nextDay y m d).time now = i64 ((civilDay y m d + 1) * 86400) := by
    unfold nextDay
    split_ifs with hin hmonth
    · rw [midnight_eq now hm (by omega)]
      congr 2
      unfold civilDay
      omega
    · rw [midnight_eq now (by omega) (by omega)]
      congr 2
      obtain ⟨hm, -⟩ := hm
      interval_cases m <;> simp [civilDay, monthLength, List.range'] at * <;> omega
    · rw [midnight_eq now (by omega) (by omega)]
      congr 2
      obtain rfl : m = 12 := by omega
      simp [civilDay, daysBefore, monthLength, isLeap, List.range'] at *
      omega
  have hbounds := civil_bounds y m hd'
  rw [hnext, midnight_eq now hm hd', civilDay_eq hm]
  refine ext fun t => ?_
  simp only [bind_eq_some_iff, i64_eq_some]
  constructor
  · rintro ⟨rfl, hfits⟩
    exact ⟨_, ⟨rfl, by omega⟩, by omega, by omega⟩
  · rintro ⟨_, ⟨rfl, -⟩, rfl, hfits⟩
    exact ⟨by omega, by omega⟩

theorem next_midnight_leap : (nextDay 2024 2 28).time 0
    = ((Reading.day 2024 2 28).time 0).bind (fun t => i64 (t + 86400)) :=
  next_midnight 0 (by decide) (by decide)

namespace Sample

/-- The thirtieth of February is the second of March, and a late year overflows. -/
theorem february_has_thirty_days :
    parseTime "2026-02-30".toList 0 = some (some 1772409600) ∧
      parseTime "2026-03-02".toList 0 = some (some 1772409600) ∧
      parseTime "300000000000-01-01".toList 0 = none ∧ ¬ TimeRight "2026-02-30".toList 0 := by
  have htime : parseTime "2026-02-30".toList 0 = some (some 1772409600) := by decide +kernel
  have hread : readTime "2026-02-30".toList = some (.day 2026 2 30) := by decide +kernel
  refine ⟨htime, by decide +kernel, by decide +kernel, fun ⟨time, hsome, h⟩ => ?_⟩
  obtain ⟨r, hr, -, hmeans⟩ := h _ (some.inj (hsome.symm.trans htime))
  rw [← some.inj (hread.symm.trans hr)] at hmeans
  exact absurd hmeans.2.2.1 (by decide)

end Sample

end Panora.Panod
