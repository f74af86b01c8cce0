import Scripture.Model

set_option autoImplicit false

/- The producer's time stamps. The printed text is compared with the proleptic Gregorian
calendar counted out year by year and month by month. -/
namespace Scripture.Telemetry

/-- What `format_rfc3339_utc` prints, before it is printed. -/
structure CivilFields where
  year : Int
  month : Nat
  day : Nat
  hour : Nat
  minute : Nat
  second : Nat
  deriving DecidableEq, Repr

/-- The year of an era of 400 years, from the day of the era. -/
def yearOfEra (doe : Nat) : Nat := (doe - doe / 1460 + doe / 36524 - doe / 146096) / 365

def civilFields (secs : UInt64) : CivilFields :=
  let days : Int := (secs.toNat / 86400 : Nat)
  let tod := secs.toNat % 86400
  let z := days + 719468
  let era := (if z ≥ 0 then z else z - 146096).tdiv 146097
  let doe := ((z - era * 146097) % 2 ^ 64).toNat
  let yoe := yearOfEra doe
  let y : Int := yoe + era * 400
  let doy := doe - (365 * yoe + yoe / 4 - yoe / 100)
  let mp := (5 * doy + 2) / 153
  let d := doy - (153 * mp + 2) / 5 + 1
  let m := if mp < 10 then mp + 3 else mp - 9
  { year := if m ≤ 2 then y + 1 else y
    month := m
    day := d
    hour := tod / 3600
    minute := tod % 3600 / 60
    second := tod % 60 }

/-- `{:0width}` of an integer: the sign comes before the zeros. -/
def zeroPadded (width : Nat) (number : Int) : List Char :=
  let sign := if number < 0 then ['-'] else []
  let digits := Nat.toDigits 10 number.natAbs
  sign ++ List.replicate (width - sign.length - digits.length) '0' ++ digits

def formatRfc3339Utc (secs : UInt64) : String :=
  let fields := civilFields secs
  String.ofList (zeroPadded 4 fields.year ++ '-' :: (zeroPadded 2 fields.month ++ '-' ::
    (zeroPadded 2 fields.day ++ 'T' :: (zeroPadded 2 fields.hour ++ ':' ::
      (zeroPadded 2 fields.minute ++ ':' :: (zeroPadded 2 fields.second ++ ['Z']))))))

/-- The rule of 4, 100 and 400. -/
def isLeap (year : Nat) : Bool := year % 4 = 0 ∧ (year % 100 ≠ 0 ∨ year % 400 = 0)

def monthLength (year month : Nat) : Nat :=
  if month = 2 then if isLeap year then 29 else 28
  else if month = 4 ∨ month = 6 ∨ month = 9 ∨ month = 11 then 30
  else 31

/-- The days of the years before a year, counted from year 0. -/
def daysBeforeYear : Nat → Nat
  | 0 => 0
  | year + 1 => daysBeforeYear year + if isLeap year then 366 else 365

/-- The days of a year before a month. -/
def daysBeforeMonth (year month : Nat) : Nat :=
  ((List.range (month - 1)).map fun index => monthLength year (index + 1)).sum

/-- A date and a time of day that exist. -/
structure CivilTime where
  year : Nat
  month : Nat
  day : Nat
  hour : Nat
  minute : Nat
  second : Nat
  month_valid : 1 ≤ month ∧ month ≤ 12
  day_valid : 1 ≤ day ∧ day ≤ monthLength year month
  time_valid : hour < 24 ∧ minute < 60 ∧ second < 60

def dayNumber (year month day : Nat) : Nat :=
  daysBeforeYear year + daysBeforeMonth year month + (day - 1)

/-- The seconds from the start of 1970, none of which is a leap second. -/
def CivilTime.sinceEpoch (time : CivilTime) : Int :=
  ((dayNumber time.year time.month time.day : Int) - dayNumber 1970 1 1) * 86400 +
    time.hour * 3600 + time.minute * 60 + time.second

/-- Reads a number up to a character that has to follow it. -/
def readNumber (stop : Char) (text : List Char) : Option (Nat × List Char) :=
  let digits := text.takeWhile Char.isDigit
  match digits, text.dropWhile Char.isDigit with
  | _ :: _, next :: rest => if next = stop then some (Nat.ofDigitChars 10 digits 0, rest) else none
  | _, _ => none

/-- Reads a date and a time that exist. -/
def readRfc3339 (text : String) : Option CivilTime := do
  let (year, rest) ← readNumber '-' text.toList
  let (month, rest) ← readNumber '-' rest
  let (day, rest) ← readNumber 'T' rest
  let (hour, rest) ← readNumber ':' rest
  let (minute, rest) ← readNumber ':' rest
  let (second, rest) ← readNumber 'Z' rest
  if valid : rest = [] ∧ (1 ≤ month ∧ month ≤ 12) ∧ (1 ≤ day ∧ day ≤ monthLength year month) ∧
      (hour < 24 ∧ minute < 60 ∧ second < 60) then
    some { year, month, day, hour, minute, second, month_valid := valid.2.1,
           day_valid := valid.2.2.1, time_valid := valid.2.2.2 }
  else none

theorem zeroPadded_ofNat (width number : Nat) :
    zeroPadded width number =
      List.replicate (width - (Nat.toDigits 10 number).length) '0' ++ Nat.toDigits 10 number := by
  have natural : ¬(number : Int) < 0 := by omega
  simp only [zeroPadded, if_neg natural, List.length_nil, Nat.sub_zero, Int.natAbs_natCast,
    List.nil_append]

theorem zeroPadded_isDigit (width number : Nat) :
    ∀ character ∈ zeroPadded width number, character.isDigit = true := by
  intro character member
  rw [zeroPadded_ofNat] at member
  cases List.mem_append.mp member with
  | inl padding => rw [List.eq_of_mem_replicate padding]; decide
  | inr digit => exact Nat.isDigit_of_mem_toDigits (by decide) (by decide) digit

theorem ofDigitChars_zeros (count : Nat) (digits : List Char) :
    Nat.ofDigitChars 10 (List.replicate count '0' ++ digits) 0 = Nat.ofDigitChars 10 digits 0 := by
  induction count with
  | zero => rfl
  | succ count ih =>
      rw [List.replicate_succ, List.cons_append, Nat.ofDigitChars_cons]
      exact ih

/-- A padded number reads back, whatever its width. -/
theorem readNumber_zeroPadded (stop : Char) (width number : Nat) (rest : List Char)
    (plain : stop.isDigit = false) :
    readNumber stop (zeroPadded width number ++ stop :: rest) = some (number, rest) := by
  have digits := zeroPadded_isDigit width number
  have taken : (zeroPadded width number ++ stop :: rest).takeWhile Char.isDigit =
      zeroPadded width number := by
    rw [List.takeWhile_append_of_pos digits, List.takeWhile_cons_of_neg (by simp [plain]),
      List.append_nil]
  have dropped : (zeroPadded width number ++ stop :: rest).dropWhile Char.isDigit =
      stop :: rest := by
    rw [List.dropWhile_append_of_pos digits, List.dropWhile_cons_of_neg (by simp [plain])]
  have value : Nat.ofDigitChars 10 (zeroPadded width number) 0 = number := by
    rw [zeroPadded_ofNat, ofDigitChars_zeros]
    exact Nat.ofDigitChars_ten_toDigits
  simp only [readNumber, taken, dropped]
  cases shape : zeroPadded width number with
  | nil =>
      have some := Nat.toDigits_ne_nil (b := 10) (n := number)
      rw [zeroPadded_ofNat, List.append_eq_nil_iff] at shape
      exact absurd shape.2 some
  | cons first others =>
      rw [shape] at value
      simp only [if_true, value]

/-- The rule of 4, 100 and 400, counted. -/
theorem isLeap_count (year : Nat) :
    (if isLeap year then 1 else 0) + (if year % 100 = 0 then 1 else 0) =
      (if year % 4 = 0 then 1 else 0) + (if year % 400 = 0 then 1 else 0) := by
  have centuries : year % 100 = 0 → year % 4 = 0 := by omega
  have eras : year % 400 = 0 → year % 100 = 0 := by omega
  by_cases four : year % 4 = 0
  · by_cases hundred : year % 100 = 0
    · by_cases era : year % 400 = 0
      · simp [isLeap, four, hundred, era]
      · simp [isLeap, four, hundred, era]
    · simp [isLeap, four, hundred, mt eras hundred]
  · have hundred := mt centuries four
    simp [isLeap, four, hundred, mt eras hundred]

/-- The leap years before a year. -/
theorem daysBeforeYear_eq (year : Nat) :
    daysBeforeYear year + (year + 99) / 100 =
      365 * year + (year + 3) / 4 + (year + 399) / 400 := by
  induction year with
  | zero => rfl
  | succ year ih =>
      have leap := isLeap_count year
      have fours : (year + 1 + 3) / 4 = (year + 3) / 4 + if year % 4 = 0 then 1 else 0 := by
        split <;> omega
      have hundreds : (year + 1 + 99) / 100 =
          (year + 99) / 100 + if year % 100 = 0 then 1 else 0 := by
        split <;> omega
      have eras : (year + 1 + 399) / 400 =
          (year + 399) / 400 + if year % 400 = 0 then 1 else 0 := by
        split <;> omega
      have length : (if isLeap year then 366 else 365) = 365 + if isLeap year then 1 else 0 := by
        split <;> rfl
      rw [daysBeforeYear, length, fours, hundreds, eras]
      omega

/-- March 1 of year 0 is day 60. -/
theorem daysBeforeYear_march (year : Nat) :
    daysBeforeYear year + (if isLeap year then 60 else 59) + year / 100 =
      365 * year + year / 4 + year / 400 + 60 := by
  have closed := daysBeforeYear_eq year
  have leap := isLeap_count year
  have fours : year / 4 + 1 = (year + 3) / 4 + if year % 4 = 0 then 1 else 0 := by
    split <;> omega
  have hundreds : year / 100 + 1 = (year + 99) / 100 + if year % 100 = 0 then 1 else 0 := by
    split <;> omega
  have eras : year / 400 + 1 = (year + 399) / 400 + if year % 400 = 0 then 1 else 0 := by
    split <;> omega
  have start : (if isLeap year then 60 else 59) = 59 + if isLeap year then 1 else 0 := by
    split <;> rfl
  rw [start]
  omega

/-- An era is four centuries, a century 25 runs of four years; only the last century has its
leap day at the end. -/
theorem yearOfEra_eq (century cycle rest : Nat) (centuries : century < 4)
    (cycles : cycle < 25) (small : rest < 1461) (ends : cycle = 24 → century < 3 → rest < 1460) :
    yearOfEra (36524 * century + 1461 * cycle + rest) =
      100 * century + 4 * cycle + min (rest / 365) 3 := by
  by_cases last : 36524 * century + 1461 * cycle + rest = 146096
  · have shape : century = 3 ∧ cycle = 24 ∧ rest = 1460 := by omega
    rw [shape.1, shape.2.1, shape.2.2]
    rfl
  · have fourYears : (36524 * century + 1461 * cycle + rest) / 1460 =
        25 * century + cycle + (24 * century + cycle + rest) / 1460 := by omega
    have hundred : (36524 * century + 1461 * cycle + rest) / 36524 = century := by omega
    have era : (36524 * century + 1461 * cycle + rest) / 146096 = 0 := by omega
    rw [yearOfEra, fourYears, hundred, era]
    by_cases early : 24 * century + cycle + rest < 1460
    · rw [Nat.div_eq_of_lt early]
      omega
    · have once : (24 * century + cycle + rest) / 1460 = 1 := by omega
      rw [once]
      omega

/-- The day of the year that starts in March, within its year. -/
theorem yearOfEra_spec (doe : Nat) (era : doe < 146097) :
    yearOfEra doe < 400 ∧
      365 * yearOfEra doe + yearOfEra doe / 4 - yearOfEra doe / 100 ≤ doe ∧
      doe - (365 * yearOfEra doe + yearOfEra doe / 4 - yearOfEra doe / 100) ≤
        if isLeap (yearOfEra doe + 1) then 365 else 364 := by
  obtain ⟨century, centuryEq⟩ : ∃ century, century = min (doe / 36524) 3 := ⟨_, rfl⟩
  obtain ⟨cycle, cycleEq⟩ : ∃ cycle, cycle = (doe - 36524 * century) / 1461 := ⟨_, rfl⟩
  obtain ⟨rest, restEq⟩ : ∃ rest, doe = 36524 * century + 1461 * cycle + rest :=
    ⟨doe - 36524 * century - 1461 * cycle, by omega⟩
  have year := yearOfEra_eq century cycle rest (by omega) (by omega) (by omega) (by omega)
  rw [← restEq] at year
  obtain ⟨quarter, quarterEq⟩ : ∃ quarter, quarter = min (rest / 365) 3 := ⟨_, rfl⟩
  rw [← quarterEq] at year
  have byFour : yearOfEra doe / 4 = 25 * century + cycle := by omega
  have byHundred : yearOfEra doe / 100 = century := by omega
  refine ⟨by omega, by omega, ?_⟩
  have leap : rest = 1460 → isLeap (yearOfEra doe + 1) = true := by
    intro full
    simp only [isLeap, decide_eq_true_eq]
    omega
  by_cases full : rest = 1460
  · rw [if_pos (leap full)]
    omega
  · have most : doe - (365 * yearOfEra doe + yearOfEra doe / 4 - yearOfEra doe / 100) ≤ 364 := by
      omega
    split
    · omega
    · exact most

/-- The days before each month, in terms of the days before March. -/
theorem daysBeforeMonth_march (year : Nat) {mp : Nat} (range : mp < 10) :
    daysBeforeMonth year (mp + 3) =
      (153 * mp + 2) / 5 + if isLeap year then 60 else 59 := by
  interval_cases mp <;> simp [daysBeforeMonth, List.range_succ, monthLength] <;> split <;> rfl

theorem monthLength_march (year : Nat) {mp : Nat} (range : mp < 10) :
    monthLength year (mp + 3) = (153 * (mp + 1) + 2) / 5 - (153 * mp + 2) / 5 := by
  interval_cases mp <;> rfl

/-- The month and day that a day of a year from March falls on exist, and count back to it. -/
theorem month_spec {year doy mp month day civil : Nat}
    (small : doy ≤ if isLeap (year + 1) then 365 else 364) (mpEq : mp = (5 * doy + 2) / 153)
    (monthEq : month = if mp < 10 then mp + 3 else mp - 9)
    (dayEq : day = doy - (153 * mp + 2) / 5 + 1)
    (civilEq : civil = if month ≤ 2 then year + 1 else year) :
    (1 ≤ month ∧ month ≤ 12) ∧ (1 ≤ day ∧ day ≤ monthLength civil month) ∧
      dayNumber civil month day =
        daysBeforeYear year + (if isLeap year then 60 else 59) + doy := by
  by_cases spring : mp < 10
  · rw [if_pos spring] at monthEq
    rw [monthEq, if_neg (by omega)] at civilEq
    rw [monthEq, civilEq, dayNumber, daysBeforeMonth_march year spring,
      monthLength_march year spring]
    refine ⟨by omega, by omega, ?_⟩
    omega
  · rw [if_neg spring] at monthEq
    have most : doy ≤ 365 := by split at small <;> omega
    have winter : mp = 10 ∨ mp = 11 := by omega
    rw [monthEq, if_pos (by omega)] at civilEq
    have before : daysBeforeYear (year + 1) =
        daysBeforeYear year + if isLeap year then 366 else 365 := rfl
    rw [civilEq, monthEq, dayNumber, before]
    cases winter with
    | inl january =>
        rw [january] at dayEq mpEq ⊢
        have length : monthLength (year + 1) (10 - 9) = 31 := rfl
        have none : daysBeforeMonth (year + 1) (10 - 9) = 0 := rfl
        rw [length, none]
        refine ⟨by omega, by omega, ?_⟩
        split <;> omega
    | inr february =>
        rw [february] at dayEq mpEq ⊢
        have length : monthLength (year + 1) (11 - 9) = if isLeap (year + 1) then 29 else 28 := rfl
        have january : daysBeforeMonth (year + 1) (11 - 9) = 31 := rfl
        rw [length, january]
        refine ⟨by omega, ?_, ?_⟩
        · by_cases leap : isLeap (year + 1) = true
          · rw [if_pos leap] at small ⊢
            omega
          · rw [if_neg leap] at small ⊢
            omega
        · split <;> omega

/-- The fields are those of a date and a time that exist, and the seconds of that time are the
input. -/
theorem civilFields_spec (secs : UInt64) :
    ∃ time : CivilTime,
      civilFields secs = ⟨time.year, time.month, time.day, time.hour, time.minute, time.second⟩ ∧
        time.sinceEpoch = secs.toNat := by
  have bound := secs.toNat_lt
  obtain ⟨z, zEq⟩ : ∃ z, z = secs.toNat / 86400 + 719468 := ⟨_, rfl⟩
  obtain ⟨doe, doeEq⟩ : ∃ doe, doe = z % 146097 := ⟨_, rfl⟩
  obtain ⟨yearBound, yearStart, yearEnd⟩ := yearOfEra_spec doe (by omega)
  obtain ⟨yoe, yoeEq⟩ : ∃ yoe, yoe = yearOfEra doe := ⟨_, rfl⟩
  obtain ⟨doy, doyEq⟩ : ∃ doy, doy = doe - (365 * yoe + yoe / 4 - yoe / 100) := ⟨_, rfl⟩
  obtain ⟨year, yearEq⟩ : ∃ year, year = yoe + z / 146097 * 400 := ⟨_, rfl⟩
  rw [← yoeEq] at yearBound yearStart yearEnd
  rw [← doyEq] at yearEnd
  have leap : isLeap (year + 1) = isLeap (yoe + 1) := by
    simp only [isLeap, decide_eq_decide]
    omega
  rw [← leap] at yearEnd
  obtain ⟨mp, mpEq⟩ : ∃ mp, mp = (5 * doy + 2) / 153 := ⟨_, rfl⟩
  obtain ⟨month, monthEq⟩ : ∃ month, month = if mp < 10 then mp + 3 else mp - 9 := ⟨_, rfl⟩
  obtain ⟨monthValid, dayValid, counted⟩ := month_spec yearEnd mpEq monthEq rfl rfl
  have days : daysBeforeYear year + (if isLeap year then 60 else 59) + doy = z + 60 := by
    have march := daysBeforeYear_march year
    have byFour : year / 4 = yoe / 4 + z / 146097 * 100 := by omega
    have byHundred : year / 100 = yoe / 100 + z / 146097 * 4 := by omega
    have byEra : year / 400 = z / 146097 := by omega
    omega
  have fields : civilFields secs =
      { year := ((if month ≤ 2 then year + 1 else year : Nat) : Int)
        month := month
        day := doy - (153 * mp + 2) / 5 + 1
        hour := secs.toNat % 86400 / 3600
        minute := secs.toNat % 86400 % 3600 / 60
        second := secs.toNat % 86400 % 60 } := by
    have natural : ((secs.toNat / 86400 : Nat) : Int) + 719468 = (z : Int) := by omega
    have era : (if (z : Int) ≥ 0 then (z : Int) else z - 146096).tdiv 146097 =
        (z / 146097 : Nat) := by
      rw [if_pos (by omega)]
      exact Int.ofNat_tdiv z 146097
    have dayOfEra : (((z : Int) - (z / 146097 : Nat) * 146097) % 2 ^ 64).toNat = doe := by
      have rest : (z : Int) - (z / 146097 : Nat) * 146097 = (doe : Int) := by omega
      rw [rest, Int.emod_eq_of_lt (by omega) (by omega), Int.toNat_natCast]
    have years : (yoe : Int) + (z / 146097 : Nat) * 400 = (year : Int) := by omega
    simp only [civilFields, natural, era, dayOfEra, ← yoeEq, ← doyEq, years, ← mpEq, ← monthEq]
    congr 1
    exact (apply_ite (fun count : Nat => (count : Int)) _ _ _).symm
  refine ⟨⟨_, _, _, _, _, _, monthValid, dayValid, ?_⟩, fields, ?_⟩
  · omega
  · have epoch : dayNumber 1970 1 1 = 719528 := by
      have closed := daysBeforeYear_eq 1970
      have january : daysBeforeMonth 1970 1 = 0 := rfl
      rw [dayNumber, january]
      omega
    simp only [CivilTime.sinceEpoch, counted, days, epoch]
    omega

theorem readRfc3339_formatRfc3339Utc (secs : UInt64) :
    ∃ time : CivilTime, readRfc3339 (formatRfc3339Utc secs) = some time ∧
      time.sinceEpoch = secs.toNat := by
  obtain ⟨time, fields, seconds⟩ := civilFields_spec secs
  refine ⟨time, ?_, seconds⟩
  have dash : '-'.isDigit = false := by decide
  have letterT : 'T'.isDigit = false := by decide
  have colon : ':'.isDigit = false := by decide
  have letterZ : 'Z'.isDigit = false := by decide
  simp only [readRfc3339, formatRfc3339Utc, fields, String.toList_ofList,
    readNumber_zeroPadded _ _ _ _ dash, readNumber_zeroPadded _ _ _ _ letterT,
    readNumber_zeroPadded _ _ _ _ colon, readNumber_zeroPadded _ _ _ _ letterZ,
    Option.bind_eq_bind, Option.bind_some]
  exact dif_pos ⟨trivial, time.month_valid, time.day_valid, time.time_valid⟩

/-- Every 64-bit number of seconds is printed as a date and a time of the proleptic Gregorian
calendar that lies that many seconds after the start of 1970, so no two print the same. -/
theorem formatRfc3339Utc_exact :
    (∀ secs : UInt64, ∃ time : CivilTime,
      readRfc3339 (formatRfc3339Utc secs) = some time ∧ time.sinceEpoch = secs.toNat) ∧
    Function.Injective formatRfc3339Utc := by
  refine ⟨readRfc3339_formatRfc3339Utc, ?_⟩
  intro secs other same
  obtain ⟨time, readBack, seconds⟩ := readRfc3339_formatRfc3339Utc secs
  obtain ⟨otherTime, otherRead, otherSeconds⟩ := readRfc3339_formatRfc3339Utc other
  rw [← same, readBack] at otherRead
  rw [← Option.some.inj otherRead, seconds] at otherSeconds
  exact UInt64.toNat_inj.mp (by omega)

end Scripture.Telemetry
