import WordPackage.Proofs.Calendar.Days
import WordPackage.Proofs.Text.Digits

/-!
# Written instants

An instant of the years 0 to 9999 is written as a date of the calendar and a time of day that
are as many seconds away from the start of 1970 as the instant is. Different seconds are written
differently, and the texts are in the order of the instants, since a later instant has the
greater number in the first field in which two of them differ.
-/

namespace WordPackage

/-- A date and a time of day. -/
structure Timestamp where
  date : CivilDate
  hour : Nat
  minute : Nat
  second : Nat
  deriving DecidableEq, Repr

namespace Timestamp

/-- Whether the date is one of the calendar and the time is before 24:00:00. -/
structure IsReal (stamp : Timestamp) : Prop where
  date : stamp.date.IsReal
  hour_lt : stamp.hour < 24
  minute_lt : stamp.minute < 60
  second_lt : stamp.second < 60

/-- Seconds from the start of 1970 to a timestamp; negative before 1970. -/
def secondNumber (stamp : Timestamp) : Int :=
  86400 * stamp.date.dayNumber + (3600 * stamp.hour + 60 * stamp.minute + stamp.second : Nat)

/-- The timestamp that stands in a text of the shape `dddd-dd-ddTdd:dd:ddZ`. -/
def ofText? (text : String) : Option Timestamp :=
  match text.toList with
  | [y₁, y₂, y₃, y₄, '-', m₁, m₂, '-', d₁, d₂, 'T', h₁, h₂, ':', n₁, n₂, ':', s₁, s₂, 'Z'] => do
      let year ← Text.number? [y₁, y₂, y₃, y₄]
      let month ← Text.number? [m₁, m₂]
      let day ← Text.number? [d₁, d₂]
      let hour ← Text.number? [h₁, h₂]
      let minute ← Text.number? [n₁, n₂]
      let second ← Text.number? [s₁, s₂]
      return { date := { year, month, day }, hour, minute, second }
  | _ => none

/-- The timestamp that is so many seconds after the start of 1970. -/
def ofSeconds (seconds : Int) : Timestamp :=
  let secondOfDay := (seconds % 86400).toNat
  { date := .ofDays (seconds / 86400)
    hour := secondOfDay / 3600
    minute := secondOfDay / 60 % 60
    second := secondOfDay % 60 }

/-- A timestamp from a number of seconds is a real one, that many seconds after the start of
1970. -/
theorem isReal_and_secondNumber_ofSeconds (seconds : Int) :
    (ofSeconds seconds).IsReal ∧ (ofSeconds seconds).secondNumber = seconds := by
  obtain ⟨real, number⟩ := CivilDate.isReal_and_dayNumber_ofDays (seconds / 86400)
  constructor
  · refine ⟨real, ?_, ?_, ?_⟩
    all_goals
      dsimp only [ofSeconds]
      omega
  · rw [secondNumber]
    dsimp only [ofSeconds]
    rw [number]
    omega

/-- Whether a timestamp has the smaller number in the first field in which it differs from
another. -/
def Precedes (earlier later : Timestamp) : Prop :=
  earlier.date.year < later.date.year ∨ earlier.date.year = later.date.year ∧
    (earlier.date.month < later.date.month ∨ earlier.date.month = later.date.month ∧
      (earlier.date.day < later.date.day ∨ earlier.date.day = later.date.day ∧
        (earlier.hour < later.hour ∨ earlier.hour = later.hour ∧
          (earlier.minute < later.minute ∨ earlier.minute = later.minute ∧
            earlier.second < later.second))))

/-- Later seconds are later timestamps. -/
theorem precedes_ofSeconds {earlier later : Int} (before : earlier < later) :
    (ofSeconds earlier).Precedes (ofSeconds later) := by
  obtain ⟨real, number⟩ := CivilDate.isReal_and_dayNumber_ofDays (earlier / 86400)
  obtain ⟨real', number'⟩ := CivilDate.isReal_and_dayNumber_ofDays (later / 86400)
  dsimp only [Precedes, ofSeconds]
  rcases Int.lt_or_le (earlier / 86400) (later / 86400) with days | sameDay
  · have dates : (CivilDate.ofDays (earlier / 86400)).Precedes (.ofDays (later / 86400)) := by
      rwa [← CivilDate.dayNumber_lt_dayNumber_iff real real', number, number']
    unfold CivilDate.Precedes at dates
    omega
  · have same : earlier / 86400 = later / 86400 := by omega
    rw [same]
    omega

end Timestamp

namespace Instant

/-- Whether an instant lies in one of the years 0 to 9999, and not in a leap second. -/
structure IsOrdinary (instant : Instant) : Prop where
  not_before : 86400 * CivilDate.dayNumber ⟨0, 1, 1⟩ ≤ instant.seconds
  lt_end : instant.seconds < 86400 * CivilDate.dayNumber ⟨10000, 1, 1⟩
  nanoseconds_lt : instant.nanoseconds < 1000000000

variable {instant : Instant}

/-- The seconds of ordinary instants lie between two numbers. -/
theorem isOrdinary_iff :
    instant.IsOrdinary ↔ -62167219200 ≤ instant.seconds ∧ instant.seconds < 253402300800 ∧
      instant.nanoseconds < 1000000000 := by
  have first : CivilDate.dayNumber ⟨0, 1, 1⟩ = -719528 := by
    rw [CivilDate.dayNumber_newYear, CivilDate.daysBeforeYear_eq]
    rfl
  have beyond : CivilDate.dayNumber ⟨10000, 1, 1⟩ = 2932897 := by
    rw [CivilDate.dayNumber_newYear, CivilDate.daysBeforeYear_eq]
    rfl
  constructor
  · rintro ⟨since, before, noLeap⟩
    omega
  · rintro ⟨since, before, noLeap⟩
    exact ⟨by omega, by omega, noLeap⟩

/-- The date of an ordinary instant has a year of four digits. -/
theorem IsOrdinary.year (ordinary : instant.IsOrdinary) :
    0 ≤ (CivilDate.ofDays (instant.seconds / 86400)).year ∧
      (CivilDate.ofDays (instant.seconds / 86400)).year ≤ 9999 := by
  obtain ⟨real, number⟩ := CivilDate.isReal_and_dayNumber_ofDays (instant.seconds / 86400)
  have first : CivilDate.IsReal ⟨0, 1, 1⟩ := ⟨by decide, by decide, by decide, by decide⟩
  have beyond : CivilDate.IsReal ⟨10000, 1, 1⟩ := ⟨by decide, by decide, by decide, by decide⟩
  have since := ordinary.not_before
  have before := ordinary.lt_end
  constructor
  · by_contra negative
    have early := (CivilDate.dayNumber_lt_dayNumber_iff real first).2
      (.inl (by simpa using negative))
    omega
  · by_contra large
    have notLess : ¬(CivilDate.ofDays (instant.seconds / 86400)).Precedes ⟨10000, 1, 1⟩ := by
      have month := real.one_le_month
      have day := real.one_le_day
      simp only [CivilDate.Precedes]
      omega
    have late := mt (CivilDate.dayNumber_lt_dayNumber_iff real beyond).1 notLess
    omega

/-- An ordinary instant is written field by field. -/
theorem IsOrdinary.toList_w3cdtf (ordinary : instant.IsOrdinary) :
    instant.w3cdtf.toList
      = let stamp := Timestamp.ofSeconds instant.seconds
        Text.padded 4 stamp.date.year.toNat ++ '-' :: (Text.padded 2 stamp.date.month
          ++ '-' :: (Text.padded 2 stamp.date.day ++ 'T' :: (Text.padded 2 stamp.hour
            ++ ':' :: (Text.padded 2 stamp.minute
              ++ ':' :: (Text.padded 2 stamp.second ++ ['Z']))))) := by
  have noLeap : instant.nanoseconds / 1000000000 = 0 :=
    Nat.div_eq_of_lt ordinary.nanoseconds_lt
  rw [w3cdtf, String.toList_ofList, CivilDate.text, CivilDate.yearText, if_pos ordinary.year,
    noLeap]
  simp [Timestamp.ofSeconds]

/-- The fields of a real timestamp fit into their widths. -/
theorem IsOrdinary.fits (ordinary : instant.IsOrdinary) :
    let stamp := Timestamp.ofSeconds instant.seconds
    stamp.date.year.toNat < 10 ^ 4 ∧ stamp.date.month < 10 ^ 2 ∧ stamp.date.day < 10 ^ 2 ∧
      stamp.hour < 10 ^ 2 ∧ stamp.minute < 10 ^ 2 ∧ stamp.second < 10 ^ 2 := by
  intro stamp
  have real : stamp.IsReal := (Timestamp.isReal_and_secondNumber_ofSeconds _).1
  have year : stamp.date.year ≤ 9999 := ordinary.year.2
  have month := real.date.month_le
  have day := real.date.day_le
  have days : CivilDate.daysInMonth stamp.date.year stamp.date.month ≤ 31 := by
    unfold CivilDate.daysInMonth
    repeat' split
    all_goals decide
  have hour := real.hour_lt
  have minute := real.minute_lt
  have second := real.second_lt
  omega

/-- An ordinary instant is written with 20 characters, which its timestamp is read from. -/
theorem IsOrdinary.ofText?_w3cdtf (ordinary : instant.IsOrdinary) :
    instant.w3cdtf.length = 20 ∧
      Timestamp.ofText? instant.w3cdtf = some (.ofSeconds instant.seconds) := by
  have written := ordinary.toList_w3cdtf
  obtain ⟨year, month, day, hour, minute, second⟩ := ordinary.fits
  obtain ⟨y₁, y₂, y₃, y₄, years, isYear⟩ := Text.exists_four_digits year
  obtain ⟨m₁, m₂, months, isMonth⟩ := Text.exists_two_digits month
  obtain ⟨d₁, d₂, days, isDay⟩ := Text.exists_two_digits day
  obtain ⟨h₁, h₂, hours, isHour⟩ := Text.exists_two_digits hour
  obtain ⟨n₁, n₂, minutes, isMinute⟩ := Text.exists_two_digits minute
  obtain ⟨s₁, s₂, seconds, isSecond⟩ := Text.exists_two_digits second
  dsimp only at written
  rw [years, months, days, hours, minutes, seconds] at written
  constructor
  · rw [← String.length_toList, written]
    rfl
  · have notNegative : 0 ≤ (Timestamp.ofSeconds instant.seconds).date.year := ordinary.year.1
    simp [Timestamp.ofText?, written, isYear, isMonth, isDay, isHour, isMinute, isSecond,
      Int.toNat_of_nonneg notNegative]

/-- Later seconds are written as later texts. -/
theorem IsOrdinary.w3cdtf_lt_w3cdtf {later : Instant} (ordinary : instant.IsOrdinary)
    (ordinary' : later.IsOrdinary) (before : instant.seconds < later.seconds) :
    instant.w3cdtf < later.w3cdtf := by
  obtain ⟨year, month, day, hour, minute, second⟩ := ordinary'.fits
  have notNegative : 0 ≤ (Timestamp.ofSeconds instant.seconds).date.year := ordinary.year.1
  have order := Timestamp.precedes_ofSeconds before
  rw [String.lt_iff, ordinary.toList_w3cdtf, ordinary'.toList_w3cdtf]
  -- Field by field, the mark behind a field is the same in both.
  refine Text.padded_append_lt (by decide) year (order.imp (fun years => by omega)
    (And.imp (congrArg Int.toNat) fun order => List.cons_lt_cons_self.2 ?_))
  refine Text.padded_append_lt (by decide) month (order.imp_right
    (And.imp_right fun order => List.cons_lt_cons_self.2 ?_))
  refine Text.padded_append_lt (by decide) day (order.imp_right
    (And.imp_right fun order => List.cons_lt_cons_self.2 ?_))
  refine Text.padded_append_lt (by decide) hour (order.imp_right
    (And.imp_right fun order => List.cons_lt_cons_self.2 ?_))
  refine Text.padded_append_lt (by decide) minute (order.imp_right
    (And.imp_right fun order => List.cons_lt_cons_self.2 ?_))
  exact Text.padded_append_lt (by decide) second (.inl order)

/-- In the years 0 to 9999 an instant is written with 20 characters of the shape
`dddd-dd-ddTdd:dd:ddZ`, as a date of the calendar and a time of day that are exactly its seconds
away from the start of 1970. So the text tells the seconds, and texts are in the order of the
instants. -/
theorem w3cdtf_tells_seconds (ordinary : instant.IsOrdinary) :
    instant.w3cdtf.length = 20 ∧
      (∃ stamp, Timestamp.ofText? instant.w3cdtf = some stamp ∧ stamp.IsReal ∧
        stamp.secondNumber = instant.seconds) ∧
      ∀ other : Instant, other.IsOrdinary →
        (instant.w3cdtf = other.w3cdtf ↔ instant.seconds = other.seconds) ∧
        (instant.w3cdtf < other.w3cdtf ↔ instant.seconds < other.seconds) := by
  obtain ⟨length, read⟩ := ordinary.ofText?_w3cdtf
  obtain ⟨real, number⟩ := Timestamp.isReal_and_secondNumber_ofSeconds instant.seconds
  refine ⟨length, ⟨_, read, real, number⟩, fun other ordinary' => ?_⟩
  rcases lt_trichotomy instant.seconds other.seconds with before | same | after
  · have less := ordinary.w3cdtf_lt_w3cdtf ordinary' before
    exact ⟨iff_of_false (String.ne_of_lt less) before.ne, iff_of_true less before⟩
  · have equal : instant.w3cdtf = other.w3cdtf := by
      rw [← String.toList_inj, ordinary.toList_w3cdtf, ordinary'.toList_w3cdtf, same]
    refine ⟨iff_of_true equal same, iff_of_false ?_ same.not_lt⟩
    rw [equal]
    exact String.lt_irrefl _
  · have greater := ordinary'.w3cdtf_lt_w3cdtf ordinary after
    exact ⟨iff_of_false (String.ne_of_lt greater).symm after.ne',
      iff_of_false (String.lt_asymm greater) after.not_gt⟩

/-- The last second of a leap day long before 1970. -/
def leapDayEnd : Instant where
  seconds := -11670912001
  nanoseconds := 999999999

/-- The end of a leap day is written with its date, and before the start of the next month. -/
theorem leapDayEnd_tells_seconds :
    leapDayEnd.IsOrdinary ∧ Instant.IsOrdinary ⟨-11670912000, 0⟩ ∧
      leapDayEnd.w3cdtf = "1600-02-29T23:59:59Z" ∧
      (∃ stamp, Timestamp.ofText? leapDayEnd.w3cdtf = some stamp ∧ stamp.IsReal ∧
        stamp.secondNumber = -11670912001) ∧
      leapDayEnd.w3cdtf < w3cdtf ⟨-11670912000, 0⟩ := by
  have ordinary : leapDayEnd.IsOrdinary := isOrdinary_iff.2 (by decide)
  have next : Instant.IsOrdinary ⟨-11670912000, 0⟩ := isOrdinary_iff.2 (by decide)
  obtain ⟨-, named, ordered⟩ := w3cdtf_tells_seconds ordinary
  exact ⟨ordinary, next, by decide +kernel, named, (ordered _ next).2.2 (by decide)⟩

end Instant

end WordPackage
