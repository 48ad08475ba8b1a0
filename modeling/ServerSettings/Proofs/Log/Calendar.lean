import ServerSettings.Log.Record

/-!
# Times with a date

A time has a text if its date is one of the years 1 to 9999, and no text otherwise. A record of such a time has no line.

* `year_dateOf`: the days of those years;
* `text_ok_iff`: the times that have a text;
* `format_of_undated`: what comes of a record without a date.
-/

namespace ServerSettings

namespace Timestamp

/-- Years are counted from March and in eras of 400, of which this is where one begins and ends. -/
theorem year_of_day {day : Nat} (small : day < 146097) :
    let year := (day - day / 1460 + day / 36524 - day / 146096) / 365
    let dayOfYear := day - (365 * year + year / 4 - year / 100)
    let late := if 10 ≤ (5 * dayOfYear + 2) / 153 then 1 else 0
    year ≤ 399 ∧ (1 ≤ year + late ↔ 306 ≤ day) ∧ (year + late ≤ 399 ↔ day ≤ 146036) := by
  intro year dayOfYear late
  have shape : year ≤ 399 := by omega
  refine ⟨shape, ?_, ?_⟩
  · simp only [late]
    split <;> omega
  · simp only [late]
    split <;> omega

/-- The years 1 to 9999 begin 719162 days before 1970 and end with day 2932896 after its first. -/
theorem year_dateOf (days : Int) :
    (1 ≤ (dateOf days).year ↔ -719162 ≤ days) ∧ ((dateOf days).year ≤ 9999 ↔ days ≤ 2932896) := by
  have whole := Int.mul_fdiv_add_fmod (days + 719468) 146097
  have low := Int.fmod_nonneg_of_pos (days + 719468) (b := 146097) (by decide)
  have high := Int.fmod_lt_of_pos (days + 719468) (b := 146097) (by decide)
  obtain ⟨day, same⟩ := Int.eq_ofNat_of_zero_le low
  have position : ((days + 719468).fmod 146097).toNat = day := by rw [same]; rfl
  rw [same] at whole high
  obtain ⟨shape, first, last⟩ := @year_of_day day (by omega)
  rw [dateOf]
  simp only [position] at *
  generalize (days + 719468).fdiv 146097 = era at *
  generalize (day - day / 1460 + day / 36524 - day / 146096) / 365 = year at *
  generalize (5 * (day - (365 * year + year / 4 - year / 100)) + 2) / 153 = month at *
  split at first
  · next late =>
    rw [if_pos late] at last ⊢
    omega
  · next early =>
    rw [if_neg early] at last ⊢
    omega

theorem ofMicros_ok_iff (total : Int) : (∃ stamp, ofMicros total = .ok stamp) ↔
    -62135596800 ≤ total.fdiv 1000000 ∧ total.fdiv 1000000 < 253402300800 := by
  generalize seconds : total.fdiv 1000000 = s
  have day := Int.mul_fdiv_add_fmod s 86400
  have low := Int.fmod_nonneg_of_pos s (b := 86400) (by decide)
  have high := Int.fmod_lt_of_pos s (b := 86400) (by decide)
  obtain ⟨first, last⟩ := year_dateOf (s.fdiv 86400)
  have clock : Int.pow 2 63 = 9223372036854775808 := rfl
  have calendar : Int.pow 2 31 = 2147483648 := rfl
  constructor
  · rintro ⟨stamp, text⟩
    rw [ofMicros] at text
    simp only [seconds, clock, calendar] at text
    split at text
    · cases text
    split at text
    · cases text
    split at text
    · cases text
    · omega
  · rintro ⟨lower, upper⟩
    rw [ofMicros]
    simp only [seconds, clock, calendar]
    rw [if_neg (by omega), if_neg (by omega), if_neg (by omega)]
    exact ⟨_, rfl⟩

/-- The time is one of the years 1 to 9999: they begin and end at these seconds. -/
def HasDate (x : Binary64) : Prop :=
  ∃ total, micros x = .ok total ∧ -62135596800 ≤ total.fdiv 1000000 ∧ total.fdiv 1000000 < 253402300800

theorem text_ok_iff (x : Binary64) : (∃ stamp, text x = .ok stamp) ↔ HasDate x := by
  have run : text x = (micros x).bind ofMicros := rfl
  rw [run, HasDate]
  cases micros x with
  | error fault =>
    constructor
    · rintro ⟨_, failed⟩
      cases failed
    · rintro ⟨_, failed, _⟩
      cases failed
  | ok total =>
    refine (ofMicros_ok_iff total).trans ⟨fun bounds => ⟨total, rfl, bounds⟩, ?_⟩
    rintro ⟨_, same, bounds⟩
    cases same
    exact bounds

end Timestamp

/-- The fault of the time is what comes of a record without a date, whatever else is wrong with it. -/
theorem Log.Record.format_of_undated (redact : Redactor) {r : Record} (undated : ¬Timestamp.HasDate r.created) :
    ∃ fault, r.format redact = .error (.time fault) := by
  cases dated : Timestamp.text r.created with
  | ok stamp => exact absurd ((Timestamp.text_ok_iff r.created).mp ⟨stamp, dated⟩) undated
  | error fault =>
    refine ⟨fault, ?_⟩
    rw [format, event, dated]
    rfl

end ServerSettings
