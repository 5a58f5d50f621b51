import CompileFail.Duration
import CompileFail.Proofs.Numerals

/-! The line that tells how long a run took. From the line the hours, minutes, seconds and hundredths can be
told, and together they are the exact duration, rounded to hundredths of a second with a half rounded up. The
milliseconds that come up on the way lose nothing, since half of a hundredth is a whole number of them. For
every duration that can be measured, all numbers on the way are words of 128 bits. -/

namespace CompileFail

/-- A time of hours, minutes, seconds and hundredths of a second. -/
structure Clock where
  hours : Nat
  minutes : Nat
  seconds : Nat
  centis : Nat
deriving DecidableEq, Repr

namespace Clock

/-- The time in hundredths of a second. -/
def total (clock : Clock) : Nat :=
  ((clock.hours * 60 + clock.minutes) * 60 + clock.seconds) * 100 + clock.centis

def line (clock : Clock) : Text :=
  ("Time Elapsed " : Text) ++ Text.twoDigits clock.hours ++ [':'] ++ Text.twoDigits clock.minutes ++ [':'] ++
    Text.twoDigits clock.seconds ++ ['.'] ++ Text.twoDigits clock.centis

/-- A line tells a time: the hours in two digits or more, and all else in two digits. -/
inductive Told : Text → Clock → Prop
  | intro {hours minutes seconds centis : Text} {clock : Clock}
      (hhours : Text.toNat? hours = some clock.hours ∧ 2 ≤ hours.length)
      (hminutes : Text.toNat? minutes = some clock.minutes ∧ minutes.length = 2)
      (hseconds : Text.toNat? seconds = some clock.seconds ∧ seconds.length = 2)
      (hcentis : Text.toNat? centis = some clock.centis ∧ centis.length = 2) :
      Told (("Time Elapsed " : Text) ++ hours ++ [':'] ++ minutes ++ [':'] ++ seconds ++ ['.'] ++ centis) clock

variable {text : Text} {clock clock' : Clock}

theorem told_line (hminutes : clock.minutes < 100) (hseconds : clock.seconds < 100)
    (hcentis : clock.centis < 100) : Told clock.line clock :=
  .intro ⟨Text.toNat?_twoDigits _, Text.two_le_length_twoDigits _⟩
    ⟨Text.toNat?_twoDigits _, Text.length_twoDigits hminutes⟩
    ⟨Text.toNat?_twoDigits _, Text.length_twoDigits hseconds⟩
    ⟨Text.toNat?_twoDigits _, Text.length_twoDigits hcentis⟩

/-- The fields behind the hours have their places at the end of the line. -/
theorem Told.unique (h : Told text clock) (h' : Told text clock') : clock = clock' := by
  obtain @⟨hours, minutes, seconds, centis, clock, hhours, hminutes, hseconds, hcentis⟩ := h
  generalize htext : ("Time Elapsed " : Text) ++ hours ++ [':'] ++ minutes ++ [':'] ++ seconds ++ ['.'] ++
    centis = text at h'
  obtain @⟨hours', minutes', seconds', centis', clock', hhours', hminutes', hseconds', hcentis'⟩ := h'
  obtain ⟨hfront, rfl⟩ := List.append_inj' htext (hcentis.2.trans hcentis'.2.symm)
  have hbefore := List.append_cancel_right hfront
  obtain ⟨hfront', rfl⟩ := List.append_inj' hbefore (hseconds.2.trans hseconds'.2.symm)
  have hbefore' := List.append_cancel_right hfront'
  obtain ⟨hfront'', rfl⟩ := List.append_inj' hbefore' (hminutes.2.trans hminutes'.2.symm)
  obtain rfl := List.append_cancel_left (List.append_cancel_right hfront'')
  have hsame : some clock.hours = some clock'.hours ∧ some clock.minutes = some clock'.minutes ∧
      some clock.seconds = some clock'.seconds ∧ some clock.centis = some clock'.centis :=
    ⟨hhours.1.symm.trans hhours'.1, hminutes.1.symm.trans hminutes'.1, hseconds.1.symm.trans hseconds'.1,
      hcentis.1.symm.trans hcentis'.1⟩
  cases clock
  cases clock'
  simp_all

end Clock

namespace Duration

/-- The time that is printed for a duration. -/
def clock (d : Duration) : Clock :=
  ⟨d.centis / 360000, d.centis / 6000 % 60, d.centis / 100 % 60, d.centis % 100⟩

/-- The line for a duration, if all numbers that come up on the way are words of so many bits. -/
def elapsedIn? (bits seconds nanos : Nat) : Option Text := do
  let millis ← fit? bits ((← fit? bits (seconds * 1000)) + nanos / 1000000)
  let centis ← fit? bits ((← fit? bits (millis + 5)) / 10)
  let hours ← fit? bits (centis / 360000)
  let minutes ← fit? bits (centis / 6000)
  let seconds ← fit? bits (centis / 100)
  return Clock.line ⟨hours, minutes % 60, seconds % 60, centis % 100⟩

theorem elapsed_eq (d : Duration) : d.elapsed = d.clock.line := rfl

theorem total_clock (d : Duration) : d.clock.total = d.centis := by
  simp only [clock, Clock.total]
  omega

/-- Half of a hundredth is five milliseconds, so rounding down to milliseconds before does not matter. -/
theorem centis_eq (d : Duration) : d.centis = (d.nanos + 5000000) / 10000000 := by
  rw [centis]
  omega

theorem told_clock (d : Duration) : Clock.Told d.elapsed d.clock := by
  rw [elapsed_eq]
  apply Clock.told_line
  · have hminutes : d.centis / 6000 % 60 < 60 := Nat.mod_lt _ (by decide)
    exact hminutes.trans (by decide)
  · have hseconds : d.centis / 100 % 60 < 60 := Nat.mod_lt _ (by decide)
    exact hseconds.trans (by decide)
  · exact Nat.mod_lt _ (by decide)

theorem centis_mono {d d' : Duration} (h : d.nanos ≤ d'.nanos) : d.centis ≤ d'.centis := by
  rw [centis_eq, centis_eq]
  exact Nat.div_le_div_right (Nat.add_le_add_right h 5000000)

theorem elapsedIn?_eq {bits seconds nanos : Nat} (h : seconds * 1000 + nanos / 1000000 + 5 < 2 ^ bits) :
    elapsedIn? bits seconds nanos = some (ofSecondsNanos seconds nanos).elapsed := by
  have hmillis : (ofSecondsNanos seconds nanos).nanos / 1000000 = seconds * 1000 + nanos / 1000000 := by
    simp only [ofSecondsNanos, nanosPerSecond]
    omega
  have hcentis : (ofSecondsNanos seconds nanos).centis = (seconds * 1000 + nanos / 1000000 + 5) / 10 := by
    rw [centis, hmillis]
  -- Nothing grows behind the sum that is rounded, so all later numbers fit if that does.
  generalize hshifted : seconds * 1000 + nanos / 1000000 + 5 = shifted at h hcentis
  have hquotient : ∀ n, fit? bits (shifted / 10 / n) = some (shifted / 10 / n) := by
    intro n
    apply fit?_of_lt
    exact ((Nat.div_le_self _ n).trans (Nat.div_le_self _ 10)).trans_lt h
  rw [elapsed_eq, clock, hcentis, elapsedIn?, fit?_of_lt (by omega)]
  simp only [Option.bind_eq_bind, Option.bind_some]
  rw [fit?_of_lt (by omega), Option.bind_some, hshifted, fit?_of_lt h, Option.bind_some,
    fit?_of_lt ((Nat.div_le_self _ 10).trans_lt h), Option.bind_some, hquotient, Option.bind_some, hquotient,
    Option.bind_some, hquotient, Option.bind_some]
  rfl

/-- The line for a duration tells one time. This is the duration rounded to hundredths of a second with a half
rounded up, all numbers on the way are words of 128 bits, and of two durations the longer one is not told as the
shorter time. -/
theorem elapsed_rounds_half_up (seconds nanos : Nat) (hseconds : seconds < 2 ^ 64) (hnanos : nanos < 10 ^ 9) :
    let d := ofSecondsNanos seconds nanos
    (∃! clock, Clock.Told d.elapsed clock) ∧
    (∀ clock, Clock.Told d.elapsed clock →
      clock.minutes < 60 ∧ clock.seconds < 60 ∧ clock.centis < 100 ∧
      clock.total = (seconds * 10 ^ 9 + nanos + 5000000) / 10000000 ∧
      ∀ (d' : Duration) (clock' : Clock), d.nanos ≤ d'.nanos → Clock.Told d'.elapsed clock' →
        clock.total ≤ clock'.total) ∧
    elapsedIn? 128 seconds nanos = some d.elapsed := by
  intro d
  refine ⟨⟨d.clock, told_clock d, fun clock h => h.unique (told_clock d)⟩, fun clock h => ?_,
    elapsedIn?_eq (by omega)⟩
  obtain rfl := h.unique (told_clock d)
  refine ⟨Nat.mod_lt _ (by decide), Nat.mod_lt _ (by decide), Nat.mod_lt _ (by decide), ?_, ?_⟩
  · rw [total_clock, centis_eq]
    rfl
  · intro d' clock' hle h'
    obtain rfl := h'.unique (told_clock d')
    rw [total_clock, total_clock]
    exact centis_mono hle

/-- The longest duration that can be measured. -/
theorem elapsed_rounds_half_up_longest :
    let seconds := 2 ^ 64 - 1
    let nanos := 999999999
    seconds < 2 ^ 64 ∧ nanos < 10 ^ 9 ∧
      elapsedIn? 128 seconds nanos = some "Time Elapsed 5124095576030431:00:16.00".toList ∧
      elapsedIn? 64 seconds nanos = none := by
  intro seconds nanos
  obtain ⟨-, -, hline⟩ := elapsed_rounds_half_up seconds nanos (by decide) (by decide)
  exact ⟨by decide, by decide, hline.trans (by decide), by decide⟩

end Duration

end CompileFail
