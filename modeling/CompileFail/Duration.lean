import CompileFail.Text.Basic

/-! Durations, counted in nanoseconds, and the line that tells how long a run took. -/

namespace CompileFail

structure Duration where
  nanos : Nat
deriving DecidableEq, Repr

namespace Duration

def nanosPerSecond : Nat := 1000000000

def ofSecondsNanos (seconds nanos : Nat) : Duration := ⟨seconds * nanosPerSecond + nanos⟩

/-- The duration in seconds. -/
def seconds (d : Duration) : Float :=
  (d.nanos / nanosPerSecond).toUInt64.toFloat +
    (d.nanos % nanosPerSecond).toUInt64.toFloat / nanosPerSecond.toUInt64.toFloat

/-- The duration in hundredths of a second, a half rounded up. -/
def centis (d : Duration) : Nat := (d.nanos / 1000000 + 5) / 10

/-- The elapsed time in hours, minutes, seconds and hundredths. -/
def elapsed (d : Duration) : Text :=
  ("Time Elapsed " : Text) ++ Text.twoDigits (d.centis / 360000) ++ [':'] ++
    Text.twoDigits (d.centis / 6000 % 60) ++ [':'] ++ Text.twoDigits (d.centis / 100 % 60) ++
    ['.'] ++ Text.twoDigits (d.centis % 100)

end Duration

end CompileFail
