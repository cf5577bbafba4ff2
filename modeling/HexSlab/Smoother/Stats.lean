import HexSlab.Numeral.Layout
import HexSlab.Text.Column

/-!
# Statistics of the phases

How often each phase of a preconditioner succeeded, and an estimate of its
floating point operations. The time of a call is the business of whoever holds
a clock; the phases themselves record none.
-/

namespace HexSlab

/-- A span of time. -/
structure Elapsed where
  /-- Whole seconds. -/
  seconds : Nat
  /-- Nanoseconds beyond them. -/
  nanoseconds : Nat
  deriving DecidableEq

/-- No time at all. -/
def Elapsed.zero : Elapsed := ⟨0, 0⟩

/-- The number of nanoseconds in a second. -/
def nanosecondsPerSecond : Nat := 1000000000

/-- A span of time in seconds. Nanoseconds that make up whole seconds are counted
with those. -/
def Elapsed.inSeconds (elapsed : Elapsed) : Float :=
  let whole := elapsed.seconds + elapsed.nanoseconds / nanosecondsPerSecond
  let rest := elapsed.nanoseconds % nanosecondsPerSecond
  Float.ofNat whole + Float.ofNat rest / 1e9

/-- Statistics of one phase. -/
structure PhaseTimer where
  /-- Number of successful calls. -/
  calls : Nat
  /-- Time spent in them. -/
  elapsed : Elapsed
  /-- Estimated number of floating point operations in them. -/
  flops : Float

namespace PhaseTimer

/-- A phase that was not called yet. -/
def zero : PhaseTimer := ⟨0, .zero, 0.0⟩

/-- Count a successful call with a number of operations. -/
def record (timer : PhaseTimer) (flops : Float) : PhaseTimer :=
  { timer with calls := timer.calls + 1, flops := timer.flops + flops }

/-- A call is counted. -/
@[simp] theorem calls_record (timer : PhaseTimer) (flops : Float) :
    (timer.record flops).calls = timer.calls + 1 := rfl

/-- Millions of operations per second, or zero if no time has passed. -/
def megaflopRate (timer : PhaseTimer) : Float :=
  let seconds := timer.elapsed.inSeconds
  if 0.0 < seconds then timer.flops / seconds * 1e-6 else 0.0

end PhaseTimer

/-- Statistics of all phases. -/
structure PhaseStats where
  /-- Preparing for the structure of the operator. -/
  prepare : PhaseTimer
  /-- Computing from the values of the operator. -/
  compute : PhaseTimer
  /-- Applying the preconditioner. -/
  apply : PhaseTimer

namespace PhaseStats

open Numeral Text

/-- No phase was called yet. -/
def zero : PhaseStats := ⟨.zero, .zero, .zero⟩

/-- The heading of the table. -/
def heading : String :=
  alignLeft 14 "Phase" ++ alignRight 8 "# calls" ++ alignRight 14 "Total time (s)" ++
    alignRight 16 "Total MFlops" ++ alignRight 12 "MFlops/s" ++ "\n"

/-- The row of one phase. -/
def describeTimer (name : String) (timer : PhaseTimer) : String :=
  alignLeft 14 name ++ alignRight 8 (toString timer.calls) ++
    alignRight 14 (fixed 6 timer.elapsed.inSeconds) ++
    alignRight 16 (fixed 6 (timer.flops * 1e-6)) ++
    alignRight 12 (fixed 3 timer.megaflopRate) ++ "\n"

/-- The table of all phases. -/
def describe (stats : PhaseStats) : String :=
  heading ++ describeTimer "Initialize()" stats.prepare ++
    describeTimer "Compute()" stats.compute ++ describeTimer "ApplyInverse()" stats.apply

end PhaseStats

end HexSlab
