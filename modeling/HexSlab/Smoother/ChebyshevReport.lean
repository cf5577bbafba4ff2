import HexSlab.Smoother.Chebyshev

/-!
# A Chebyshev smoother as text

The settings of a smoother, what it was computed to, and the statistics of its
phases.
-/

namespace HexSlab.Chebyshev

open Numeral

variable {n : Nat}

/-- The line above and below a report. -/
def rule : String := String.ofList (List.replicate 80 '=') ++ "\n"

/-- A line with a label and a text. -/
def describeLine (label text : String) : String := Text.alignLeft 26 label ++ "= " ++ text ++ "\n"

/-- The report on a smoother. -/
def describe (smoother : Chebyshev Float n) : String :=
  let params := smoother.params
  let condition :=
    match smoother.condition with
    | some estimate => exponential estimate
    | none => "(not computed)"
  let interval :=
    match smoother.bounds? with
    | some bounds =>
      describeLine "Damped interval"
        ("[" ++ exponential bounds.alpha ++ ", " ++ exponential bounds.beta ++ "]")
    | none => ""
  rule ++ "Chebyshev polynomial preconditioner\n" ++
    describeLine "Degree of polynomial" (toString params.degree) ++
    describeLine "Condition number estimate" condition ++
    describeLine "Global number of rows" (toString smoother.sizes.globalRows) ++
    describeLine "Eigenvalue ratio" (exponential params.ratio) ++
    describeLine "Minimum eigenvalue" (exponential params.lambdaMin) ++
    describeLine "Maximum eigenvalue" (exponential params.lambdaMax) ++
    describeLine "Minimum diagonal value" (exponential params.minDiagonal) ++
    describeLine "Zero starting solution" (toString params.zeroStart) ++
    interval ++ "\n" ++ smoother.stats.describe ++ rule

end HexSlab.Chebyshev
