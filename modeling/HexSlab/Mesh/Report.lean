import HexSlab.Mesh.Answers
import HexSlab.Numeral.Layout
import HexSlab.Text.Column

/-!
# The parameters of a mesh as text

A summary of intervals, extent, counts and rotation, one item to a line. Where a word
does not hold a count there is no summary.
-/

namespace HexSlab.Mesh

open Numeral Text

/-- The line of one axis: how its coordinates arise and their range. -/
def describeAxis (name : String) (intervals : Nat) (scale offset : Float) : String :=
  let last := offset + Float.ofNat intervals * scale
  "\t" ++ name ++ " = " ++ plain scale ++ " * (0.." ++ toString intervals ++ ") + " ++
    plain offset ++ "\tRange: " ++ plain offset ++ " <= " ++ name ++ " <= " ++ plain last ++ "\n"

/-- A row of the rotation matrix in columns. -/
def describeRow (row : Vec3 Float) : String :=
  let column := fun value : Float => "\t" ++ alignRight 14 (scientific 6 value)
  column row.x ++ column row.y ++ column row.z ++ "\n"

/-- The rotation matrix, if there is one. -/
def describeRotation : Option (Mat3 Float) → String
  | none => ""
  | some rotation =>
    "\tRotation Matrix:\n" ++ describeRow rotation.rowX ++ describeRow rotation.rowY ++
      describeRow rotation.rowZ

/-- A line with a count. -/
def describeCount (label : String) (count : Nat) : String :=
  "\t" ++ alignLeft 22 label ++ "= " ++ alignRight 9 (toString count) ++ "\n"

/-- The summary of a mesh, if words hold its counts. -/
def describe? (mesh : Mesh Float) : Option String := do
  let nodes ← mesh.nodeCount?
  let elements ← mesh.elementCount?
  return "Mesh Parameters:\n" ++
    "\tIntervals: " ++ toString mesh.numX ++ " by " ++ toString mesh.numY ++ " by " ++
      toString mesh.numZ ++ "\n" ++
    describeAxis "X" mesh.numX mesh.scale.x mesh.offset.x ++
    describeAxis "Y" mesh.numY mesh.scale.y mesh.offset.y ++
    describeAxis "Z" mesh.numZ mesh.scale.z mesh.offset.z ++
    "\n" ++
    describeCount "Node Count (total)" nodes ++
    describeCount "Element Count (total)" elements ++
    describeCount "Block Count" mesh.blockCount ++
    describeRotation mesh.rotation

end HexSlab.Mesh
