import HexSlab.Journal
import HexSlab.Mesh.Report
import HexSlab.Numeral.Token
import HexSlab.Text.Split

/-!
# Meshes from a line of text

A mesh can be configured by a line such as `10x10x40|shell:zZ|scale:2,1,1`: the
intervals, and then options that call the setters in order. Groups are separated
by a bar or a plus sign. Unknown options are skipped with a warning; an option
with wrong values ends the reading. Warnings given before that point stand. The
summary is a message like others, also where it cannot be written: it is not part
of the reading, as `HexSlab.Journal` explains.
-/

namespace HexSlab

/-- What reading a line leads to. -/
structure MeshReading where
  /-- The mesh, or the first error. -/
  mesh : Except MeshError (Mesh Float)
  /-- The messages on the way. -/
  journal : Journal

namespace MeshReading

/-- A mesh without messages. -/
def done (mesh : Mesh Float) : MeshReading := ⟨.ok mesh, []⟩

/-- An error without messages. -/
def failed (error : MeshError) : MeshReading := ⟨.error error, []⟩

/-- A result without messages. -/
def ofExcept (mesh : Except MeshError (Mesh Float)) : MeshReading := ⟨mesh, []⟩

/-- Continue with a mesh that was read, or stop at the error. -/
def andThen (reading : MeshReading) (next : Mesh Float → MeshReading) : MeshReading :=
  match reading.mesh with
  | .error _ => reading
  | .ok mesh =>
    let later := next mesh
    ⟨later.mesh, reading.journal ++ later.journal⟩

end MeshReading

/-- The options of a line. -/
inductive MeshOption where
  /-- Shells on the listed faces. -/
  | shell
  /-- Distance of neighbouring nodes. -/
  | scale
  /-- Place of the first node. -/
  | offset
  /-- The box to fill. -/
  | bbox
  /-- Intervals along Z of each process. -/
  | zdecomp
  /-- Rotations in turn. -/
  | rotate
  /-- A summary of the mesh. -/
  | summary
  /-- The list of options. -/
  | usage
  deriving DecidableEq

namespace MeshOption

/-- The word for an option. -/
def word : MeshOption → String
  | .shell => "shell"
  | .scale => "scale"
  | .offset => "offset"
  | .bbox => "bbox"
  | .zdecomp => "zdecomp"
  | .rotate => "rotate"
  | .summary => "show"
  | .usage => "help"

/-- All options. -/
def all : List MeshOption :=
  [.shell, .scale, .offset, .bbox, .zdecomp, .rotate, .summary, .usage]

/-- The option with a given word. -/
def ofWord? (word : List Char) : Option MeshOption :=
  all.find? fun option => option.word.toList == word

end MeshOption

namespace Mesh

open Numeral Text

/-- The list of options that `help` asks for. -/
def usageText : String := "\n".intercalate
  ["Usage: IxJxK|option:param,param,...|option:param,...",
    "",
    "  Creates a mesh of I x J x K hexes, split over processes along the K direction.",
    "  Options may be separated by '|' or '+' and are applied in order.",
    "",
    "Valid options:",
    "  shell:xXyYzZ          add a shell block on each listed face",
    "                        (lowercase: minimum side, uppercase: maximum side)",
    "  scale:sx,sy,sz        node spacing in each direction",
    "  offset:ox,oy,oz       position of the first node",
    "  bbox:x0,y0,z0,x1,y1,z1",
    "                        fit the mesh to the given bounding box",
    "  zdecomp:n1,n2,...     number of K intervals on each process",
    "  rotate:axis,angle,... rotate by angle degrees about axis (x, y or z),",
    "                        multiple rotations are applied in order",
    "  show                  log the mesh parameters",
    "  help                  log this list"]

/-- The groups of a line, without blank ones and blank margins. -/
def groups (line : List Char) : List (List Char) := fields (fun c => c == '|' || c == '+') line

/-- The values of an option: the parts between commas that are not blank. -/
def valueTokens (argument : List Char) : List (List Char) := fields (· == ',') argument

/-- Three positive interval counts with an `x` between them. -/
def readIntervals (group : List Char) : Except MeshError (Nat × Nat × Nat) :=
  let counts := (split (fun c => c == 'x' || c == 'X') group).mapM fun token => count? (trim token)
  match counts with
  | some [numX, numY, numZ] =>
    if 0 < numX ∧ 0 < numY ∧ 0 < numZ then .ok (numX, numY, numZ)
    else .error (.invalidIntervals (String.ofList group))
  | _ => .error (.invalidIntervals (String.ofList group))

/-- One number among the values of an option. -/
def readNumber (option : MeshOption) (token : List Char) : Except MeshError Float :=
  match number? token with
  | some value => .ok value
  | none => .error (.invalidNumber option.word (String.ofList token))

/-- One count among the values of an option. -/
def readCount (option : MeshOption) (token : List Char) : Except MeshError Nat :=
  match count? token with
  | some value => .ok value
  | none => .error (.invalidNumber option.word (String.ofList token))

/-- Three numbers. -/
def readVector (option : MeshOption) (argument : List Char) : Except MeshError (Vec3 Float) :=
  match valueTokens argument with
  | [a, b, c] => do return ⟨← readNumber option a, ← readNumber option b, ← readNumber option c⟩
  | other => .error (.wrongValueCount option.word (.exactly 3) other.length)

/-- Six numbers: two opposite corners of a box. -/
def readCorners (option : MeshOption) (argument : List Char) :
    Except MeshError (Vec3 Float × Vec3 Float) :=
  match valueTokens argument with
  | [a, b, c, d, e, f] => do
    let low : Vec3 Float := ⟨← readNumber option a, ← readNumber option b, ← readNumber option c⟩
    let high : Vec3 Float := ⟨← readNumber option d, ← readNumber option e, ← readNumber option f⟩
    return (low, high)
  | other => .error (.wrongValueCount option.word (.exactly 6) other.length)

/-- One count for each process. -/
def readCounts (option : MeshOption) (processes : Nat) (argument : List Char) :
    Except MeshError (List Nat) :=
  let tokens := valueTokens argument
  if tokens.length = processes then tokens.mapM (readCount option)
  else .error (.wrongValueCount option.word (.exactly processes) tokens.length)

/-- Add shells on the faces with the given letters; other letters are skipped. -/
def addLetters (mesh : Mesh Float) : List Char → MeshReading
  | [] => .done mesh
  | c :: rest =>
    match Face.ofLetter? c with
    | some face => addLetters (mesh.addShells face) rest
    | none =>
      let later := addLetters mesh rest
      ⟨later.mesh, Journal.warning ("Unrecognized shell location '" ++ String.ofList [c] ++
        "', valid options are 'xXyYzZ'") ++ later.journal⟩

/-- Rotate by pairs of an axis and an angle; a pair with no such axis is skipped. -/
def rotateInTurn (mesh : Mesh Float) : List (List Char) → MeshReading
  | axis :: angle :: rest =>
    match readNumber .rotate angle with
    | .error error => .failed error
    | .ok degrees =>
      match (rotateNamed axis degrees).run mesh with
      | (.ok (), rotated) => rotateInTurn rotated rest
      | (.error error, left) =>
        let later := rotateInTurn left rest
        ⟨later.mesh, Journal.warning (error.message ++ ", skipping rotation") ++ later.journal⟩
  | _ => .done mesh

/-- Apply rotations given by an even number of values. -/
def applyTurns (mesh : Mesh Float) (argument : List Char) : MeshReading :=
  let tokens := valueTokens argument
  if tokens.length % 2 = 0 then mesh.rotateInTurn tokens
  else .failed (.wrongValueCount MeshOption.rotate.word .anyEven tokens.length)

/-- Apply an option to its argument. -/
def applyArgument (mesh : Mesh Float) (option : MeshOption) (argument : List Char) :
    MeshReading :=
  match option with
  | .shell => mesh.addLetters argument
  | .scale => .ofExcept ((readVector option argument).map mesh.setScale)
  | .offset => .ofExcept ((readVector option argument).map mesh.setOffset)
  | .bbox => .ofExcept ((readCorners option argument).map fun box => mesh.setBox box.1 box.2)
  | .zdecomp =>
    .ofExcept ((readCounts option mesh.layout.count argument).bind fun counts =>
      (setZSplit counts).finish mesh)
  | .rotate => mesh.applyTurns argument
  | .summary => ⟨.ok mesh, if mesh.layout.isFirst then Journal.notice mesh.describe? else []⟩
  | .usage => ⟨.ok mesh, if mesh.layout.isFirst then Journal.notice usageText else []⟩

/-- The options that stand without an argument. -/
def standsAlone (option : MeshOption) : Bool := option == .summary || option == .usage

/-- The key of a group and its argument, if it has one. -/
def keyAndArgument (group : List Char) : List Char × Option (List Char) :=
  match splitOnce ':' group with
  | some (key, argument) => (trim key, some (trim argument))
  | none => (trim group, none)

/-- Apply the option of one group. -/
def applyGroup (mesh : Mesh Float) (group : List Char) : MeshReading :=
  let (key, argument?) := keyAndArgument group
  match MeshOption.ofWord? key, argument? with
  | none, _ =>
    ⟨.ok mesh, Journal.warning ("Unrecognized mesh option '" ++ String.ofList key ++
      "', ignoring")⟩
  | some option, some argument => mesh.applyArgument option argument
  | some option, none =>
    if standsAlone option then mesh.applyArgument option []
    else .failed (.missingArgument option.word)

/-- Apply the options of all groups in order, up to the first error. -/
def applyGroups (mesh : Mesh Float) : List (List Char) → MeshReading
  | [] => .done mesh
  | group :: rest => (mesh.applyGroup group).andThen fun next => applyGroups next rest

/-- The mesh that a line describes, seen from one process. -/
def ofText (line : String) (layout : Layout) : MeshReading :=
  match groups line.toList with
  | [] => .failed (.invalidIntervals line)
  | intervals :: options =>
    match readIntervals intervals with
    | .error error => .failed error
    | .ok (numX, numY, numZ) =>
      (MeshReading.ofExcept (ofIntervals numX numY numZ layout)).andThen fun mesh =>
        mesh.applyGroups options

end Mesh

end HexSlab
