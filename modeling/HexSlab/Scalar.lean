import HexSlab.Numeral.Length

/-!
# Scalar arithmetic

The operations every numerical algorithm of the library is written over. The
class holds operations alone and promises no law, so one definition of a
solver serves binary floating point, where it runs, and any ordered field,
where exact statements about it are made. Comparisons may fail in both
directions, as they do on a value that is not a number.
-/

namespace HexSlab

/-- The operations of a number type, with no laws attached. -/
class Scalar (R : Type) where
  /-- Zero. -/
  zero : R
  /-- One. -/
  one : R
  /-- Sum. -/
  add : R → R → R
  /-- Difference. -/
  sub : R → R → R
  /-- Product. -/
  mul : R → R → R
  /-- Quotient. -/
  div : R → R → R
  /-- Negation. -/
  neg : R → R
  /-- At most. -/
  le : R → R → Prop
  /-- Less than. -/
  lt : R → R → Prop
  /-- Equality as it is computed. -/
  beq : R → R → Bool
  /-- The order `≤` can be evaluated. -/
  decideLe : ∀ a b, Decidable (le a b)
  /-- The order `<` can be evaluated. -/
  decideLt : ∀ a b, Decidable (lt a b)
  /-- Absolute value. -/
  abs : R → R
  /-- Square root. -/
  sqrt : R → R
  /-- The length of the vector with two given components. -/
  hypot : R → R → R
  /-- The number nearest to a natural number. -/
  ofNat : Nat → R
  /-- Neither infinite nor undefined. -/
  isFinite : R → Bool

namespace Scalar

variable {R : Type} [Scalar R]

-- the operations have the usual signs, unless a type brings signs of its own

instance (priority := 100) : Zero R := ⟨zero⟩

instance (priority := 100) : One R := ⟨one⟩

instance (priority := 100) : Add R := ⟨add⟩

instance (priority := 100) : Sub R := ⟨sub⟩

instance (priority := 100) : Mul R := ⟨mul⟩

instance (priority := 100) : Div R := ⟨div⟩

instance (priority := 100) : Neg R := ⟨neg⟩

instance (priority := 100) : LE R := ⟨le⟩

instance (priority := 100) : LT R := ⟨lt⟩

instance (priority := 100) : BEq R := ⟨beq⟩

instance (priority := 100) : DecidableLE R := decideLe

instance (priority := 100) : DecidableLT R := decideLt

/-- The number two. -/
def two : R := ofNat 2

/-- The number nearest to an integer. -/
def ofInt (value : Int) : R :=
  if value < 0 then -(ofNat value.natAbs) else ofNat value.natAbs

end Scalar

/-- Binary floating point of double precision. -/
instance : Scalar Float where
  zero := 0.0
  one := 1.0
  add := (· + ·)
  sub := (· - ·)
  mul := (· * ·)
  div := (· / ·)
  neg := (- ·)
  le := (· ≤ ·)
  lt := (· < ·)
  beq := (· == ·)
  decideLe := inferInstance
  decideLt := inferInstance
  abs := Float.abs
  sqrt := Float.sqrt
  hypot := Numeral.length
  ofNat := Float.ofNat
  isFinite := Float.isFinite

end HexSlab
