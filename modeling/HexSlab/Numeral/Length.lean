/-!
# The length of a vector with two components

The root of a sum of two squares, followed by one correction that takes away
what the roundings of the squares and of the root have left. Components near
the ends of the range of doubles are scaled by a power of two first, and a
component too small to be felt is added to the other one.
-/

namespace HexSlab.Numeral

/-- The root of the sum of the squares of two numbers, the larger one first,
with one correction. The defect of the root is formed in the way that loses
least, by whether the root is far from the smaller number. -/
def correctedRoot (larger smaller : Float) : Float :=
  let root := (larger * larger + smaller * smaller).sqrt
  let defect :=
    if root ≤ 2.0 * smaller then
      let rest := root - smaller
      larger * (2.0 * rest - larger) + (rest - 2.0 * (larger - smaller)) * rest
    else
      let rest := root - larger
      2.0 * rest * (larger - 2.0 * smaller) + ((4.0 * rest - smaller) * smaller + rest * rest)
  root - defect / (2.0 * root)

/-- The factor that brings very large and very small numbers into range. -/
def rangeFactor : Float := Float.scaleB 1.0 600

/-- The length of a vector with two finite components that are not negative, the
larger one first. -/
def orderedLength (larger smaller : Float) : Float :=
  if smaller ≤ larger * Float.scaleB 1.0 (-54) then larger + smaller
  else if Float.scaleB 1.0 511 < larger then
    correctedRoot (larger / rangeFactor) (smaller / rangeFactor) * rangeFactor
  else if smaller < Float.scaleB 1.0 (-459) then
    correctedRoot (larger * rangeFactor) (smaller * rangeFactor) / rangeFactor
  else correctedRoot larger smaller

/-- The length of a vector with two components. It is infinite if a component
is, whatever the other one. -/
def length (a b : Float) : Float :=
  if a.isInf || b.isInf then 1.0 / 0.0
  else if a.isNaN || b.isNaN then a + b
  else
    let x := a.abs
    let y := b.abs
    if x < y then orderedLength y x else orderedLength x y

end HexSlab.Numeral
