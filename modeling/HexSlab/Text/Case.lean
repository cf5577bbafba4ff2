/-!
# Letters in one case

Names of options are compared without regard to case. Lowering touches the
twenty-six capitals of ASCII and nothing else, so a name with other letters is
compared as it stands.
-/

namespace HexSlab.Text

/-- The small form of an ASCII capital; any other character is kept. -/
def lowerChar (c : Char) : Char :=
  if 'A' ≤ c ∧ c ≤ 'Z' then Char.ofNat (c.toNat + 32) else c

/-- A text with its ASCII capitals made small. -/
def lower (text : String) : String := String.ofList (text.toList.map lowerChar)

end HexSlab.Text
