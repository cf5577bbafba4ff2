import HexSlab.Text.Blank

/-!
# Cutting a text at separators

A text with `k` separators has `k + 1` parts, some of them perhaps empty. Most
lists that people type allow blank margins and empty parts; `fields` drops
both.
-/

namespace HexSlab.Text

/-- The parts of a text between the characters that `isSeparator` accepts. -/
def split (isSeparator : Char → Bool) : List Char → List (List Char)
  | [] => [[]]
  | c :: rest =>
    if isSeparator c then [] :: split isSeparator rest
    else
      match split isSeparator rest with
      | [] => [[c]]
      | part :: parts => (c :: part) :: parts

/-- The parts of a text that are not blank, without their blank margins. -/
def fields (isSeparator : Char → Bool) (text : List Char) : List (List Char) :=
  ((split isSeparator text).map trim).filter fun part => !part.isEmpty

/-- The text before and after the first occurrence of a character. -/
def splitOnce (separator : Char) : List Char → Option (List Char × List Char)
  | [] => none
  | c :: rest =>
    if c = separator then some ([], rest)
    else (splitOnce separator rest).map fun parts => (c :: parts.1, parts.2)

/-- A text always has a part. -/
theorem split_ne_nil (isSeparator : Char → Bool) (text : List Char) :
    split isSeparator text ≠ [] := by
  cases text with
  | nil => simp [split]
  | cons c rest =>
    unfold split
    split
    · simp
    · split <;> simp

end HexSlab.Text
