/-!
# Messages as data

Warnings and notices are values that an operation returns beside its result,
in the order in which they arise. The text of a message is written by whoever
keeps the journal. A text that needs a number which no word holds cannot be
written: a program that keeps the journal and checks its arithmetic stops there,
while the operation itself computes no such number.
-/

namespace HexSlab

/-- How much attention a message asks for. -/
inductive Severity where
  /-- Something was skipped or did not succeed. -/
  | warning
  /-- Requested information. -/
  | notice
  deriving DecidableEq

/-- One message. -/
structure Message where
  /-- Its severity. -/
  severity : Severity
  /-- Its text, if it can be written. -/
  text? : Option String
  deriving DecidableEq

/-- The messages of an operation, oldest first. -/
abbrev Journal := List Message

/-- A journal with one warning. -/
def Journal.warning (text : String) : Journal := [⟨.warning, some text⟩]

/-- A journal with one notice. -/
def Journal.notice (text? : Option String) : Journal := [⟨.notice, text?⟩]

end HexSlab
