/-!
# Text in columns

Padding counts characters, and a text wider than its column is left whole.
-/

namespace HexSlab.Text

/-- The text with blanks in front up to a width. -/
def alignRight (width : Nat) (text : String) : String :=
  String.ofList (List.replicate (width - text.length) ' ') ++ text

/-- The text with blanks behind up to a width. -/
def alignLeft (width : Nat) (text : String) : String :=
  text ++ String.ofList (List.replicate (width - text.length) ' ')

end HexSlab.Text
