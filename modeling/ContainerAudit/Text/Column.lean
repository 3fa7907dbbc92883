/-!
# Columns

Text brought to the width of a column of a table.
-/

namespace ContainerAudit.Text

/-- The text with spaces after it up to a width. A longer text is left as it is. -/
def padEnd (width : Nat) (s : String) : String :=
  s ++ String.ofList (List.replicate (width - s.length) ' ')

/-- The text with spaces in front up to a width. A longer text is left as it is. -/
def padStart (width : Nat) (s : String) : String :=
  String.ofList (List.replicate (width - s.length) ' ') ++ s

/-- A line of one character across a width. -/
def rule (width : Nat) (c : Char) : String :=
  String.ofList (List.replicate width c)

end ContainerAudit.Text
