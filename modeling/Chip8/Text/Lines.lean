/-
# Chip8.Text.Lines — texts made of lines.

Lines are either joined, with line ends between them, or printed, with a line end behind each.
-/

namespace Chip8.Text

/-- A line of one character. -/
def rule (c : Char) (width : Nat) : String :=
  String.ofList (List.replicate width c)

/-- Lines with line ends between them. -/
def joinLines (ls : List String) : String :=
  "\n".intercalate ls

/-- Lines, each with a line end behind it. -/
def printLines (ls : List String) : String :=
  String.join (ls.map fun l => l ++ "\n")

end Chip8.Text
