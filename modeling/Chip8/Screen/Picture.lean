/-
# Chip8.Screen.Picture — the screen as text.

Each row becomes a line, in which a cell that is on is shown by one text and a cell that is off by
another.  A framed picture has a bar at either end of each line, and an edge above and below.
-/
import Chip8.Screen
import Chip8.Text.Lines

namespace Chip8.Screen

/-- How cells that are on are shown unless something else is asked for. -/
def standardOn : String := "█"

/-- How cells that are off are shown unless something else is asked for. -/
def standardOff : String := " "

/-- The line of one row. -/
def line (on off : String) (row : List Bool) : String :=
  String.join (row.map fun cell => if cell then on else off)

/-- The lines of the screen. -/
def lines (s : Screen) (on off : String) : List String :=
  s.rows.map (line on off)

/-- The edge of a framed picture. -/
def edge : String :=
  "+" ++ Text.rule '-' screenWidth ++ "+"

/-- Puts a frame around lines. -/
def frame (ls : List String) : List String :=
  edge :: ls.map (fun l => "|" ++ l ++ "|") ++ [edge]

/-- The screen as text, framed if asked for. -/
def picture (s : Screen) (on off : String) (isFramed : Bool) : String :=
  let ls := s.lines on off
  Text.joinLines (if isFramed then frame ls else ls)

end Chip8.Screen
