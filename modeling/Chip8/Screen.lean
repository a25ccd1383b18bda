/-
# Chip8.Screen — the 64 by 32 screen and the drawing of sprites.

The screen is a grid of cells, kept row after row.  A cell is a byte: zero is off and anything else is
on.  Programs leave nothing but zeros and ones in the cells; other bytes come only from a host that
sets cells by hand.

A sprite is a list of bytes, one row of eight cells each, most significant bit on the left.  It is
placed by its top left corner, and drawn row by row and column by column; what would lie beyond the right
or the bottom edge is left out.  Drawing flips the lowest bit of the cell under each set bit, and reports
whether one of those cells was on when it was flipped.
-/

namespace Chip8

/-- Cells in a row. -/
def screenWidth : Nat := 64

/-- Rows on the screen. -/
def screenHeight : Nat := 32

/-- Cells on the screen. -/
def screenSize : Nat := screenWidth * screenHeight

/-- The cells of the screen, row after row. -/
structure Screen where
  /-- One byte per cell. -/
  cells : Vector UInt8 screenSize
  deriving DecidableEq

/-- The column `c` of a sprite row is set: column 0 is the most significant bit. -/
def Sprite.rowBit (row : UInt8) (c : Nat) : Bool :=
  row.toNat.testBit (7 - c)

namespace Screen

/-- The dark screen. -/
def dark : Screen :=
  ⟨Vector.replicate screenSize 0⟩

/-- The byte of the cell with number `i`; zero beyond the screen. -/
def cellAt (s : Screen) (i : Nat) : UInt8 :=
  s.cells.toArray.getD i 0

/-- Whether the cell with number `i` is on; there is nothing on beyond the screen. -/
def isOn (s : Screen) (i : Nat) : Bool :=
  s.cellAt i != 0

/-- Replaces the byte of one cell; numbers beyond the screen are ignored. -/
def setCell (s : Screen) (i : Nat) (b : UInt8) : Screen :=
  ⟨s.cells.setIfInBounds i b⟩

/-- Flips the lowest bit of one cell. -/
def flip (s : Screen) (i : Nat) : Screen :=
  s.setCell i (s.cellAt i ^^^ 1)

/-! ## Drawing -/

/-- Flips one cell of a screen on which a cell has gone off already or has not. -/
def touch (drawn : Screen × Bool) (i : Nat) : Screen × Bool :=
  (drawn.1.flip i, drawn.2 || drawn.1.isOn i)

/-- Draws the next `n` columns of a sprite row, from column `c` on, up to the right edge. -/
def drawColumns (row : UInt8) (x y c : Nat) (drawn : Screen × Bool) : Nat → Screen × Bool
  | 0 => drawn
  | n + 1 =>
    if x + c ≥ screenWidth then drawn
    else if Sprite.rowBit row c then
      drawColumns row x y (c + 1) (touch drawn (screenWidth * y + (x + c))) n
    else drawColumns row x y (c + 1) drawn n

/-- Draws the rows of a sprite from row `y` of the screen on, down to the bottom edge. -/
def drawRows (x y : Nat) (drawn : Screen × Bool) : List UInt8 → Screen × Bool
  | [] => drawn
  | row :: rest =>
    if y ≥ screenHeight then drawn
    else drawRows x (y + 1) (drawColumns row x y 0 drawn 8) rest

/-- Draws a sprite with its corner at `(x, y)`: the new screen, and whether a cell went off. -/
def draw (s : Screen) (x y : Nat) (sprite : List UInt8) : Screen × Bool :=
  drawRows x y (s, false) sprite

/-! ## The cells as a whole -/

/-- The cells with the numbers from `start` up to, but not including, `stop`. -/
def slice (s : Screen) (start stop : Nat) : List UInt8 :=
  (s.cells.toArray.extract start stop).toList

/-- The screen as rows of cells. -/
def rows (s : Screen) : List (List Bool) :=
  (List.range screenHeight).map fun y =>
    (s.slice (screenWidth * y) (screenWidth * (y + 1))).map fun b => b != 0

/-- All cells, row after row. -/
def toList (s : Screen) : List UInt8 :=
  s.cells.toList

/-- The sum of all cells: how many are on, as long as none is more than one. -/
def countOn (s : Screen) : Nat :=
  s.toList.foldr (fun b n => b.toNat + n) 0

/-! ## Small laws -/

theorem cellAt_setCell (s : Screen) (i j : Nat) (b : UInt8) (h : i < screenSize) :
    (s.setCell i b).cellAt j = if i = j then b else s.cellAt j := by
  simp only [cellAt, setCell, Vector.toArray_setIfInBounds, Array.getD_eq_getD_getElem?,
    Array.getElem?_setIfInBounds, Vector.size_toArray]
  split <;> simp_all

theorem cellAt_flip (s : Screen) (i j : Nat) (h : i < screenSize) :
    (s.flip i).cellAt j = if i = j then s.cellAt j ^^^ 1 else s.cellAt j := by
  unfold flip
  rw [cellAt_setCell _ _ _ _ h]
  split <;> simp_all

/-- There is nothing to flip beyond the screen. -/
theorem flip_of_le (s : Screen) {i : Nat} (h : screenSize ≤ i) : s.flip i = s := by
  simp only [flip, setCell, Vector.setIfInBounds_eq_of_size_le h]

theorem ext_cellAt {s t : Screen} (h : ∀ i, i < screenSize → s.cellAt i = t.cellAt i) :
    s = t := by
  obtain ⟨a⟩ := s
  obtain ⟨b⟩ := t
  have hab : a = b := Vector.ext fun i hi => by
    simpa [cellAt, Array.getD_eq_getD_getElem?, hi] using h i hi
  rw [hab]

end Screen

end Chip8
