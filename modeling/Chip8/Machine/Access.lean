/-
# Chip8.Machine.Access — registers and cells by position.

A host may name a register or a cell by a position from either end; a position that names no place is
refused and changes nothing.
-/
import Chip8.Machine

namespace Chip8.Machine

/-- The value of the register at a position. -/
def registerAt (m : Machine) (p : Int) : Except PositionError Int :=
  (Position.resolve 16 p).map m.register

/-- Sets the register at a position. -/
def setRegisterAt (m : Machine) (p v : Int) : Except PositionError Machine :=
  (Position.resolve 16 p).map fun r => m.setRegister r v

/-- Whether the cell in column `x` of row `y` is on.  Only the position of the cell in the whole
screen is checked, so a column beyond a row's end reaches into the rows around it. -/
def pixelAt (m : Machine) (x y : Int) : Except PositionError Bool :=
  (Position.resolve screenSize (y * screenWidth + x)).map fun i => m.screen.isOn i.val

/-- Sets the cell at a position to a value, which has to fit into a byte. -/
def setCellAt (m : Machine) (p v : Int) : Except PutError Machine :=
  (Position.resolvePut screenSize p v).map fun (i, b) =>
    { m with screen := m.screen.setCell i.val b }

end Chip8.Machine
