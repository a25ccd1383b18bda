/-
# Chip8.Primitive — what each operation kind does to the machine.

When a primitive runs, the program counter already stands behind the instruction: jumps overwrite it,
skips add two to it, and the key wait takes two back.  A primitive that fails hands over the machine with
all that it has written until then, step by step in the order of its definition.

Registers are integers.  Arithmetic brings its results into a byte; copies and bitwise operations leave
values in a byte if they were in one, and so does a shift to the right.  What is stored in memory has to
fit into bytes, and this is checked before the window in memory is.

Where one instruction writes both a register and the flag register, the flag is written last and wins
when both are the same register.

`Machine.apply` is the whole instruction set as one function of the variant, a byte, the instruction
and the machine.  Only `Op.random` looks at the byte; `Machine.carryOut` draws it from a source for
that kind and leaves the source alone for all others.  `Machine.execute` is the same for a caller who has
no use for the machine that a failing instruction leaves.
-/
import Chip8.Machine
import Chip8.Random.ByteSource
import Chip8.TwosComplement
import Chip8.Variant

namespace Chip8

namespace Machine

/-! ## Flow -/

/-- Goes to an address. -/
def jumpTo (m : Machine) (address : Int) : Machine :=
  { m with pc := address }

/-- Skips the next instruction under a condition. -/
def skipIf (m : Machine) (condition : Bool) : Machine :=
  if condition then m.advance 2 else m

/-- Takes the latest return address off the stack and goes there. -/
def returnFrom (m : Machine) : Except (Stopped Machine Cause) Machine :=
  match m.pop with
  | .error stopped => .error stopped
  | .ok (address, m) => .ok (m.jumpTo address)

/-- Pushes the program counter and goes to an address. -/
def callTo (m : Machine) (address : Int) : Except (Stopped Machine Cause) Machine :=
  match m.push m.pc with
  | .error stopped => .error stopped
  | .ok m => .ok (m.jumpTo address)

/-- Goes to an address plus `V0`, within twelve bits. -/
def jumpOffset (m : Machine) (address : Nat) : Machine :=
  m.jumpTo ((m.register firstRegister + address) % 4096)

/-! ## Arithmetic -/

/-- Sets a register to a bitwise result; on some variants the flag is reset afterwards. -/
def setBitwise (variant : Variant) (m : Machine) (r : Register) (v : Int) : Machine :=
  let m := m.setRegister r v
  if variant.bitwiseClearsFlag then m.setFlag false else m

/-- Adds `b` to `a` within a byte; the flag tells of a carry. -/
def setSum (m : Machine) (r : Register) (a b : Int) : Machine :=
  (m.setRegister r ((a + b) % 256)).setFlag (decide (255 < a + b))

/-- Takes `b` from `a` within a byte; the flag tells that nothing was borrowed. -/
def setDifference (m : Machine) (r : Register) (a b : Int) : Machine :=
  (m.setRegister r ((a - b) % 256)).setFlag (decide (b ≤ a))

/-- The value that a shift moves. -/
def shiftSource (variant : Variant) (m : Machine) (i : Instruction) : Int :=
  if variant.shiftsSecond then m.register i.y else m.register i.x

/-- Shifts a value right into a register; the flag is the bit that falls out. -/
def setRightShift (m : Machine) (r : Register) (v : Int) : Machine :=
  (m.setRegister r (v / 2)).setFlag (decide (v % 2 = 1))

/-- Shifts a value left into a register, within a byte; the flag is the bit with number seven. -/
def setLeftShift (m : Machine) (r : Register) (v : Int) : Machine :=
  (m.setRegister r (2 * v % 256)).setFlag (decide (v / 128 % 2 = 1))

/-! ## Index register and memory -/

/-- Adds to the index register, within sixteen bits. -/
def addToIndex (m : Machine) (n : Int) : Machine :=
  { m with index := (m.index + n) % 65536 }

/-- Moves the index register past a transferred block, on the variants that do so. -/
def passBlock (variant : Variant) (m : Machine) (count : Nat) : Machine :=
  if variant.transferMovesIndex then m.addToIndex count else m

/-- The hundreds, tens and ones of a value; the hundreds are not limited to one digit. -/
def decimalDigits (v : Int) : List Int :=
  [v / 100, v / 10 % 10, v % 10]

/-- Stores values from the index register on. -/
def store (m : Machine) (values : List Int) : Except (Stopped Machine Failure) Machine :=
  match Byte.ofInts? values with
  | none => .error ⟨m, .misfit .byte⟩
  | some bytes => (m.write m.index bytes).mapError (.map .fault)

/-- Stores the registers `V0` to `r` from the index register on. -/
def storeThrough (variant : Variant) (m : Machine) (r : Register) :
    Except (Stopped Machine Failure) Machine :=
  let count := r.val + 1
  match m.store (m.firstRegisters count) with
  | .error stopped => .error stopped
  | .ok m => .ok (m.passBlock variant count)

/-- Loads the registers `V0` to `r` from the index register on. -/
def loadThrough (variant : Variant) (m : Machine) (r : Register) :
    Except (Stopped Machine Cause) Machine :=
  let count := r.val + 1
  match m.read m.index count with
  | .error cause => .error ⟨m, cause⟩
  | .ok bytes => .ok ((m.setFirstRegisters (bytes.map Byte.toInt)).passBlock variant count)

/-! ## Screen and keys -/

/-- Draws the sprite of `height` rows at the index register; its corner wraps around the screen. -/
def drawSprite (m : Machine) (x y : Int) (height : Nat) : Except (Stopped Machine Cause) Machine :=
  match m.read m.index height with
  | .error cause => .error ⟨m, cause⟩
  | .ok sprite =>
    let (screen, erased) := m.screen.draw (x % screenWidth).toNat (y % screenHeight).toNat sprite
    .ok ({ m with screen }.setFlag erased)

/-- The key that the low four bits of a register name. -/
def keyOf (m : Machine) (r : Register) : Key :=
  ⟨(m.register r % 16).toNat, by omega⟩

/-- Begins a key wait unless one is in progress; a new wait has no candidate. -/
def beginWait (m : Machine) : Machine :=
  if m.awaitingKey then m else { m with awaitingKey := true, pendingKey := none }

/-- The lowest key that is down, as an integer. -/
def candidate? (m : Machine) : Option Int :=
  m.keypad.lowest?.map fun k => (k.val : Int)

/-- One round of the wait for a key.  The lowest key that is down becomes the candidate; the wait ends
in the round that finds the candidate up.  Every other round goes back to the same instruction.  A
candidate that a host has set names its key by a position from either end. -/
def awaitKey (m : Machine) (r : Register) : Except (Stopped Machine Failure) Machine :=
  let m := m.beginWait
  match m.pendingKey with
  | none => .ok { m.advance (-2) with pendingKey := m.candidate? }
  | some p =>
    match Position.resolve 16 p with
    | .error e => .error ⟨m, .misfit (.key e)⟩
    | .ok k =>
      if m.keypad.isDown k then .ok (m.advance (-2))
      else .ok { m.setRegister r p with awaitingKey := false, pendingKey := none }

end Machine

/-! ## The instruction set -/

/-- The effect of an operation kind: the variant, a byte for the kinds that want one, the instruction
for its operands, and the machine. -/
abbrev Primitive :=
  Variant → UInt8 → Instruction → Machine → Except (Stopped Machine Failure) Machine

/-- The effect of each operation kind. -/
def Op.primitive (op : Op) (variant : Variant) (byte : UInt8) (i : Instruction) (m : Machine) :
    Except (Stopped Machine Failure) Machine :=
  let vx := m.register i.x
  let vy := m.register i.y
  match op with
  | .clearScreen => .ok m.clearScreen
  | .ret => m.returnFrom.mapError (.map .fault)
  | .jump => .ok (m.jumpTo i.address)
  | .call => (m.callTo i.address).mapError (.map .fault)
  | .skipEqByte => .ok (m.skipIf (vx == i.byte))
  | .skipNeByte => .ok (m.skipIf (vx != i.byte))
  | .skipEqReg => .ok (m.skipIf (vx == vy))
  | .loadByte => .ok (m.setRegister i.x i.byte)
  | .addByte => .ok (m.setRegister i.x ((vx + i.byte) % 256))
  | .copyReg => .ok (m.setRegister i.x vy)
  | .bitOr => .ok (m.setBitwise variant i.x (TwosComplement.or vx vy))
  | .bitAnd => .ok (m.setBitwise variant i.x (TwosComplement.and vx vy))
  | .bitXor => .ok (m.setBitwise variant i.x (TwosComplement.xor vx vy))
  | .addReg => .ok (m.setSum i.x vx vy)
  | .subReg => .ok (m.setDifference i.x vx vy)
  | .shiftRight => .ok (m.setRightShift i.x (m.shiftSource variant i))
  | .subFrom => .ok (m.setDifference i.x vy vx)
  | .shiftLeft => .ok (m.setLeftShift i.x (m.shiftSource variant i))
  | .skipNeReg => .ok (m.skipIf (vx != vy))
  | .setIndex => .ok { m with index := i.address }
  | .jumpOffset => .ok (m.jumpOffset i.address)
  | .random => .ok (m.setRegister i.x (byte.toNat &&& i.byte : Nat))
  | .draw => (m.drawSprite vx vy i.nibble).mapError (.map .fault)
  | .skipPressed => .ok (m.skipIf (m.keypad.isDown (m.keyOf i.x)))
  | .skipReleased => .ok (m.skipIf (!m.keypad.isDown (m.keyOf i.x)))
  | .readTimer => .ok (m.setRegister i.x m.delayTimer)
  | .awaitKey => m.awaitKey i.x
  | .setTimer => .ok { m with delayTimer := vx }
  | .addIndex => .ok (m.addToIndex vx)
  | .pointGlyph => .ok { m with index := Font.glyphAddress vx }
  | .storeDecimal => m.store (Machine.decimalDigits vx)
  | .storeRegs => m.storeThrough variant i.x
  | .loadRegs => (m.loadThrough variant i.x).mapError (.map .fault)
  | .unknown => .ok m

/-- The byte that an instruction is given, and the source behind it: only a random load draws one. -/
def ByteSource.drawFor (source : ByteSource) (i : Instruction) : UInt8 × ByteSource :=
  if i.op = .random then source.next else (0, source)

namespace Machine

/-- The effect of an instruction, given the byte that a random load would use. -/
def apply (variant : Variant) (byte : UInt8) (i : Instruction) (m : Machine) :
    Except (Stopped Machine Failure) Machine :=
  i.op.primitive variant byte i m

/-- The effect of an instruction on the machine and on the source of random bytes.  A byte that is drawn
is gone, whether the instruction then fails or not. -/
def carryOut (variant : Variant) (i : Instruction) (m : Machine) (source : ByteSource) :
    Except (Stopped (Machine × ByteSource) Failure) (Machine × ByteSource) :=
  match m.apply variant (source.drawFor i).1 i with
  | .error stopped => .error ⟨(stopped.state, (source.drawFor i).2), stopped.reason⟩
  | .ok m => .ok (m, (source.drawFor i).2)

/-- What an instruction makes of the machine and the source, or why it fails. -/
def execute (variant : Variant) (i : Instruction) (m : Machine) (source : ByteSource) :
    Except Failure (Machine × ByteSource) :=
  (m.carryOut variant i source).mapError Stopped.reason

end Machine

end Chip8
