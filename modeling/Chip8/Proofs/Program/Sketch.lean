/-
# Chip8.Proofs.Program.Sketch — programs followed on a sketch of the machine.

What a small program does can be told without most of the machine.  A `Sketch` has the place in the
program, the registers, what the index register points at, the number whose decimal digits stand in the
three bytes at `0x300`, the glyphs on the screen, and how far the waits for keys have come.  Cycles are
carried out on it by `Sketch.next`, as far as they keep to what a sketch can tell: glyphs are drawn apart
from each other, digits are stored at `0x300` and nothing else is stored anywhere, and nothing is called.

A sketch depicts many machines (`Sketch.Depicts`), of any variant, and leaves open what the host does
between cycles.  The main statement is `Depicts.execute`: if the next cycle can be carried out on the
sketch, it succeeds on every machine that the sketch depicts, and the next sketch depicts what it leaves.
-/
import Chip8.Proofs.Machine.Boot
import Chip8.Proofs.Machine.Transfer
import Chip8.Proofs.Screen.Glyphs
import Chip8.Proofs.Session.Waits

namespace Chip8

/-! ## Sketches -/

/-- What the index register points at. -/
inductive Target where
  /-- The glyph of a digit. -/
  | glyph (digit : Nat)
  /-- The three bytes for a number. -/
  | number
  /-- Nothing that is known. -/
  | unknown
  deriving DecidableEq

/-- The address of a target. -/
def Target.address? : Target → Option Nat
  | glyph d => some (5 * d)
  | number => some 0x300
  | unknown => none

/-- What there is to tell of a machine that executes a small program. -/
structure Sketch where
  /-- How many words of the program stand in front of the next instruction. -/
  place : Nat
  registers : Vector Nat 16
  target : Target
  /-- The number whose decimal digits are stored. -/
  number : Nat
  /-- The glyphs on the screen, as they were drawn. -/
  shown : List Glyph
  wait : Wait.Status
  deriving DecidableEq

namespace Sketch

/-- A fresh machine. -/
def start : Sketch where
  place := 0
  registers := Vector.replicate 16 0
  target := .unknown
  number := 0
  shown := []
  wait := .start

/-- The value of the register with a number. -/
def register (σ : Sketch) (r : Nat) : Nat :=
  σ.registers.getD r 0

/-- Sets one register. -/
def setRegister (σ : Sketch) (r v : Nat) : Sketch :=
  { σ with registers := σ.registers.setIfInBounds r v }

/-- Goes on behind the instruction. -/
def pass (σ : Sketch) : Sketch :=
  { σ with place := σ.place + 1 }

/-- Points the index register somewhere else. -/
def point (σ : Sketch) (target : Target) : Sketch :=
  { σ with target }

/-- Shows one more glyph. -/
def add (σ : Sketch) (g : Glyph) : Sketch :=
  { σ with shown := σ.shown ++ [g] }

/-- Takes note of a round of a wait. -/
def see (σ : Sketch) (p : Keypad) : Sketch :=
  { σ with wait := σ.wait.see p }

/-- Goes to the word at an address behind the program start. -/
def jumpTo (σ : Sketch) (address : Nat) : Option Sketch :=
  if 0x200 ≤ address ∧ address % 2 = 0 then some { σ with place := (address - 0x200) / 2 } else none

/-- Draws a glyph inside the screen and apart from all glyphs that are shown; nothing goes off, so that
the flag is reset. -/
def draw (σ : Sketch) (x y height : Nat) : Option Sketch :=
  match σ.target with
  | .glyph d =>
    if d < 16 ∧ x < 64 ∧ y < 32 ∧ height = 5 ∧ ∀ g ∈ σ.shown, g.IsApart ⟨d, x, y⟩ then
      some ((σ.add ⟨d, x, y⟩).setRegister flagRegister 0)
    else none
  | _ => none

/-- Stores the decimal digits of a byte. -/
def store (σ : Sketch) (v : Nat) : Option Sketch :=
  if σ.target = .number ∧ v < 256 then some { σ with number := v } else none

/-- Loads the digits that are stored into `V0` to `V2`.  Where the index register stands afterwards is a
matter of the variant. -/
def load (σ : Sketch) (r : Nat) : Option Sketch :=
  if σ.target = .number ∧ r = 2 then
    some ((((σ.point .unknown).setRegister 0 (σ.number / 100)).setRegister 1
      (σ.number / 10 % 10)).setRegister 2 (σ.number % 10))
  else none

/-- One round of the wait for a key. -/
def awaitKey (σ : Sketch) (r : Nat) (p : Keypad) : Sketch :=
  match σ.wait.candidate with
  | none => σ.see p
  | some k => if p.isDown k then σ.see p else (σ.see p).pass.setRegister r k

/-- Executes an instruction that sees a keypad. -/
def execute (σ : Sketch) (i : Instruction) (p : Keypad) : Option Sketch :=
  let v := σ.register i.x
  match i.op with
  | .clearScreen => some { σ.pass with shown := [] }
  | .jump => σ.jumpTo i.address
  | .skipEqByte => some (if v = i.byte then σ.pass.pass else σ.pass)
  | .loadByte => some (σ.pass.setRegister i.x i.byte)
  | .addByte => some (σ.pass.setRegister i.x ((v + i.byte) % 256))
  | .setIndex => some (σ.pass.point (if i.address = 0x300 then .number else .unknown))
  | .pointGlyph => some (σ.pass.point (.glyph v))
  | .draw => σ.pass.draw v (σ.register i.y) i.nibble
  | .storeDecimal => σ.pass.store v
  | .loadRegs => σ.pass.load i.x
  | .awaitKey => some (σ.awaitKey i.x p)
  | _ => none

/-- The instruction at the place of a sketch. -/
def instruction? (image : List UInt8) (σ : Sketch) : Option Instruction :=
  if 2 * σ.place + 2 ≤ image.length then
    some (.ofBytes (image.getD (2 * σ.place) 0) (image.getD (2 * σ.place + 1) 0))
  else none

/-- The next cycle of a program, which sees a keypad. -/
def next (image : List UInt8) (σ : Sketch) (p : Keypad) : Option Sketch :=
  (σ.instruction? image).bind fun i => σ.execute i p

/-! ## Small laws -/

theorem register_setRegister (σ : Sketch) {r : Nat} (hr : r < 16) (q v : Nat) :
    (σ.setRegister r v).register q = if r = q then v else σ.register q := by
  have hin : r < σ.registers.toArray.size := by
    rw [Vector.size_toArray]
    exact hr
  unfold register setRegister Vector.getD
  rw [Vector.toArray_setIfInBounds, Array.getD_eq_getD_getElem?, Array.getD_eq_getD_getElem?,
    Array.getElem?_setIfInBounds, if_pos hin]
  split <;> rfl

/-- A glyph that has room on the screen is drawn. -/
theorem draw_of_glyph {σ : Sketch} {d x y : Nat} (htarget : σ.target = .glyph d)
    (h : d < 16 ∧ x < 64 ∧ y < 32 ∧ ∀ g ∈ σ.shown, g.IsApart ⟨d, x, y⟩) :
    σ.draw x y 5 = some ((σ.add ⟨d, x, y⟩).setRegister flagRegister 0) := by
  obtain ⟨hd, hx, hy, hapart⟩ := h
  unfold draw
  rw [htarget]
  exact if_pos ⟨hd, hx, hy, rfl, hapart⟩

/-- Only a key wait looks at the keypad. -/
theorem execute_of_ne_awaitKey {i : Instruction} (hi : i.op ≠ .awaitKey) (σ : Sketch) (p q : Keypad) :
    σ.execute i p = σ.execute i q := by
  unfold execute
  cases hop : i.op with
  | awaitKey => exact (hi hop).elim
  | _ => rfl

/-- Only a round of a wait is taken note of. -/
theorem wait_of_execute {σ τ : Sketch} {i : Instruction} {p : Keypad}
    (hτ : σ.execute i p = some τ) :
    τ.wait = if i.op = .awaitKey then σ.wait.see p else σ.wait := by
  unfold execute at hτ
  cases hop : i.op <;> simp only [hop] at hτ
  case awaitKey =>
    obtain rfl := Option.some.inj hτ
    unfold awaitKey
    cases σ.wait.candidate with
    | none => rfl
    | some k => by_cases hdown : p.isDown k = true <;> simp only [hdown] <;> rfl
  case skipEqByte =>
    obtain rfl := Option.some.inj hτ
    split <;> rfl
  case jump =>
    unfold jumpTo at hτ
    split at hτ <;> cases hτ
    rfl
  case draw =>
    unfold draw at hτ
    split at hτ
    · split at hτ <;> cases hτ
      rfl
    · cases hτ
  case storeDecimal =>
    unfold store at hτ
    split at hτ <;> cases hτ
    rfl
  case loadRegs =>
    unfold load at hτ
    split at hτ <;> cases hτ
    rfl
  case clearScreen | loadByte | addByte | setIndex | pointGlyph =>
    obtain rfl := Option.some.inj hτ
    rfl
  all_goals cases hτ

end Sketch

/-! ## Memory with a program -/

/-- The memory of a fresh machine with a small program: the font, the program, and zeros where numbers
are stored. -/
structure Memory.Carries (memory : Memory) (image : List UInt8) : Prop where
  fits : image.length ≤ 0x100
  font : ∀ a < 80, memory.byteAt a = Font.bytes.getD a 0
  code : ∀ j < image.length, memory.byteAt (0x200 + j) = image.getD j 0
  number : ∀ j < 3, memory.byteAt (0x300 + j) = 0

theorem Memory.byteAt_zeros (a : Nat) : zeros.byteAt a = 0 := by
  rw [byteAt_eq_getD, toList_zeros, List.getD_eq_getElem?_getD, List.getElem?_replicate]
  split <;> rfl

theorem Machine.carries_boot {image : List UInt8} (hfits : image.length ≤ 0x100) {m : Machine}
    (hm : boot? image = some m) : m.memory.Carries image := by
  have hsize : ¬ maxImageSize < image.length := by
    rw [maxImageSize_eq]
    omega
  have hmemory : m.memory = (Memory.zeros.put 0 Font.bytes).put 0x200 image := by
    rw [boot?, if_neg hsize] at hm
    rw [← Option.some.inj hm]
    rfl
  have hend : 0x200 + image.length ≤ memorySize := by
    unfold memorySize
    omega
  refine ⟨hfits, ?_, ?_, ?_⟩ <;> rw [hmemory]
  · intro a ha
    have hin : a < Font.bytes.length := ha
    rw [Memory.byteAt_put_of_outside _ _ (by omega), ← Nat.zero_add a,
      Memory.byteAt_put_of_inside _ _ (by decide) hin, Nat.zero_add, List.getD_eq_getElem?_getD,
      List.getElem?_eq_getElem hin, Option.getD_some]
  · intro j hj
    rw [Memory.byteAt_put_of_inside _ _ hend hj, List.getD_eq_getElem?_getD,
      List.getElem?_eq_getElem hj, Option.getD_some]
  · intro j hj
    have hfont : Font.bytes.length = 80 := rfl
    rw [Memory.byteAt_put_of_outside _ _ (by omega), Memory.byteAt_put_of_outside _ _ (by omega),
      Memory.byteAt_zeros]

/-- Memory that has changed only where numbers are stored has the glyph of every digit. -/
theorem Memory.Carries.slice_glyph {origin memory : Memory} {image : List UInt8}
    (h : origin.Carries image) (hsame : origin.SameOutside memory 0x300 3) {d : Nat} (hd : d < 16) :
    memory.slice (5 * d) (5 * d + 5) = Font.glyph d := by
  have hstop : 5 * d + 5 ≤ memorySize := by
    unfold memorySize
    omega
  have hfont : Font.bytes.length = 80 := rfl
  have hlen : (memory.slice (5 * d) (5 * d + 5)).length = (Font.glyph d).length := by
    rw [memory.length_slice hstop, Font.glyph, List.length_take, List.length_drop, hfont, Font.glyphSize]
    omega
  refine List.ext_getElem hlen fun k hk hk' => ?_
  have hrow : k < 5 := by
    rw [memory.length_slice hstop] at hk
    omega
  have hbyte : (memory.slice (5 * d) (5 * d + 5)).getD k 0 = memory.byteAt (5 * d + k) :=
    memory.getD_slice hstop (by omega)
  rw [List.getD_eq_getElem?_getD, List.getElem?_eq_getElem hk, Option.getD_some] at hbyte
  have hplace : 5 * d + k < Font.bytes.length := by omega
  rw [hbyte, hsame (5 * d + k) (Or.inl (by omega)), h.font (5 * d + k) (by omega)]
  rw [List.getD_eq_getElem?_getD, List.getElem?_eq_getElem hplace, Option.getD_some]
  simp only [Font.glyph, Font.glyphSize, List.getElem_take, List.getElem_drop]

namespace Sketch

/-! ## Machines that are depicted -/

/-- The sketch says what there is to say of a machine whose memory was `origin` in the beginning. -/
structure Depicts (σ : Sketch) (origin : Memory) (m : Machine) : Prop where
  pc : m.pc = 0x200 + 2 * σ.place
  register : ∀ r, m.register r = σ.register r
  index : ∀ a, σ.target.address? = some a → m.index = a
  stack : m.stack = []
  memory : origin.SameOutside m.memory 0x300 3
  number : ∀ j < 3, Byte.toInt (m.memory.byteAt (0x300 + j)) =
    (Machine.decimalDigits σ.number).getD j 0
  screen : m.screen.Shows σ.shown
  pending : m.pendingKey = σ.wait.candidate.map fun k => (k.val : Int)
  awaiting : σ.wait.candidate ≠ none → m.awaitingKey = true

namespace Depicts

variable {σ τ : Sketch} {origin : Memory} {image : List UInt8} {m n : Machine} {i : Instruction}

/-- A fresh machine is as the first sketch has it. -/
theorem boot (hfits : image.length ≤ 0x100) (hm : Machine.boot? image = some m) :
    start.Depicts m.memory m := by
  have hmem := Machine.carries_boot hfits hm
  unfold Machine.boot? at hm
  split at hm
  · cases hm
  · cases hm
    have hregisters : ∀ r, Machine.blank.register r = start.register r := by decide
    have hdigits : ∀ j < 3, (0 : Int) = (Machine.decimalDigits 0).getD j 0 := by decide
    refine ⟨rfl, hregisters, nofun, rfl, fun _ _ => rfl, ?_, Screen.shows_dark, rfl,
      fun h => (h rfl).elim⟩
    intro j hj
    rw [hmem.number j hj]
    exact hdigits j hj

/-- What the host does between cycles is not in the sketch. -/
theorem handled (h : σ.Depicts origin m) (hn : m.Handled n) : σ.Depicts origin n := by
  cases hn with
  | same => exact h
  | ticked =>
    unfold Machine.tick
    split
    · exact { h with }
    · exact h
  | runState r => exact { h with }
  | keypad p => exact { h with }

theorem pass (h : σ.Depicts origin m) : σ.pass.Depicts origin { m with pc := m.pc + 2 } where
  pc := by
    have hpc := h.pc
    show m.pc + 2 = 0x200 + 2 * ((σ.place + 1 : Nat) : Int)
    omega
  register := h.register
  index := h.index
  stack := h.stack
  memory := h.memory
  number := h.number
  screen := h.screen
  pending := h.pending
  awaiting := h.awaiting

theorem setRegister (h : σ.Depicts origin m) (r : Register) {v : Nat} {w : Int} (hw : w = v) :
    (σ.setRegister r v).Depicts origin (m.setRegister r w) where
  pc := h.pc
  register := by
    intro q
    rw [m.register_setRegister, σ.register_setRegister r.isLt]
    simp only [Fin.val_inj]
    split
    · exact hw
    · exact h.register q
  index := h.index
  stack := h.stack
  memory := h.memory
  number := h.number
  screen := h.screen
  pending := h.pending
  awaiting := h.awaiting

theorem point (h : σ.Depicts origin m) {target : Target} {index : Int}
    (hindex : ∀ a, target.address? = some a → index = a) :
    (σ.point target).Depicts origin { m with index } :=
  { h with index := hindex }

/-- A jump goes where the sketch goes. -/
theorem jumpTo (h : σ.Depicts origin m) {address : Nat} (hτ : σ.jumpTo address = some τ) :
    τ.Depicts origin (m.jumpTo address) := by
  unfold Sketch.jumpTo at hτ
  split at hτ
  · next ha =>
    obtain rfl := Option.some.inj hτ
    refine { h with pc := ?_ }
    show (address : Int) = 0x200 + 2 * (((address - 0x200) / 2 : Nat) : Int)
    omega
  · cases hτ

/-- A skip within the address space goes two words on. -/
theorem skipIf (h : σ.Depicts origin m) (hpc : m.pc + 2 < 65536) {c : Bool} {p : Prop} [Decidable p]
    (hc : c = true ↔ p) : (if p then σ.pass else σ).Depicts origin (m.skipIf c) := by
  have hplace := h.pc
  have hnext : m.advance 2 = { m with pc := m.pc + 2 } := by
    unfold Machine.advance
    rw [show (m.pc + 2) % 65536 = m.pc + 2 by omega]
  unfold Machine.skipIf
  by_cases hp : p
  · rw [if_pos hp, if_pos (hc.mpr hp), hnext]
    exact h.pass
  · rw [if_neg hp, if_neg (mt hc.mp hp)]
    exact h

/-- A glyph is drawn as the sketch says, and nothing goes off. -/
theorem draw (hmem : origin.Carries image) (h : σ.Depicts origin m) {x y height : Nat}
    (hτ : σ.draw x y height = some τ) :
    ∃ n, m.drawSprite x y height = .ok n ∧ τ.Depicts origin n := by
  unfold Sketch.draw at hτ
  split at hτ
  · next d htarget =>
    split at hτ
    · next hfits =>
      obtain ⟨hd, hx, hy, rfl, hapart⟩ := hfits
      obtain rfl := Option.some.inj hτ
      have hindex : m.index = ((5 * d : Nat) : Int) := h.index _ (by rw [htarget]; rfl)
      have hslice : m.memory.slice m.index.toNat (m.index + (5 : Nat)).toNat = Font.glyph d := by
        rw [← hmem.slice_glyph h.memory hd, hindex]
        congr 1
      obtain ⟨hshows, hflag⟩ := Screen.Shows.draw h.screen ⟨d, x, y⟩ hapart
      have hdraw := m.drawSprite_eq (by omega) x y 5
      rw [if_neg (by omega), hslice] at hdraw
      have hcorner : ((x : Int) % screenWidth).toNat = x ∧ ((y : Int) % screenHeight).toNat = y := by
        unfold screenWidth screenHeight
        omega
      rw [hcorner.1, hcorner.2] at hdraw
      refine ⟨_, hdraw, ?_⟩
      have hcell : (σ.add ⟨d, x, y⟩).Depicts origin
          { m with screen := (m.screen.draw x y (Font.glyph d)).1 } := { h with screen := hshows }
      rw [show (m.screen.draw x y (Font.glyph d)).2 = false from hflag]
      exact hcell.setRegister flagRegister rfl
    · cases hτ
  · cases hτ

/-- The digits of a number are stored where the sketch has them. -/
theorem store (h : σ.Depicts origin m) {v : Nat} (hτ : σ.store v = some τ) :
    ∃ n, m.store (Machine.decimalDigits v) = .ok n ∧ τ.Depicts origin n := by
  unfold Sketch.store at hτ
  split at hτ
  · next hbyte =>
    obtain ⟨htarget, hv⟩ := hbyte
    obtain rfl := Option.some.inj hτ
    have hindex : m.index = ((0x300 : Nat) : Int) := h.index _ (by rw [htarget]; rfl)
    have hfits : ∀ w ∈ Machine.decimalDigits v, Byte.Fits w := by
      unfold Machine.decimalDigits Byte.Fits
      simp only [List.forall_mem_cons]
      refine ⟨by omega, by omega, by omega, List.forall_mem_nil _⟩
    obtain ⟨bytes, hbytes, hlen, hstore⟩ := m.store_eq (by omega) hfits
    have hthree : (Machine.decimalDigits v).length = 3 := rfl
    have hplace : m.index.toNat = 0x300 := by omega
    rw [hthree] at hlen hstore
    rw [if_neg (by omega), hplace] at hstore
    refine ⟨_, hstore, { h with memory := ?_, number := ?_ }⟩
    · intro a ha
      show (m.memory.put 0x300 bytes).byteAt a = _
      rw [m.memory.byteAt_put_of_outside bytes (by omega)]
      exact h.memory a ha
    · intro j hj
      have hin : j < bytes.length := by omega
      show Byte.toInt ((m.memory.put 0x300 bytes).byteAt (0x300 + j)) = _
      rw [m.memory.byteAt_put_of_inside bytes (by rw [hlen]; decide) hin,
        ← Byte.map_toInt_of_ofInts? hbytes, List.getD_eq_getElem?_getD, List.getElem?_map,
        List.getElem?_eq_getElem hin]
      rfl
  · cases hτ

/-- The digits of the number are loaded; the index register may have moved. -/
theorem load (h : σ.Depicts origin m) (variant : Variant) {r : Register} (hτ : σ.load r = some τ) :
    ∃ n, m.loadThrough variant r = .ok n ∧ τ.Depicts origin n := by
  unfold Sketch.load at hτ
  split at hτ
  · next hthree =>
    obtain ⟨htarget, hr⟩ := hthree
    obtain rfl := Option.some.inj hτ
    have hindex : m.index = ((0x300 : Nat) : Int) := h.index _ (by rw [htarget]; rfl)
    have hplace : m.index.toNat = 0x300 := by omega
    obtain ⟨n, hn, hloaded⟩ : ∃ n, m.loadThrough variant r = .ok n ∧ m.Loaded variant r n :=
      Machine.exists_loaded (by omega) (by omega)
    refine ⟨n, hn, ?_⟩
    rw [hloaded.rest]
    refine { h with register := ?_, index := nofun }
    intro q
    show n.register q = _
    simp only [register_setRegister, Nat.reduceLT]
    by_cases hq : q.val < 3
    · have hin : q ≤ r := Fin.le_def.mpr (by omega)
      have hbyte : Byte.toInt (m.memory.byteAt (m.index.toNat + q.val)) = n.register q :=
        hloaded.block q hin
      rw [← hbyte, hplace, h.number q.val hq]
      obtain hq | hq | hq : q.val = 0 ∨ q.val = 1 ∨ q.val = 2 := by omega
      all_goals
        rw [hq]
        rfl
    · have hbehind : r < q := Fin.lt_def.mpr (by omega)
      rw [if_neg (by omega), if_neg (by omega), if_neg (by omega)]
      exact (hloaded.others q hbehind).trans (h.register q)
  · cases hτ

/-! ## One round of a wait -/

/-- A machine that stands at a key wait has the round that the sketch has. -/
theorem awaitKey (h : σ.Depicts origin m) (hat : m.AtWait) (variant : Variant) (byte : UInt8) :
    ∃ n, { m with pc := m.pc + 2 }.apply variant byte m.current = .ok n ∧
      (σ.awaitKey m.current.x m.keypad).Depicts origin n := by
  have hpending := h.pending
  unfold Sketch.awaitKey Sketch.see Wait.Status.see
  cases hk : σ.wait.candidate with
  | none =>
    rw [hk] at hpending
    refine ⟨_, hat.apply_of_no_candidate (fun _ => hpending) variant byte, ?_⟩
    exact { h with pending := rfl, awaiting := fun _ => rfl }
  | some k =>
    rw [hk] at hpending
    have hwaits : m.awaitingKey = true := h.awaiting (by rw [hk]; nofun)
    refine ⟨_, hat.apply_of_candidate hwaits hpending variant byte, ?_⟩
    by_cases hdown : m.keypad.isDown k = true
    · rw [m.waitRound_of_down _ hdown]
      simp only [hdown, if_true]
      exact h
    · rw [m.waitRound_of_up _ hdown]
      simp only [hdown]
      have hset := h.pass.setRegister m.current.x (v := k.val) rfl
      exact { hset with pending := rfl, awaiting := nofun }

/-! ## One cycle -/

/-- The instruction at the place of a sketch stands at the program counter. -/
theorem current (hmem : origin.Carries image) (h : σ.Depicts origin m)
    (hi : σ.instruction? image = some i) : m.pc + 2 ≤ 0x300 ∧ m.current = i := by
  unfold instruction? at hi
  split at hi
  · next hplace =>
    obtain rfl := Option.some.inj hi
    have hpc := h.pc
    have hfits := hmem.fits
    have haddress : m.pc.toNat = 0x200 + 2 * σ.place := by omega
    refine ⟨by omega, ?_⟩
    rw [Machine.current, Machine.instructionAt, haddress, h.memory _ (Or.inl (by omega)),
      hmem.code _ (by omega), Nat.add_assoc, h.memory _ (Or.inl (by omega)), hmem.code _ (by omega)]
  · cases hi

/-- **One cycle on a sketch.**  If the sketch can carry out the instruction at its place, the instruction
is known and succeeds on the fetched machine, whatever the variant is, and the next sketch depicts what it
leaves. -/
theorem execute (hmem : origin.Carries image) (h : σ.Depicts origin m)
    (hi : σ.instruction? image = some i) (hτ : σ.execute i m.keypad = some τ) (variant : Variant)
    (byte : UInt8) :
    i.op ≠ .unknown ∧
      ∃ n, { m with pc := m.pc + 2 }.apply variant byte i = .ok n ∧ τ.Depicts origin n := by
  obtain ⟨hpc, rfl⟩ := h.current hmem hi
  have hpass := h.pass
  have happly {op : Op} (hop : m.current.op = op) {n : Machine}
      (hn : op.primitive variant byte m.current { m with pc := m.pc + 2 } = .ok n) :
      { m with pc := m.pc + 2 }.apply variant byte m.current = .ok n :=
    (Machine.apply_of_op hop byte).trans hn
  have hknown : m.current.op ≠ .unknown := by
    intro hop
    simp only [Sketch.execute, hop] at hτ
    cases hτ
  refine ⟨hknown, ?_⟩
  cases hop : m.current.op <;> simp only [Sketch.execute, hop] at hτ
  case clearScreen =>
    obtain rfl := Option.some.inj hτ
    exact ⟨_, happly hop rfl, { hpass with screen := Screen.shows_dark }⟩
  case jump => exact ⟨_, happly hop rfl, hpass.jumpTo hτ⟩
  case skipEqByte =>
    obtain rfl := Option.some.inj hτ
    refine ⟨_, happly hop rfl, hpass.skipIf (by show m.pc + 2 + 2 < 65536; omega) ?_⟩
    rw [beq_iff_eq, hpass.register]
    exact Int.natCast_inj
  case loadByte =>
    obtain rfl := Option.some.inj hτ
    exact ⟨_, happly hop rfl, hpass.setRegister _ rfl⟩
  case addByte =>
    obtain rfl := Option.some.inj hτ
    refine ⟨_, happly hop rfl, hpass.setRegister _ ?_⟩
    rw [hpass.register]
    show ((σ.register m.current.x : Int) + (m.current.byte : Int)) % 256 =
      (((σ.register m.current.x + m.current.byte) % 256 : Nat) : Int)
    omega
  case setIndex =>
    obtain rfl := Option.some.inj hτ
    refine ⟨_, happly hop rfl, hpass.point fun a ha => ?_⟩
    split at ha
    · next haddress => rw [haddress, ← Option.some.inj ha]
    · cases ha
  case pointGlyph =>
    obtain rfl := Option.some.inj hτ
    refine ⟨_, happly hop rfl, hpass.point fun a ha => ?_⟩
    rw [hpass.register, ← Option.some.inj ha]
    show ((0 : Nat) : Int) + (5 : Nat) * (σ.register m.current.x : Int) = _
    omega
  case draw =>
    obtain ⟨n, hn, hnext⟩ := hpass.draw hmem hτ
    refine ⟨n, happly hop (mapError_eq_ok_iff.mpr ?_), hnext⟩
    rw [hpass.register, hpass.register]
    exact hn
  case storeDecimal =>
    obtain ⟨n, hn, hnext⟩ := hpass.store hτ
    refine ⟨n, happly hop ?_, hnext⟩
    show Machine.store _ (Machine.decimalDigits (Machine.register _ m.current.x)) = .ok n
    rw [hpass.register]
    exact hn
  case loadRegs =>
    obtain ⟨n, hn, hnext⟩ := hpass.load variant hτ
    exact ⟨n, happly hop (mapError_eq_ok_iff.mpr hn), hnext⟩
  case awaitKey =>
    obtain rfl := Option.some.inj hτ
    obtain ⟨hfamily, hbyte⟩ := (Instruction.op_eq_iff rfl).mp hop
    have hplace := h.pc
    exact h.awaitKey ⟨⟨by omega, by omega⟩, hfamily, hbyte⟩ variant byte
  all_goals cases hτ

end Depicts

end Sketch

end Chip8
