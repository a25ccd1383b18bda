/-
# Chip8.Proofs.Machine.Drawing — what `DXYN` does to each cell of the screen.

The corner of the sprite is where the two operands point, within the screen, and its rows are the bytes
from the index register on.  `Machine.SpriteCovers` puts these together with the cell that is asked about.
`draw_flips_covered_cells` is the whole instruction: the covered cells flip, the flag tells whether one of
them went off, and nothing else changes, also when an operand is the flag register itself.
-/
import Chip8.Proofs.Instruction.Rows
import Chip8.Proofs.Machine.InRange
import Chip8.Proofs.Screen.Sprite
import Chip8.Proofs.Session.StepEnds

namespace Chip8

/-- Some cell that holds a one on the first screen holds a zero on the second. -/
def Screen.GoesOff (s t : Screen) : Prop :=
  ∃ cx cy, cx < 64 ∧ cy < 32 ∧ s.cell cx cy = 1 ∧ t.cell cx cy = 0

/-- A draw on a screen of zeros and ones reports whether a cell went off. -/
theorem Screen.draw_erases_iff_goesOff {s : Screen} (h : s.IsBinary) (x y : Nat)
    (sprite : List UInt8) :
    (s.draw x y sprite).2 = true ↔ s.GoesOff (s.draw x y sprite).1 := by
  rw [s.draw_erases_iff]
  constructor
  · rintro ⟨cx, cy, hx, hy, hcovers, hon⟩
    have hone : s.cell cx cy = 1 := (h _).resolve_left hon
    refine ⟨cx, cy, hx, hy, hone, ?_⟩
    rw [s.cell_draw x y sprite hx hy, hone, if_pos hcovers]
    rfl
  · rintro ⟨cx, cy, hx, hy, hone, hoff⟩
    rw [s.cell_draw x y sprite hx hy, hone] at hoff
    refine ⟨cx, cy, hx, hy, ?_, by rw [hone]; decide⟩
    -- a one that is not covered stays a one
    by_cases hcovers : Sprite.Covers sprite x y cx cy
    · exact hcovers
    · rw [if_neg hcovers] at hoff
      cases hoff

namespace Machine

/-- The sprite of `height` rows at the index register, with its corner in column `x` of row `y`, has a set
bit over the cell in column `cx` of row `cy`.  The leftmost cell of a row is the bit with number seven. -/
def SpriteCovers (m : Machine) (height x y cx cy : Nat) : Prop :=
  (y ≤ cy ∧ cy - y < height) ∧ (x ≤ cx ∧ cx - x < 8) ∧
    (m.memory.byteAt (m.index.toNat + (cy - y))).toNat.testBit (7 - (cx - x)) = true

instance (m : Machine) (height x y cx cy : Nat) : Decidable (m.SpriteCovers height x y cx cy) :=
  inferInstanceAs (Decidable (_ ∧ _))

variable {m : Machine}

/-- The sprite that a draw reads covers what memory says it covers. -/
theorem covers_slice_iff (hindex : 0 ≤ m.index) {height : Nat} (hwindow : m.index + height ≤ 4096)
    (x y cx cy : Nat) :
    Sprite.Covers (m.memory.slice m.index.toNat (m.index + height).toNat) x y cx cy ↔
      m.SpriteCovers height x y cx cy := by
  have hstop : (m.index + height).toNat ≤ memorySize := by
    unfold memorySize
    omega
  have hheight : (m.index + height).toNat - m.index.toNat = height := by omega
  unfold Sprite.Covers SpriteCovers Sprite.rowBit
  rw [m.memory.length_slice hstop, hheight]
  apply and_congr_right
  rintro ⟨-, hrow⟩
  rw [m.memory.getD_slice hstop (by omega)]

/-- **A draw, cell by cell.**  Take a machine whose cells hold zeros and ones and whose index register is
not negative, and a word `DXYN` whose window lies inside memory.  The instruction succeeds, whatever its
operands are and also without any rows.  Every cell of the screen is what it was, flipped if the sprite
covers it; the corner of the sprite wraps around the screen, and the sprite itself does not.  The flag is
one if some cell went from one to zero and zero if none did, and that is all that changes. -/
theorem draw_flips_covered_cells (hcells : m.screen.IsBinary) (hindex : 0 ≤ m.index)
    {i : Instruction} (hi : (Row.family 0xD).Fits i) (hwindow : m.index + i.nibble ≤ 4096)
    (variant : Variant) (source : ByteSource) :
    let x := (m.register i.x % 64).toNat
    let y := (m.register i.y % 32).toNat
    ∃ n, m.execute variant i source = .ok (n, source) ∧
      (∀ cx cy, cx < 64 → cy < 32 →
        n.screen.cell cx cy =
          m.screen.cell cx cy ^^^ if m.SpriteCovers i.nibble x y cx cy then 1 else 0) ∧
      (m.screen.GoesOff n.screen → n.register flagRegister = 1) ∧
      (¬ m.screen.GoesOff n.screen → n.register flagRegister = 0) ∧
      (∀ r, r ≠ flagRegister → n.register r = m.register r) ∧
      n = { m with screen := n.screen, registers := n.registers } := by
  intro x y
  have hop : i.op = .draw := Instruction.op_of_fits rfl hi
  let drawn := m.screen.draw x y (m.memory.slice m.index.toNat (m.index + i.nibble).toNat)
  have hdraw : m.drawSprite (m.register i.x) (m.register i.y) i.nibble =
      .ok ({ m with screen := drawn.1 }.setFlag drawn.2) := by
    rw [m.drawSprite_eq hindex, if_neg (by omega)]
    rfl
  have happly : ∀ byte,
      m.apply variant byte i = .ok ({ m with screen := drawn.1 }.setFlag drawn.2) := by
    intro byte
    unfold apply
    rw [hop]
    exact mapError_eq_ok_iff.mpr hdraw
  have hsource : source = (source.drawFor i).2 := by
    unfold ByteSource.drawFor
    rw [if_neg (by rw [hop]; decide)]
  have hflag : ({ m with screen := drawn.1 }.setFlag drawn.2).register flagRegister =
      if drawn.2 then 1 else 0 := by
    unfold setFlag
    rw [register_setRegister, if_pos rfl]
  have hoff : drawn.2 = true ↔ m.screen.GoesOff drawn.1 := Screen.draw_erases_iff_goesOff hcells x y _
  refine ⟨_, execute_eq_ok_iff.mpr ⟨happly _, hsource⟩, ?_, ?_, ?_, ?_, rfl⟩
  · intro cx cy hx hy
    show drawn.1.cell cx cy = _
    rw [m.screen.cell_draw x y _ hx hy]
    simp only [covers_slice_iff hindex hwindow]
  · intro hgoes
    rw [hflag, if_pos (hoff.mpr hgoes)]
  · intro hstays
    rw [hflag, if_neg (mt hoff.mp hstays)]
  · intro r hr
    unfold setFlag
    rw [register_setRegister, if_neg hr.symm]
    rfl

/-- A sprite of two rows at column 62 of the last row, where one cell is lit, with the flag register for a
column: the lit cell goes off and the cell beside it comes on.  The first column and the first row stay
dark, though the sprite would go on there if it wrapped. -/
theorem draw_flips_covered_cells_corner :
    ∃ m n : Machine, m.screen.cell 62 31 = 1 ∧ m.register flagRegister = 254 ∧
      m.execute .standard ⟨0xDF12⟩ (.ofList []) = .ok (n, .ofList []) ∧
      n.screen.cell 62 31 = 0 ∧ n.screen.cell 63 31 = 1 ∧ n.screen.cell 0 31 = 0 ∧
      n.screen.cell 62 0 = 0 ∧ n.register flagRegister = 1 := by
  obtain ⟨n, hn, hcells, hflag, -⟩ := draw_flips_covered_cells
    (m := { blank with
      memory := Memory.zeros.put 0x300 [0xFF, 0xFF]
      index := 0x300
      registers := (Vector.replicate 16 95).set 15 254
      screen := Screen.dark.flip (64 * 31 + 62) })
    (Screen.isBinary_flip Screen.isBinary_dark _) (by decide) (i := ⟨0xDF12⟩) (by decide +kernel)
    (by decide +kernel) .standard (.ofList [])
  have hoff : n.screen.cell 62 31 = 0 := by
    rw [hcells 62 31 (by decide) (by decide)]
    decide +kernel
  refine ⟨_, n, by decide +kernel, by decide +kernel, hn, hoff, ?_, ?_, ?_,
    hflag ⟨62, 31, by decide, by decide, by decide +kernel, hoff⟩⟩
  · rw [hcells 63 31 (by decide) (by decide)]
    decide +kernel
  · rw [hcells 0 31 (by decide) (by decide)]
    decide +kernel
  · rw [hcells 62 0 (by decide) (by decide)]
    decide +kernel

end Machine

end Chip8
