/-
# Chip8.Proofs.Machine.Arithmetic — results and flags of the register arithmetic.

The operations `8XY1` to `8XY7` and `8XYE` write a result and then, most of them, a flag.  Both operands
are read before the first write, and the flag is written last.  So the results are those of the values
before the instruction whichever registers the operands name, and the flag is what stays when the
destination is the flag register.  `Machine.HasWritten` states the two writes; `IsCarryResult` and
`IsBitwiseResult` state what is written, by an equation between integers and bit by bit.
-/
import Chip8.Proofs.Machine.InRange
import Chip8.Proofs.Machine.Writes
import Chip8.Proofs.Session.StepEnds

namespace Chip8

/-! ## Results -/

/-- The equation between the operands `a` and `b` of `8XYn`, the value `s` that a shift moves, the result
`r` and the flag `f`.  The flag is the carry out of a sum, or the bit that falls out of a shift; in a
difference it is one when nothing is borrowed. -/
def CarryEquation (n : Nat) (a b s r f : Int) : Prop :=
  match n with
  | 0x4 => a + b = 256 * f + r
  | 0x5 => a - b = r - 256 * (1 - f)
  | 0x6 => s = 2 * r + f
  | 0x7 => b - a = r - 256 * (1 - f)
  | 0xE => 2 * s = 256 * f + r
  | _ => False

/-- A byte and a flag that solve the equation of `8XYn`. -/
structure IsCarryResult (n : Nat) (a b s r f : Int) : Prop where
  byte : 0 ≤ r ∧ r ≤ 255
  flag : f = 0 ∨ f = 1
  equation : CarryEquation n a b s r f

/-- What `8XY1`, `8XY2` and `8XY3` make of two bits. -/
def bitwise (n : Nat) (p q : Bool) : Bool :=
  match n with
  | 0x1 => p || q
  | 0x2 => p && q
  | _ => p ^^ q

/-- A byte whose bits are those that `8XYn` makes of the bits of its operands. -/
structure IsBitwiseResult (n : Nat) (a b v : Int) : Prop where
  byte : 0 ≤ v ∧ v ≤ 255
  bits : ∀ k, v.toNat.testBit k = bitwise n (a.toNat.testBit k) (b.toNat.testBit k)

section Results

variable {n : Nat} {a b s r f r' f' : Int}

/-- The equation has one solution at most: the result is a residue, and the flag follows from it. -/
theorem IsCarryResult.unique (h : IsCarryResult n a b s r f) (h' : IsCarryResult n a b s r' f') :
    r' = r ∧ f' = f := by
  obtain ⟨hr, hf, he⟩ := h
  obtain ⟨hr', hf', he'⟩ := h'
  unfold CarryEquation at he he'
  split at he <;> simp only at he' <;> omega

theorem flag_cases (on : Bool) : (if on then 1 else 0 : Int) = 0 ∨ (if on then 1 else 0 : Int) = 1 := by
  cases on
  · exact Or.inl rfl
  · exact Or.inr rfl

theorem isCarryResult_sum (ha : Byte.Fits a) (hb : Byte.Fits b) :
    IsCarryResult 0x4 a b s ((a + b) % 256) (if decide (255 < a + b) then 1 else 0) := by
  unfold Byte.Fits at ha hb
  refine ⟨Byte.fits_emod _, flag_cases _, ?_⟩
  show a + b = 256 * (if decide (255 < a + b) then 1 else 0) + (a + b) % 256
  simp only [decide_eq_true_eq]
  omega

/-- The two subtractions are one, with its operands in either order. -/
theorem difference_eq (ha : Byte.Fits a) (hb : Byte.Fits b) :
    a - b = (a - b) % 256 - 256 * (1 - if decide (b ≤ a) then 1 else 0) := by
  unfold Byte.Fits at ha hb
  simp only [decide_eq_true_eq]
  omega

theorem isCarryResult_difference (ha : Byte.Fits a) (hb : Byte.Fits b) :
    IsCarryResult 0x5 a b s ((a - b) % 256) (if decide (b ≤ a) then 1 else 0) :=
  ⟨Byte.fits_emod _, flag_cases _, difference_eq ha hb⟩

theorem isCarryResult_difference_swapped (ha : Byte.Fits a) (hb : Byte.Fits b) :
    IsCarryResult 0x7 a b s ((b - a) % 256) (if decide (a ≤ b) then 1 else 0) :=
  ⟨Byte.fits_emod _, flag_cases _, difference_eq hb ha⟩

theorem isCarryResult_rightShift (hs : Byte.Fits s) :
    IsCarryResult 0x6 a b s (s / 2) (if decide (s % 2 = 1) then 1 else 0) := by
  unfold Byte.Fits at hs
  refine ⟨by omega, flag_cases _, ?_⟩
  show s = 2 * (s / 2) + if decide (s % 2 = 1) then 1 else 0
  simp only [decide_eq_true_eq]
  omega

theorem isCarryResult_leftShift (hs : Byte.Fits s) :
    IsCarryResult 0xE a b s (2 * s % 256) (if decide (s / 128 % 2 = 1) then 1 else 0) := by
  unfold Byte.Fits at hs
  refine ⟨Byte.fits_emod _, flag_cases _, ?_⟩
  show 2 * s = 256 * (if decide (s / 128 % 2 = 1) then 1 else 0) + 2 * s % 256
  simp only [decide_eq_true_eq]
  omega

theorem isBitwiseResult_or (ha : Byte.Fits a) (hb : Byte.Fits b) :
    IsBitwiseResult 0x1 a b (TwosComplement.or a b) := by
  refine ⟨TwosComplement.fits_or ha hb, ?_⟩
  obtain ⟨m, -, rfl⟩ := Byte.exists_natCast ha
  obtain ⟨n, -, rfl⟩ := Byte.exists_natCast hb
  exact Nat.testBit_or m n

theorem isBitwiseResult_and (ha : Byte.Fits a) (hb : Byte.Fits b) :
    IsBitwiseResult 0x2 a b (TwosComplement.and a b) := by
  refine ⟨TwosComplement.fits_and ha hb, ?_⟩
  obtain ⟨m, -, rfl⟩ := Byte.exists_natCast ha
  obtain ⟨n, -, rfl⟩ := Byte.exists_natCast hb
  exact Nat.testBit_and m n

theorem isBitwiseResult_xor (ha : Byte.Fits a) (hb : Byte.Fits b) :
    IsBitwiseResult 0x3 a b (TwosComplement.xor a b) := by
  refine ⟨TwosComplement.fits_xor ha hb, ?_⟩
  obtain ⟨m, -, rfl⟩ := Byte.exists_natCast ha
  obtain ⟨n, -, rfl⟩ := Byte.exists_natCast hb
  exact Nat.testBit_xor m n

end Results

/-! ## Writes -/

namespace Machine

/-- The machine `n` is `m` with the value `f` in the flag register and the value `v` in the register `x`,
unless this is the flag register too. -/
structure HasWritten (m : Machine) (x : Register) (v f : Int) (n : Machine) : Prop where
  flag : n.register flagRegister = f
  result : x ≠ flagRegister → n.register x = v
  others : ∀ r, r ≠ x → r ≠ flagRegister → n.register r = m.register r
  rest : n = { m with registers := n.registers }

variable {m : Machine} {variant : Variant} {i : Instruction}

/-- The flag is written behind the result, and so it wins. -/
theorem hasWritten_setFlag (m : Machine) (x : Register) (v : Int) (on : Bool) :
    m.HasWritten x v (if on then 1 else 0) ((m.setRegister x v).setFlag on) where
  flag := by rw [register_setFlag, if_pos rfl]
  result := by
    intro hx
    rw [register_setFlag, if_neg hx.symm, register_setRegister, if_pos rfl]
  others := by
    intro r hr hflag
    rw [register_setFlag, if_neg hflag.symm, register_setRegister, if_neg hr.symm]
  rest := rfl

/-- Without a flag behind it, the result stays wherever it is written. -/
theorem hasWritten_setRegister (m : Machine) (x : Register) (v : Int) :
    m.HasWritten x v (if x = flagRegister then v else m.register flagRegister)
      (m.setRegister x v) where
  flag := by rw [register_setRegister]
  result := by
    intro _
    rw [register_setRegister, if_pos rfl]
  others := by
    intro r hr _
    rw [register_setRegister, if_neg hr.symm]
  rest := rfl

theorem hasWritten_setBitwise (variant : Variant) (m : Machine) (x : Register) (v : Int) :
    m.HasWritten x v
      (if variant.bitwiseClearsFlag then 0
        else if x = flagRegister then v else m.register flagRegister)
      (m.setBitwise variant x v) := by
  unfold setBitwise
  by_cases hclears : variant.bitwiseClearsFlag = true
  · rw [if_pos hclears, if_pos hclears]
    exact m.hasWritten_setFlag x v false
  · rw [if_neg hclears, if_neg hclears]
    exact m.hasWritten_setRegister x v

/-! ## The instructions -/

section Instructions

variable (hbytes : ∀ r, Byte.Fits (m.register r)) (variant : Variant) (source : ByteSource)

include hbytes in
/-- The value that a shift moves is the one of an operand. -/
theorem fits_shiftSource : Byte.Fits (m.shiftSource variant i) := by
  unfold shiftSource
  split
  · exact hbytes i.y
  · exact hbytes i.x

include hbytes in
theorem execute_of_carryRows (hi : i.FitsOneOf Instruction.carryRows) :
    ∃ r on, m.execute variant i source = .ok ((m.setRegister i.x r).setFlag on, source) ∧
      IsCarryResult i.nibble (m.register i.x) (m.register i.y) (m.shiftSource variant i) r
        (if on then 1 else 0) := by
  have ha := hbytes i.x
  have hb := hbytes i.y
  have hs := fits_shiftSource hbytes variant (i := i)
  have hop : i.op ∈ [.addReg, .subReg, .shiftRight, .subFrom, .shiftLeft] :=
    Instruction.op_mem_of_fitsOneOf hi
  simp only [List.mem_cons, List.not_mem_nil, or_false] at hop
  -- in each case the row of the kind gives the last digit, and with it the equation
  rcases hop with hop | hop | hop | hop | hop
  all_goals
    obtain ⟨-, hdigit⟩ := (Instruction.op_eq_iff rfl).mp hop
    simp only [execute_of_op hop (by decide), hdigit]
  · exact ⟨_, _, rfl, isCarryResult_sum ha hb⟩
  · exact ⟨_, _, rfl, isCarryResult_difference ha hb⟩
  · exact ⟨_, _, rfl, isCarryResult_rightShift hs⟩
  · exact ⟨_, _, rfl, isCarryResult_difference_swapped ha hb⟩
  · exact ⟨_, _, rfl, isCarryResult_leftShift hs⟩

include hbytes in
theorem execute_of_bitwiseRows (hi : i.FitsOneOf Instruction.bitwiseRows) :
    ∃ v, m.execute variant i source = .ok (m.setBitwise variant i.x v, source) ∧
      IsBitwiseResult i.nibble (m.register i.x) (m.register i.y) v := by
  have ha := hbytes i.x
  have hb := hbytes i.y
  have hop : i.op ∈ [.bitOr, .bitAnd, .bitXor] := Instruction.op_mem_of_fitsOneOf hi
  simp only [List.mem_cons, List.not_mem_nil, or_false] at hop
  rcases hop with hop | hop | hop
  all_goals
    obtain ⟨-, hdigit⟩ := (Instruction.op_eq_iff rfl).mp hop
    simp only [execute_of_op hop (by decide), hdigit]
  · exact ⟨_, rfl, isBitwiseResult_or ha hb⟩
  · exact ⟨_, rfl, isBitwiseResult_and ha hb⟩
  · exact ⟨_, rfl, isBitwiseResult_xor ha hb⟩

end Instructions

/-- **Results and flags, whichever registers are named.**  Take a machine whose registers hold bytes, and
let `a` and `b` be the values of the operands before the instruction, and `s` the one that a shift moves.
The operations `8XY4` to `8XY7` and `8XYE` succeed; the flag register holds the flag, and the first operand
the result, of the one solution of their equation.  When the first operand is the flag register itself, the
flag wins and the result is lost.  The operations `8XY1` to `8XY3` succeed and leave the bitwise result in
the first operand.  Then the flag register holds zero on the variants that reset it; on the others it
holds the result if it is the first operand itself, and what it held before if not.  Nothing else
changes. -/
theorem arithmetic_writes_result_and_flag (hbytes : ∀ r, Byte.Fits (m.register r))
    (variant : Variant) (source : ByteSource) (i : Instruction) :
    let a := m.register i.x
    let b := m.register i.y
    let s := if variant.shiftsSecond then b else a
    (i.FitsOneOf Instruction.carryRows →
      ∃ n r f, m.execute variant i source = .ok (n, source) ∧ IsCarryResult i.nibble a b s r f ∧
        (∀ r' f', IsCarryResult i.nibble a b s r' f' → r' = r ∧ f' = f) ∧
        m.HasWritten i.x r f n) ∧
    (i.FitsOneOf Instruction.bitwiseRows →
      ∃ n v, m.execute variant i source = .ok (n, source) ∧ IsBitwiseResult i.nibble a b v ∧
        m.HasWritten i.x v
          (if variant.bitwiseClearsFlag then 0
            else if i.x = flagRegister then v else m.register flagRegister) n) := by
  intro a b s
  constructor
  · intro hi
    obtain ⟨r, on, hx, hresult⟩ := execute_of_carryRows hbytes variant source hi
    exact ⟨_, r, _, hx, hresult, fun _ _ h => hresult.unique h, m.hasWritten_setFlag i.x r on⟩
  · intro hi
    obtain ⟨v, hx, hresult⟩ := execute_of_bitwiseRows hbytes variant source hi
    exact ⟨_, v, hx, hresult, hasWritten_setBitwise variant m i.x v⟩

/-- The flag register as the first operand: of the sum 200 + 100 the carry stays and 44 is lost, and the
bitwise or is reset. -/
theorem arithmetic_writes_result_and_flag_into_flag :
    ∃ m sum or : Machine, m.register flagRegister = 200 ∧ m.register 1 = 100 ∧
      m.execute .chip8 ⟨0x8F14⟩ (.ofList []) = .ok (sum, .ofList []) ∧
      sum.register flagRegister = 1 ∧ sum.register 1 = 100 ∧
      m.execute .chip8 ⟨0x8F11⟩ (.ofList []) = .ok (or, .ofList []) ∧
      or.register flagRegister = 0 := by
  let m : Machine := { blank with
    registers := ((Vector.replicate 16 0).set 15 200).set 1 100 }
  have hbytes : ∀ r, Byte.Fits (m.register r) := by decide +kernel
  obtain ⟨hcarry, -⟩ := arithmetic_writes_result_and_flag hbytes .chip8 (.ofList []) ⟨0x8F14⟩
  obtain ⟨-, hbitwise⟩ := arithmetic_writes_result_and_flag hbytes .chip8 (.ofList []) ⟨0x8F11⟩
  obtain ⟨sum, r, f, hsum, -, hunique, hwritten⟩ := hcarry (by decide)
  obtain ⟨or, v, hor, -, hreset⟩ := hbitwise (by decide)
  have hequation : CarryEquation 0x4 200 100 100 44 1 := by
    show (200 : Int) + 100 = 256 * 1 + 44
    decide
  obtain ⟨-, hf⟩ := hunique 44 1 ⟨by decide, by decide, hequation⟩
  refine ⟨m, sum, or, by decide, by decide, hsum, ?_, ?_, hor, hreset.flag⟩
  · rw [hwritten.flag, ← hf]
  · exact hwritten.others 1 (by decide) (by decide)

end Machine

end Chip8
