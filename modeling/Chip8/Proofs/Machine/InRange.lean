/-
# Chip8.Proofs.Machine.InRange — the ranges that a program keeps the machine in.

Memory, registers, screen and keypad have types that fix their sizes.  `Machine.InRange` adds the
ranges of what they hold: bytes in the registers and the timer, sixteen bits in the index register,
zeros and ones in the cells, a key as the candidate of a wait.  Two of its parts are tighter than the
widths of the parts they speak of, and without them the invariant would not carry over a cycle: a
return address lies behind an instruction, and the program counter is never more than a skip beyond
the last instruction.

Every move of the machine keeps the ranges, and so does every instruction that succeeds
(`InRange.primitive`).
-/
import Chip8.Proofs.Machine.KeyWait
import Chip8.Proofs.Machine.Moves
import Chip8.Proofs.Screen.Sprite

namespace Chip8

/-! ## Bytes and bits -/

namespace Byte

theorem fits_natCast {n : Nat} (h : n < 256) : Fits (n : Int) := by
  unfold Fits
  omega

/-- A value that fits into a byte is a natural number below 256. -/
theorem exists_natCast {v : Int} (h : Fits v) : ∃ n : Nat, n < 256 ∧ v = n := by
  unfold Fits at h
  exact ⟨v.toNat, by omega, by omega⟩

theorem fits_emod (v : Int) : Fits (v % 256) := by
  unfold Fits
  omega

end Byte

namespace TwosComplement

theorem fits_and {a b : Int} (ha : Byte.Fits a) (hb : Byte.Fits b) : Byte.Fits (and a b) := by
  obtain ⟨m, hm, rfl⟩ := Byte.exists_natCast ha
  obtain ⟨n, -, rfl⟩ := Byte.exists_natCast hb
  rw [and_natCast]
  exact Byte.fits_natCast (Nat.lt_of_le_of_lt Nat.and_le_left hm)

theorem fits_or {a b : Int} (ha : Byte.Fits a) (hb : Byte.Fits b) : Byte.Fits (or a b) := by
  obtain ⟨m, hm, rfl⟩ := Byte.exists_natCast ha
  obtain ⟨n, hn, rfl⟩ := Byte.exists_natCast hb
  rw [or_natCast]
  exact Byte.fits_natCast (Nat.or_lt_two_pow (n := 8) hm hn)

theorem fits_xor {a b : Int} (ha : Byte.Fits a) (hb : Byte.Fits b) : Byte.Fits (xor a b) := by
  obtain ⟨m, hm, rfl⟩ := Byte.exists_natCast ha
  obtain ⟨n, hn, rfl⟩ := Byte.exists_natCast hb
  rw [xor_natCast]
  exact Byte.fits_natCast (Nat.xor_lt_two_pow (n := 8) hm hn)

end TwosComplement

namespace Screen

/-- Every cell holds zero or one. -/
def IsBinary (s : Screen) : Prop :=
  ∀ k, s.cellAt k = 0 ∨ s.cellAt k = 1

theorem isBinary_dark : dark.IsBinary := by
  intro k
  left
  simp only [dark, cellAt, Vector.toArray_replicate, Array.getD_eq_getD_getElem?,
    Array.getElem?_replicate]
  split <;> rfl

theorem isBinary_flip {s : Screen} (h : s.IsBinary) (j : Nat) : (s.flip j).IsBinary := by
  intro k
  by_cases hj : j < screenSize
  · rw [cellAt_flip s j k hj]
    split
    · rcases h k with h0 | h1
      · right
        rw [h0]
        rfl
      · left
        rw [h1]
        rfl
    · exact h k
  · rw [s.flip_of_le (Nat.le_of_not_lt hj)]
    exact h k

theorem isBinary_flipAll {s : Screen} (h : s.IsBinary) (js : List Nat) :
    (s.flipAll js).IsBinary := by
  induction js generalizing s with
  | nil => exact h
  | cons j js ih => exact ih (isBinary_flip h j)

theorem isBinary_draw {s : Screen} (h : s.IsBinary) (x y : Nat) (sprite : List UInt8) :
    (s.draw x y sprite).1.IsBinary := by
  rw [draw_eq]
  exact isBinary_flipAll h _

end Screen

/-! ## The ranges of a machine -/

/-- What the parts of a machine hold while nothing but the calls of a session and its own
instructions change it. -/
structure Machine.InRange (m : Machine) : Prop where
  registers : ∀ r, Byte.Fits (m.register r)
  index : 0 ≤ m.index ∧ m.index ≤ 0xFFFF
  /-- The last instruction stands at `0xFFE`; behind it there may be one skip. -/
  pc : 0 ≤ m.pc ∧ m.pc ≤ 0x1002
  depth : m.stack.length ≤ stackCapacity
  /-- A return address lies behind a call. -/
  returns : ∀ a ∈ m.stack, 2 ≤ a ∧ a ≤ 0x1000
  delayTimer : Byte.Fits m.delayTimer
  cells : m.screen.IsBinary
  candidate : ∀ k, m.pendingKey = some k → (0 ≤ k ∧ k < 16) ∧ m.awaitingKey = true

namespace Machine

theorem inRange_blank : blank.InRange where
  registers := by
    intro r
    have hr : blank.register r = 0 := by
      simp only [blank, register, Fin.getElem_fin, Vector.getElem_replicate]
    rw [hr]
    decide
  index := by decide
  pc := by decide
  depth := by decide
  returns := by
    intro a ha
    cases ha
  delayTimer := by decide
  cells := Screen.isBinary_dark
  candidate := by
    intro k hk
    cases hk

/-- A fresh machine is in range, whatever its image. -/
theorem inRange_boot {image : List UInt8} {m : Machine} (h : boot? image = some m) :
    m.InRange := by
  unfold boot? at h
  split at h
  · cases h
  · obtain rfl := Option.some.inj h
    exact { inRange_blank with }

namespace InRange

variable {m : Machine}

/-! ### Registers -/

/-- Registers may be replaced by any others that hold bytes. -/
theorem withRegisters (h : m.InRange) {registers : Vector Int 16}
    (hr : ∀ r, Byte.Fits (({ m with registers } : Machine).register r)) :
    { m with registers }.InRange :=
  { h with registers := hr }

theorem setRegister (h : m.InRange) (r : Register) {v : Int} (hv : Byte.Fits v) :
    (m.setRegister r v).InRange := by
  apply h.withRegisters
  intro q
  show Byte.Fits ((m.setRegister r v).register q)
  rw [register_setRegister]
  split
  · exact hv
  · exact h.registers q

theorem setFlag (h : m.InRange) (on : Bool) : (m.setFlag on).InRange := by
  apply h.setRegister
  cases on <;> decide

theorem setBitwise (h : m.InRange) (variant : Variant) (r : Register) {v : Int}
    (hv : Byte.Fits v) : (Machine.setBitwise variant m r v).InRange := by
  unfold Machine.setBitwise
  split
  · exact (h.setRegister r hv).setFlag false
  · exact h.setRegister r hv

/-- The sums, differences and left shifts of the machine are all taken within a byte. -/
theorem setRegister_emod (h : m.InRange) (r : Register) (v : Int) (on : Bool) :
    ((m.setRegister r (v % 256)).setFlag on).InRange :=
  (h.setRegister r (Byte.fits_emod v)).setFlag on

theorem shiftSource (h : m.InRange) (variant : Variant) (i : Instruction) :
    Byte.Fits (m.shiftSource variant i) := by
  unfold Machine.shiftSource
  split
  · exact h.registers i.y
  · exact h.registers i.x

theorem setRightShift (h : m.InRange) (r : Register) {v : Int} (hv : Byte.Fits v) :
    (m.setRightShift r v).InRange := by
  apply InRange.setFlag
  apply h.setRegister
  unfold Byte.Fits at hv ⊢
  omega

theorem setFirstRegisters (h : m.InRange) {values : List Int} (hv : ∀ v ∈ values, Byte.Fits v) :
    (m.setFirstRegisters values).InRange := by
  apply h.withRegisters
  intro r
  unfold register
  rw [Fin.getElem_fin, Vector.getElem_ofFn]
  by_cases hr : r.val < values.length
  · rw [List.getD_eq_getElem?_getD, List.getElem?_eq_getElem hr]
    exact hv _ (List.getElem_mem hr)
  · rw [List.getD_eq_getElem?_getD, List.getElem?_eq_none (Nat.le_of_not_lt hr)]
    exact h.registers r

/-! ### Flow -/

theorem jumpTo (h : m.InRange) {a : Int} (ha : 0 ≤ a ∧ a ≤ 0x1002) : (m.jumpTo a).InRange :=
  { h with pc := ha }

/-- A skip, or the step back of a key wait: the program counter stays in range, and nothing wraps. -/
theorem advance (h : m.InRange) {offset : Int} (hlo : 0 ≤ m.pc + offset)
    (hhi : m.pc + offset ≤ 0x1002) : (m.advance offset).InRange := by
  have hpc : (m.pc + offset) % 65536 = m.pc + offset := by omega
  refine { h with pc := ?_ }
  show 0 ≤ (m.pc + offset) % 65536 ∧ (m.pc + offset) % 65536 ≤ 0x1002
  rw [hpc]
  exact ⟨hlo, hhi⟩

theorem skipIf (h : m.InRange) (hpc : m.pc ≤ 0x1000) (condition : Bool) :
    (m.skipIf condition).InRange := by
  have hlo := h.pc.1
  unfold Machine.skipIf
  split
  · exact h.advance (by omega) (by omega)
  · exact h

theorem returnFrom (h : m.InRange) {n : Machine} (hn : m.returnFrom = .ok n) : n.InRange := by
  cases hs : m.stack with
  | nil =>
    rw [m.returnFrom_of_nil hs] at hn
    cases hn
  | cons a rest =>
    rw [m.returnFrom_of_cons hs] at hn
    obtain rfl := Except.ok.inj hn
    have hdepth := h.depth
    have hreturns := h.returns
    rw [hs] at hdepth hreturns
    rw [List.length_cons] at hdepth
    -- the new counter is an old return address, which lies behind a call
    obtain ⟨hlo, hhi⟩ := hreturns a List.mem_cons_self
    exact
      { h with
        pc := ⟨show 0 ≤ a by omega, show a ≤ 0x1002 by omega⟩
        depth := show rest.length ≤ stackCapacity by omega
        returns := fun b hb => hreturns b (List.mem_cons_of_mem a hb) }

theorem callTo (h : m.InRange) (hlo : 2 ≤ m.pc) (hhi : m.pc ≤ 0x1000) {a : Int}
    (ha : 0 ≤ a ∧ a ≤ 0x1002) {n : Machine} (hn : m.callTo a = .ok n) : n.InRange := by
  rw [m.callTo_eq] at hn
  split at hn
  · cases hn
  · obtain rfl := Except.ok.inj hn
    refine { h with pc := ha, depth := ?_, returns := ?_ }
    · show (m.pc :: m.stack).length ≤ 12
      rw [List.length_cons]
      omega
    · intro b hb
      rcases List.mem_cons.mp hb with rfl | hb
      · -- the pushed counter stands behind the call itself
        exact ⟨hlo, hhi⟩
      · exact h.returns b hb

/-! ### Index register and memory -/

theorem withIndex (h : m.InRange) {a : Int} (ha : 0 ≤ a ∧ a ≤ 0xFFFF) :
    { m with index := a }.InRange :=
  { h with index := ha }

theorem addToIndex (h : m.InRange) (v : Int) : (m.addToIndex v).InRange := by
  apply h.withIndex
  omega

theorem passBlock (h : m.InRange) (variant : Variant) (count : Nat) :
    (m.passBlock variant count).InRange := by
  unfold Machine.passBlock
  split
  · exact h.addToIndex count
  · exact h

/-- Memory holds bytes whatever is written to it. -/
theorem withMemory (h : m.InRange) (memory : Memory) : { m with memory }.InRange :=
  { h with }

theorem store (h : m.InRange) {values : List Int} (hv : ∀ v ∈ values, Byte.Fits v) {n : Machine}
    (hn : m.store values = .ok n) : n.InRange := by
  obtain ⟨bytes, -, -, hs⟩ := m.store_eq h.index.1 hv
  rw [hs] at hn
  split at hn
  · cases hn
  · obtain rfl := Except.ok.inj hn
    exact h.withMemory _

theorem storeThrough (h : m.InRange) {variant : Variant} {r : Register} {n : Machine}
    (hn : m.storeThrough variant r = .ok n) : n.InRange := by
  obtain ⟨bytes, -, -, hs⟩ := m.storeThrough_eq h.index.1 h.registers variant r
  rw [hs] at hn
  split at hn
  · cases hn
  · obtain rfl := Except.ok.inj hn
    exact (h.withMemory _).passBlock variant _

theorem loadThrough (h : m.InRange) {variant : Variant} {r : Register} {n : Machine}
    (hn : m.loadThrough variant r = .ok n) : n.InRange := by
  rw [m.loadThrough_eq h.index.1] at hn
  split at hn
  · cases hn
  · obtain rfl := Except.ok.inj hn
    apply InRange.passBlock
    apply h.setFirstRegisters
    intro v hv
    obtain ⟨b, -, rfl⟩ := List.mem_map.mp hv
    exact Byte.fits_toInt b

/-! ### Screen, timer and keys -/

theorem withScreen (h : m.InRange) {screen : Screen} (hs : screen.IsBinary) :
    { m with screen }.InRange :=
  { h with cells := hs }

theorem clearScreen (h : m.InRange) : m.clearScreen.InRange :=
  h.withScreen Screen.isBinary_dark

theorem drawSprite (h : m.InRange) {x y : Int} {height : Nat} {n : Machine}
    (hn : m.drawSprite x y height = .ok n) : n.InRange := by
  rw [m.drawSprite_eq h.index.1] at hn
  split at hn
  · cases hn
  · obtain rfl := Except.ok.inj hn
    exact (h.withScreen (Screen.isBinary_draw h.cells _ _ _)).setFlag _

theorem withDelayTimer (h : m.InRange) {v : Int} (hv : Byte.Fits v) :
    { m with delayTimer := v }.InRange :=
  { h with delayTimer := hv }

theorem tick (h : m.InRange) : m.tick.InRange := by
  unfold Machine.tick
  split
  · apply h.withDelayTimer
    have hd := h.delayTimer
    unfold Byte.Fits at hd ⊢
    omega
  · exact h

theorem withKeypad (h : m.InRange) (keypad : Keypad) : { m with keypad }.InRange :=
  { h with }

theorem withRunState (h : m.InRange) (runState : RunState) : { m with runState }.InRange :=
  { h with }

/-- A machine in range has no candidate, or it waits with a candidate that is a key. -/
theorem wait_cases (h : m.InRange) :
    (m.awaitingKey = true → m.pendingKey = none) ∨
      m.awaitingKey = true ∧ ∃ k : Key, m.pendingKey = some (k.val : Int) := by
  cases hp : m.pendingKey with
  | none => exact Or.inl fun _ => rfl
  | some k =>
    obtain ⟨⟨hlo, hhi⟩, haw⟩ := h.candidate k hp
    refine Or.inr ⟨haw, ⟨k.toNat, by omega⟩, ?_⟩
    show some k = some (k.toNat : Int)
    rw [Int.toNat_of_nonneg hlo]

/-- Each round of a key wait keeps the ranges: it goes back to an instruction that was fetched, takes a
key for its candidate, or stores a candidate that is a key. -/
theorem awaitKey (h : m.InRange) (hpc : 2 ≤ m.pc) {r : Register} {n : Machine}
    (hn : m.awaitKey r = .ok n) : n.InRange := by
  -- two rounds out of three go back to the instruction
  have hback : (m.advance (-2)).InRange := by
    have hhi := h.pc.2
    exact h.advance (by omega) (by omega)
  rcases h.wait_cases with hc | ⟨haw, k, hk⟩
  · rw [awaitKey_of_no_candidate r hc] at hn
    obtain rfl := Except.ok.inj hn
    refine { hback with candidate := ?_ }
    intro j hj
    obtain ⟨key, -, rfl⟩ := candidate?_eq_some_iff.mp hj
    exact ⟨by omega, rfl⟩
  · rw [awaitKey_of_candidate r haw hk] at hn
    split at hn
    · obtain rfl := Except.ok.inj hn
      exact hback
    · obtain rfl := Except.ok.inj hn
      have hv : Byte.Fits (k.val : Int) := Byte.fits_natCast (by omega)
      refine { h.setRegister r hv with candidate := ?_ }
      intro j hj
      cases hj

end InRange

end Machine

/-! ## Every instruction keeps the ranges -/

namespace Instruction

theorem byte_fits (i : Instruction) : Byte.Fits (i.byte : Int) := by
  apply Byte.fits_natCast
  unfold byte
  omega

theorem address_range (i : Instruction) : 0 ≤ (i.address : Int) ∧ (i.address : Int) ≤ 0xFFF := by
  unfold address
  omega

end Instruction

/-- An instruction that succeeds keeps the ranges, when the program counter stands behind it as a fetch
leaves it.  The cases are the 34 operation kinds. -/
theorem Machine.InRange.primitive {m n : Machine} (h : m.InRange) (hlo : 2 ≤ m.pc)
    (hhi : m.pc ≤ 0x1000) {op : Op} {variant : Variant} {byte : UInt8} {i : Instruction}
    (hn : op.primitive variant byte i m = .ok n) : n.InRange := by
  -- what the operands can name: registers that hold bytes, and addresses of twelve bits
  have hx := h.registers i.x
  have hy := h.registers i.y
  obtain ⟨hlo', hhi'⟩ := i.address_range
  cases op with
  | clearScreen =>
    obtain rfl := Except.ok.inj hn
    exact h.clearScreen
  | ret => exact h.returnFrom (mapError_eq_ok_iff.mp hn)
  | jump =>
    obtain rfl := Except.ok.inj hn
    exact h.jumpTo ⟨hlo', by omega⟩
  | call => exact h.callTo hlo hhi ⟨hlo', by omega⟩ (mapError_eq_ok_iff.mp hn)
  | skipEqByte | skipNeByte | skipEqReg | skipNeReg | skipPressed | skipReleased =>
    obtain rfl := Except.ok.inj hn
    exact h.skipIf hhi _
  | loadByte =>
    obtain rfl := Except.ok.inj hn
    exact h.setRegister i.x i.byte_fits
  | addByte =>
    obtain rfl := Except.ok.inj hn
    exact h.setRegister i.x (Byte.fits_emod _)
  | copyReg =>
    obtain rfl := Except.ok.inj hn
    exact h.setRegister i.x hy
  | bitOr =>
    obtain rfl := Except.ok.inj hn
    exact h.setBitwise variant i.x (TwosComplement.fits_or hx hy)
  | bitAnd =>
    obtain rfl := Except.ok.inj hn
    exact h.setBitwise variant i.x (TwosComplement.fits_and hx hy)
  | bitXor =>
    obtain rfl := Except.ok.inj hn
    exact h.setBitwise variant i.x (TwosComplement.fits_xor hx hy)
  | addReg | subReg | subFrom | shiftLeft =>
    obtain rfl := Except.ok.inj hn
    exact h.setRegister_emod i.x _ _
  | shiftRight =>
    obtain rfl := Except.ok.inj hn
    exact h.setRightShift i.x (h.shiftSource variant i)
  | setIndex =>
    obtain rfl := Except.ok.inj hn
    exact h.withIndex ⟨hlo', by omega⟩
  | jumpOffset =>
    obtain rfl := Except.ok.inj hn
    apply h.jumpTo
    omega
  | random =>
    obtain rfl := Except.ok.inj hn
    apply h.setRegister
    apply Byte.fits_natCast
    exact Nat.lt_of_le_of_lt Nat.and_le_left byte.toNat_lt
  | draw => exact h.drawSprite (mapError_eq_ok_iff.mp hn)
  | readTimer =>
    obtain rfl := Except.ok.inj hn
    exact h.setRegister i.x h.delayTimer
  | awaitKey => exact h.awaitKey hlo hn
  | setTimer =>
    obtain rfl := Except.ok.inj hn
    exact h.withDelayTimer hx
  | addIndex =>
    obtain rfl := Except.ok.inj hn
    exact h.addToIndex _
  | pointGlyph =>
    obtain rfl := Except.ok.inj hn
    apply h.withIndex
    unfold Byte.Fits at hx
    simp only [Font.glyphAddress, Font.start, Font.glyphSize]
    omega
  | storeDecimal => exact h.store (Machine.decimalDigits_fits hx) hn
  | storeRegs => exact h.storeThrough hn
  | loadRegs => exact h.loadThrough (mapError_eq_ok_iff.mp hn)
  | unknown =>
    obtain rfl := Except.ok.inj hn
    exact h

end Chip8
