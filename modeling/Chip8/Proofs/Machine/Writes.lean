/-
# Chip8.Proofs.Machine.Writes — which parts of a machine an instruction may write.

`Part` names the parts of a machine, down to single bytes of memory and single registers; two machines
that agree in every part are equal.  `Instruction.MayWrite` says by the rows of the opcode table which
parts an instruction may write.  It has no rule for the keys and none for the run state.

An instruction that succeeds leaves every other part as it was (`Machine.changesOnly_of_apply`), on any
machine: nothing is asked of what the registers, the index register or the candidate of a key wait hold.
The proof goes move by move.  Each move of the machine has a lemma that names the parts it writes, and
what two moves both leave alone, they leave alone one after the other.
-/
import Chip8.Proofs.Instruction.Rows
import Chip8.Proofs.Machine.Moves

namespace Chip8

/-! ## Parts -/

/-- A part of a machine. -/
inductive Part where
  | byte (a : Nat)
  | register (r : Register)
  | index
  | pc
  | stack
  | delayTimer
  | screen
  | keypad
  | runState
  | awaitingKey
  | pendingKey
  deriving DecidableEq

/-- The second machine has the part as the first one has it. -/
def Part.Same (m n : Machine) : Part → Prop
  | byte a => n.memory.byteAt a = m.memory.byteAt a
  | register r => n.register r = m.register r
  | index => n.index = m.index
  | pc => n.pc = m.pc
  | stack => n.stack = m.stack
  | delayTimer => n.delayTimer = m.delayTimer
  | screen => n.screen = m.screen
  | keypad => n.keypad = m.keypad
  | runState => n.runState = m.runState
  | awaitingKey => n.awaitingKey = m.awaitingKey
  | pendingKey => n.pendingKey = m.pendingKey

theorem Memory.ext_byteAt {s t : Memory} (h : ∀ a, s.byteAt a = t.byteAt a) : s = t := by
  obtain ⟨a⟩ := s
  obtain ⟨b⟩ := t
  have hab : a = b := Vector.ext fun i hi => by
    simpa [byteAt, Array.getD_eq_getD_getElem?, hi] using h i
  rw [hab]

/-- The parts make up the whole machine. -/
theorem Part.eq_of_same {m n : Machine} (h : ∀ p : Part, p.Same m n) : n = m := by
  have hmemory : n.memory = m.memory := Memory.ext_byteAt fun a => h (.byte a)
  have hregisters : n.registers = m.registers :=
    Vector.ext fun k hk => h (.register ⟨k, hk⟩)
  have hindex := h .index
  have hpc := h .pc
  have hstack := h .stack
  have htimer := h .delayTimer
  have hscreen := h .screen
  have hkeypad := h .keypad
  have hrun := h .runState
  have hawaiting := h .awaitingKey
  have hpending := h .pendingKey
  cases m
  cases n
  simp only [Part.Same] at *
  subst_vars
  rfl

/-! ## The rules -/

namespace Instruction

/-- The word fits one of the rows. -/
def FitsOneOf (i : Instruction) (rows : List Row) : Prop :=
  ∃ row ∈ rows, row.Fits i

instance (i : Instruction) (rows : List Row) : Decidable (i.FitsOneOf rows) :=
  inferInstanceAs (Decidable (∃ row ∈ rows, row.Fits i))

/-- The rows that write their first operand and nothing else: `6XNN`, `7XNN`, `8XY0`, `CXNN`, `FX07`
and, at the end of a wait, `FX0A`. -/
def operandRows : List Row :=
  [.family 0x6, .family 0x7, .nibble 0x8 0x0, .family 0xC, .byte 0xF 0x07, .byte 0xF 0x0A]

/-- The bitwise operations, `8XY1` to `8XY3`. -/
def bitwiseRows : List Row :=
  [.nibble 0x8 0x1, .nibble 0x8 0x2, .nibble 0x8 0x3]

/-- The operations whose flag tells of a carry, a borrow or a bit that falls out: `8XY4` to `8XY7`, and
`8XYE`. -/
def carryRows : List Row :=
  [.nibble 0x8 0x4, .nibble 0x8 0x5, .nibble 0x8 0x6, .nibble 0x8 0x7, .nibble 0x8 0xE]

/-- The jumps, the call and the return: `1NNN`, `BNNN`, `2NNN` and `0?EE`. -/
def jumpRows : List Row :=
  [.family 0x1, .family 0xB, .family 0x2, .byte 0x0 0xEE]

/-- The skips: `3XNN`, `4XNN`, `5XY0`, `9XYn`, `EX9E` and `EXA1`. -/
def skipRows : List Row :=
  [.family 0x3, .family 0x4, .nibble 0x5 0x0, .family 0x9, .byte 0xE 0x9E, .byte 0xE 0xA1]

/-- The instruction may write the part of the machine `m`. -/
inductive MayWrite (variant : Variant) (m : Machine) (i : Instruction) : Part → Prop where
  /-- `FX33` writes the three bytes from the index register on. -/
  | digit {a : Nat} (h : (Row.byte 0xF 0x33).Fits i) (ha : m.index ≤ a ∧ a ≤ m.index + 2) :
      MayWrite variant m i (.byte a)
  /-- `FX55` writes as many bytes from the index register on as it stores registers. -/
  | stored {a : Nat} (h : (Row.byte 0xF 0x55).Fits i)
      (ha : m.index ≤ a ∧ a ≤ m.index + i.x.val) : MayWrite variant m i (.byte a)
  | operand (h : i.FitsOneOf operandRows) : MayWrite variant m i (.register i.x)
  | result (h : i.FitsOneOf (bitwiseRows ++ carryRows)) : MayWrite variant m i (.register i.x)
  | carry (h : i.FitsOneOf carryRows) : MayWrite variant m i (.register flagRegister)
  /-- A bitwise operation resets the flag on the variants that do so. -/
  | reset (h : i.FitsOneOf bitwiseRows) (hv : variant.bitwiseClearsFlag = true) :
      MayWrite variant m i (.register flagRegister)
  /-- `DXYN` tells of a collision. -/
  | collision (h : (Row.family 0xD).Fits i) : MayWrite variant m i (.register flagRegister)
  /-- `FX65` loads the registers up to its operand. -/
  | loaded {r : Register} (h : (Row.byte 0xF 0x65).Fits i) (hr : r ≤ i.x) :
      MayWrite variant m i (.register r)
  /-- `ANNN`, `FX1E` and `FX29` set the index register. -/
  | index (h : i.FitsOneOf [.family 0xA, .byte 0xF 0x1E, .byte 0xF 0x29]) :
      MayWrite variant m i .index
  /-- `FX55` and `FX65` move it on the variants that do so. -/
  | moved (h : i.FitsOneOf [.byte 0xF 0x55, .byte 0xF 0x65])
      (hv : variant.transferMovesIndex = true) : MayWrite variant m i .index
  /-- `2NNN` and `0?EE` write the stack. -/
  | stack (h : i.FitsOneOf [.family 0x2, .byte 0x0 0xEE]) : MayWrite variant m i .stack
  /-- `FX15` sets the timer. -/
  | delayTimer (h : (Row.byte 0xF 0x15).Fits i) : MayWrite variant m i .delayTimer
  /-- `0?E0` clears the screen, and `DXYN` draws on it. -/
  | screen (h : i.FitsOneOf [.byte 0x0 0xE0, .family 0xD]) : MayWrite variant m i .screen
  /-- `FX0A` begins waits, keeps a candidate, and ends them. -/
  | awaitingKey (h : (Row.byte 0xF 0x0A).Fits i) : MayWrite variant m i .awaitingKey
  | pendingKey (h : (Row.byte 0xF 0x0A).Fits i) : MayWrite variant m i .pendingKey
  | pc (h : i.FitsOneOf (jumpRows ++ skipRows ++ [.byte 0xF 0x0A])) : MayWrite variant m i .pc

/-- A word whose kind has one of the rows fits one of the rows. -/
theorem fitsOneOf_of_op {i : Instruction} {op : Op} {row : Row} {rows : List Row} (hop : i.op = op)
    (hrow : op.row? = some row) (hmem : row ∈ rows) : i.FitsOneOf rows :=
  ⟨row, hmem, (op_eq_iff hrow).mp hop⟩

/-- A word that fits one of the rows of some kinds is of one of these kinds. -/
theorem op_mem_of_fitsOneOf {i : Instruction} {ops : List Op}
    (h : i.FitsOneOf (ops.filterMap Op.row?)) : i.op ∈ ops := by
  obtain ⟨row, hrow, hfits⟩ := h
  obtain ⟨op, hmem, hop⟩ := List.mem_filterMap.mp hrow
  rwa [op_of_fits hop hfits]

end Instruction

/-! ## Moves -/

namespace Memory

theorem byteAt_setByte_of_ne (m : Memory) {a b : Nat} (v : UInt8) (h : a ≠ b) :
    (m.setByte a v).byteAt b = m.byteAt b := by
  by_cases ha : a < memorySize
  · rw [byteAt_setByte m a b v ha, if_neg h]
  · have hsame : m.setByte a v = m := by
      simp only [setByte, Vector.setIfInBounds_eq_of_size_le (Nat.le_of_not_lt ha)]
    rw [hsame]

/-- Putting bytes leaves all others. -/
theorem byteAt_put_of_outside (m : Memory) {a b : Nat} (data : List UInt8)
    (h : b < a ∨ a + data.length ≤ b) : (m.put a data).byteAt b = m.byteAt b := by
  induction data generalizing m a with
  | nil => rfl
  | cons v rest ih =>
    rw [List.length_cons] at h
    unfold put
    rw [ih (m.setByte a v) (by omega), m.byteAt_setByte_of_ne v (by omega)]

/-- Bytes that are put inside memory stand there one after the other. -/
theorem byteAt_put_of_inside (m : Memory) {a k : Nat} (data : List UInt8)
    (h : a + data.length ≤ memorySize) (hk : k < data.length) :
    (m.put a data).byteAt (a + k) = data[k] := by
  induction data generalizing m a k with
  | nil => cases hk
  | cons v rest ih =>
    rw [List.length_cons] at h hk
    unfold put
    cases k with
    | zero =>
      -- what is put behind the first byte leaves it
      have hbehind : a < a + 1 := Nat.lt_succ_self a
      show ((m.setByte a v).put (a + 1) rest).byteAt a = v
      rw [byteAt_put_of_outside _ rest (Or.inl hbehind), m.byteAt_setByte a a v (by omega), if_pos rfl]
    | succ k =>
      have hstep : a + (k + 1) = a + 1 + k := by omega
      rw [hstep, ih (m.setByte a v) (by omega) (Nat.lt_of_succ_lt_succ hk)]
      rfl

end Memory

namespace Machine

/-- Only parts of `S` have changed. -/
def ChangesOnly (m : Machine) (S : Part → Prop) (n : Machine) : Prop :=
  ∀ p, ¬ S p → p.Same m n

variable {m n k : Machine} {S : Part → Prop}

theorem changesOnly_refl : m.ChangesOnly S m := by
  intro p _
  cases p <;> rfl

theorem ChangesOnly.trans (h : m.ChangesOnly S n) (h' : n.ChangesOnly S k) : m.ChangesOnly S k := by
  intro p hp
  have hn := h p hp
  have hk := h' p hp
  cases p <;> exact Eq.trans hk hn

/-! ### One part -/

theorem changesOnly_withPc (pc : Int) (h : S .pc) : m.ChangesOnly S { m with pc } := by
  intro p hp
  cases p with
  | pc => exact (hp h).elim
  | _ => rfl

theorem changesOnly_withIndex (index : Int) (h : S .index) : m.ChangesOnly S { m with index } := by
  intro p hp
  cases p with
  | index => exact (hp h).elim
  | _ => rfl

theorem changesOnly_withStack (stack : List Int) (h : S .stack) :
    m.ChangesOnly S { m with stack } := by
  intro p hp
  cases p with
  | stack => exact (hp h).elim
  | _ => rfl

theorem changesOnly_withDelayTimer (delayTimer : Int) (h : S .delayTimer) :
    m.ChangesOnly S { m with delayTimer } := by
  intro p hp
  cases p with
  | delayTimer => exact (hp h).elim
  | _ => rfl

theorem changesOnly_withScreen (screen : Screen) (h : S .screen) :
    m.ChangesOnly S { m with screen } := by
  intro p hp
  cases p with
  | screen => exact (hp h).elim
  | _ => rfl

theorem changesOnly_withWait (awaitingKey : Bool) (pendingKey : Option Int) (h : S .awaitingKey)
    (h' : S .pendingKey) : m.ChangesOnly S { m with awaitingKey, pendingKey } := by
  intro p hp
  cases p with
  | awaitingKey => exact (hp h).elim
  | pendingKey => exact (hp h').elim
  | _ => rfl

theorem changesOnly_withRegisters (registers : Vector Int 16)
    (h : ∀ r : Register, S (.register r) ∨ { m with registers }.register r = m.register r) :
    m.ChangesOnly S { m with registers } := by
  intro p hp
  cases p with
  | register r => exact (h r).resolve_left hp
  | _ => rfl

/-! ### Registers -/

theorem changesOnly_setRegister (r : Register) (v : Int) (h : S (.register r)) :
    m.ChangesOnly S (m.setRegister r v) := by
  apply changesOnly_withRegisters
  intro q
  by_cases hq : r = q
  · subst hq
    exact Or.inl h
  · have hsame := m.register_setRegister r q v
    rw [if_neg hq] at hsame
    exact Or.inr hsame

theorem changesOnly_setRegister_setFlag (r : Register) (v : Int) (on : Bool) (hr : S (.register r))
    (hflag : S (.register flagRegister)) : m.ChangesOnly S ((m.setRegister r v).setFlag on) :=
  (changesOnly_setRegister r v hr).trans (changesOnly_setRegister flagRegister _ hflag)

theorem changesOnly_setBitwise (variant : Variant) (r : Register) (v : Int) (hr : S (.register r))
    (hflag : variant.bitwiseClearsFlag = true → S (.register flagRegister)) :
    m.ChangesOnly S (setBitwise variant m r v) := by
  unfold setBitwise
  split
  · next hv => exact changesOnly_setRegister_setFlag r v false hr (hflag hv)
  · exact changesOnly_setRegister r v hr

/-- Values are loaded into as many registers as there are values. -/
theorem changesOnly_setFirstRegisters (values : List Int)
    (h : ∀ r : Register, r.val < values.length → S (.register r)) :
    m.ChangesOnly S (m.setFirstRegisters values) := by
  apply changesOnly_withRegisters
  intro r
  by_cases hr : r.val < values.length
  · exact Or.inl (h r hr)
  · right
    simp [register, List.getElem?_eq_none (Nat.le_of_not_lt hr)]

/-! ### Flow and index -/

theorem changesOnly_skipIf (condition : Bool) (h : S .pc) : m.ChangesOnly S (m.skipIf condition) := by
  unfold skipIf
  split
  · exact changesOnly_withPc _ h
  · exact changesOnly_refl

theorem changesOnly_returnFrom (hn : m.returnFrom = .ok n) (hpc : S .pc) (hstack : S .stack) :
    m.ChangesOnly S n := by
  obtain ⟨a, rest, -, rfl⟩ := of_returnFrom hn
  exact (changesOnly_withStack rest hstack).trans (changesOnly_withPc a hpc)

theorem changesOnly_callTo {a : Int} (hn : m.callTo a = .ok n) (hpc : S .pc) (hstack : S .stack) :
    m.ChangesOnly S n := by
  rw [of_callTo hn]
  exact (changesOnly_withStack (m.pc :: m.stack) hstack).trans (changesOnly_withPc a hpc)

theorem changesOnly_passBlock (variant : Variant) (count : Nat)
    (h : variant.transferMovesIndex = true → S .index) :
    m.ChangesOnly S (m.passBlock variant count) := by
  unfold passBlock
  split
  · next hv => exact changesOnly_withIndex _ (h hv)
  · exact changesOnly_refl

/-! ### Memory and screen -/

/-- Values are stored in as many bytes from the index register on as there are values. -/
theorem changesOnly_store {values : List Int} (hn : m.store values = .ok n)
    (h : ∀ a : Nat, m.index ≤ a ∧ a < m.index + values.length → S (.byte a)) :
    m.ChangesOnly S n := by
  unfold store at hn
  split at hn
  · cases hn
  · next bytes hbytes =>
    have hlen := Byte.length_of_ofInts? hbytes
    have hwrite := mapError_eq_ok_iff.mp hn
    by_cases hr : Memory.Refuses m.index bytes.length
    · rw [m.write_of_refuses hr] at hwrite
      cases hwrite
    · rw [m.write_of_not_refuses hr] at hwrite
      cases hwrite
      obtain ⟨hlo, -⟩ := Memory.not_refuses_iff.mp hr
      intro p hp
      cases p with
      | byte a =>
        have hout : a < m.index.toNat ∨ m.index.toNat + bytes.length ≤ a := by
          have := mt (h a) hp
          omega
        exact m.memory.byteAt_put_of_outside bytes hout
      | _ => rfl

theorem changesOnly_storeThrough {variant : Variant} {r : Register}
    (hn : m.storeThrough variant r = .ok n)
    (hbyte : ∀ a : Nat, m.index ≤ a ∧ a ≤ m.index + r.val → S (.byte a))
    (hindex : variant.transferMovesIndex = true → S .index) : m.ChangesOnly S n := by
  unfold storeThrough at hn
  simp only at hn
  split at hn <;> cases hn
  next hs =>
    refine (changesOnly_store hs ?_).trans (changesOnly_passBlock variant _ hindex)
    intro a ha
    have hlen : (m.firstRegisters (r.val + 1)).length ≤ r.val + 1 := List.length_take_le _ _
    exact hbyte a (by omega)

theorem changesOnly_loadThrough {variant : Variant} {r : Register}
    (hn : m.loadThrough variant r = .ok n) (hregister : ∀ q : Register, q ≤ r → S (.register q))
    (hindex : variant.transferMovesIndex = true → S .index) : m.ChangesOnly S n := by
  unfold loadThrough at hn
  simp only at hn
  split at hn <;> cases hn
  next bytes hread =>
    have hlen : bytes.length = r.val + 1 := by
      have := Memory.length_of_read_eq_ok (by omega) (mapError_eq_ok_iff.mp hread)
      omega
    refine (changesOnly_setFirstRegisters _ ?_).trans (changesOnly_passBlock variant _ hindex)
    intro q hq
    rw [List.length_map, hlen] at hq
    exact hregister q (Nat.le_of_lt_succ hq)

theorem changesOnly_drawSprite {x y : Int} {height : Nat} (hn : m.drawSprite x y height = .ok n)
    (hscreen : S .screen) (hflag : S (.register flagRegister)) : m.ChangesOnly S n := by
  unfold drawSprite at hn
  split at hn <;> cases hn
  exact (changesOnly_withScreen _ hscreen).trans (changesOnly_setRegister _ _ hflag)

/-! ### The wait for a key -/

theorem changesOnly_awaitKey {r : Register} (hn : m.awaitKey r = .ok n) (hpc : S .pc)
    (hr : S (.register r)) (hawaiting : S .awaitingKey) (hpending : S .pendingKey) :
    m.ChangesOnly S n := by
  have hbegin : m.ChangesOnly S m.beginWait := by
    unfold beginWait
    split
    · exact changesOnly_refl
    · exact changesOnly_withWait _ _ hawaiting hpending
  refine hbegin.trans ?_
  unfold awaitKey at hn
  generalize m.beginWait = begun at hn
  have hback : begun.ChangesOnly S (begun.advance (-2)) := changesOnly_withPc _ hpc
  -- the round looks for a candidate, goes back, or stores the candidate
  cases hp : begun.pendingKey with
  | none =>
    simp only [hp] at hn
    cases hn
    exact hback.trans (changesOnly_withWait _ _ hawaiting hpending)
  | some key =>
    simp only [hp] at hn
    split at hn
    · cases hn
    · split at hn <;> cases hn
      · exact hback
      · exact (changesOnly_setRegister r key hr).trans
          (changesOnly_withWait _ _ hawaiting hpending)

/-! ## Every instruction -/

/-- An instruction that succeeds changes only parts that it may write. -/
theorem changesOnly_of_apply {variant : Variant} {byte : UInt8} {i : Instruction}
    (hx : m.apply variant byte i = .ok n) : m.ChangesOnly (i.MayWrite variant m) n := by
  unfold apply at hx
  -- the rule that the word's row gives, in each of the 34 cases
  have hrows {op : Op} {row : Row} {rows : List Row} (hop : i.op = op) (hrow : op.row? = some row)
      (hmem : row ∈ rows) : i.FitsOneOf rows := Instruction.fitsOneOf_of_op hop hrow hmem
  cases hop : i.op with rw [hop] at hx
  | clearScreen =>
    cases hx
    exact changesOnly_withScreen _ (.screen (hrows hop rfl (by decide)))
  | ret =>
    exact changesOnly_returnFrom (mapError_eq_ok_iff.mp hx) (.pc (hrows hop rfl (by decide)))
      (.stack (hrows hop rfl (by decide)))
  | call =>
    exact changesOnly_callTo (mapError_eq_ok_iff.mp hx) (.pc (hrows hop rfl (by decide)))
      (.stack (hrows hop rfl (by decide)))
  | jump | jumpOffset =>
    cases hx
    exact changesOnly_withPc _ (.pc (hrows hop rfl (by decide)))
  | skipEqByte | skipNeByte | skipEqReg | skipNeReg | skipPressed | skipReleased =>
    cases hx
    exact changesOnly_skipIf _ (.pc (hrows hop rfl (by decide)))
  | loadByte | addByte | copyReg | random | readTimer =>
    cases hx
    exact changesOnly_setRegister _ _ (.operand (hrows hop rfl (by decide)))
  | bitOr | bitAnd | bitXor =>
    cases hx
    exact changesOnly_setBitwise _ _ _ (.result (hrows hop rfl (by decide)))
      (.reset (hrows hop rfl (by decide)))
  | addReg | subReg | shiftRight | subFrom | shiftLeft =>
    cases hx
    exact changesOnly_setRegister_setFlag _ _ _ (.result (hrows hop rfl (by decide)))
      (.carry (hrows hop rfl (by decide)))
  | setIndex | addIndex | pointGlyph =>
    cases hx
    exact changesOnly_withIndex _ (.index (hrows hop rfl (by decide)))
  | draw =>
    exact changesOnly_drawSprite (mapError_eq_ok_iff.mp hx)
      (.screen (hrows hop rfl (by decide))) (.collision ((Instruction.op_eq_iff rfl).mp hop))
  | setTimer =>
    cases hx
    exact changesOnly_withDelayTimer _ (.delayTimer ((Instruction.op_eq_iff rfl).mp hop))
  | awaitKey =>
    have hrow := (Instruction.op_eq_iff rfl).mp hop
    exact changesOnly_awaitKey hx (.pc (hrows hop rfl (by decide)))
      (.operand (hrows hop rfl (by decide))) (.awaitingKey hrow) (.pendingKey hrow)
  | storeDecimal =>
    apply changesOnly_store hx
    intro a ha
    have hlen : (decimalDigits (m.register i.x)).length = 3 := rfl
    exact .digit ((Instruction.op_eq_iff rfl).mp hop) (by omega)
  | storeRegs =>
    have hrow := (Instruction.op_eq_iff rfl).mp hop
    exact changesOnly_storeThrough hx (fun a ha => .stored hrow ha)
      (.moved (hrows hop rfl (by decide)))
  | loadRegs =>
    have hrow := (Instruction.op_eq_iff rfl).mp hop
    exact changesOnly_loadThrough (mapError_eq_ok_iff.mp hx) (fun r hr => .loaded hrow hr)
      (.moved (hrows hop rfl (by decide)))
  | unknown =>
    cases hx
    exact changesOnly_refl

/-- An instruction other than a call and a return leaves the stack. -/
theorem stack_of_apply {variant : Variant} {byte : UInt8} {i : Instruction} (hcall : i.op ≠ .call)
    (hret : i.op ≠ .ret) (hx : m.apply variant byte i = .ok n) : n.stack = m.stack := by
  apply changesOnly_of_apply hx .stack
  intro hw
  cases hw with
  | stack h =>
    have hop : i.op ∈ [.call, .ret] := Instruction.op_mem_of_fitsOneOf h
    rcases List.mem_cons.mp hop with hop | hop
    · exact hcall hop
    · exact hret (List.mem_singleton.mp hop)

/-- An instruction other than the key wait begins no wait and ends none. -/
theorem awaitingKey_of_apply {variant : Variant} {byte : UInt8} {i : Instruction}
    (hwait : i.op ≠ .awaitKey) (hx : m.apply variant byte i = .ok n) :
    n.awaitingKey = m.awaitingKey := by
  apply changesOnly_of_apply hx .awaitingKey
  intro hw
  cases hw with
  | awaitingKey h => exact hwait ((Instruction.op_eq_iff rfl).mpr h)

end Machine

end Chip8
