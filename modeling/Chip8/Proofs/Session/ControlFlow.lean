/-
# Chip8.Proofs.Session.ControlFlow — where the program counter stands after a cycle.

The program counter is moved twice in a cycle, by the fetch and then by the instruction, which goes to an
address, skips, steps back, or leaves it.  `Machine.GoesTo` says by the rows of the opcode table what
both moves come to, read off the machine in front of the cycle and without any wrapping.  One lemma for
each way an instruction can go shows that it goes there, and as there is always a way, it goes nowhere
else.

Skips come in pairs that ask opposite questions of the same operands.  Whether a word skips does not
depend on memory, so that either word of a pair may be put at the program counter of the same session;
one of the two then skips and the other does not.
-/
import Chip8.Proofs.Machine.Writes
import Chip8.Proofs.Program.Image
import Chip8.Proofs.Session.InRange

namespace Chip8

/-! ## The ways to go -/

namespace Machine

/-- The instruction skips the next one: it is a skip, and its condition holds of the machine. -/
def Skips (m : Machine) (i : Instruction) : Prop :=
  match i.family with
  | 0x3 => m.register i.x = i.byte
  | 0x4 => m.register i.x ≠ i.byte
  | 0x5 => i.nibble = 0x0 ∧ m.register i.x = m.register i.y
  | 0x9 => m.register i.x ≠ m.register i.y
  | 0xE =>
    (i.byte = 0x9E ∧ m.keypad.isDown (m.keyOf i.x) = true) ∨
      (i.byte = 0xA1 ∧ m.keypad.isDown (m.keyOf i.x) = false)
  | _ => False

/-- The next round of a key wait ends it: the wait has a candidate, which is up again. -/
def EndsWait (m : Machine) : Prop :=
  m.awaitingKey = true ∧ ∃ k : Key, m.pendingKey = some (k.val : Int) ∧ m.keypad.isDown k = false

/-- A cycle that executes the instruction on the machine ends with this program counter. -/
inductive GoesTo (m : Machine) (i : Instruction) : Int → Prop where
  /-- `1NNN` and `2NNN` go to their address. -/
  | target (hi : i.FitsOneOf [.family 0x1, .family 0x2]) : GoesTo m i i.address
  /-- `BNNN` adds `V0` to its address, within twelve bits. -/
  | offset (hi : (Row.family 0xB).Fits i) :
      GoesTo m i ((m.register firstRegister + i.address) % 4096)
  /-- `0?EE` goes to the latest return address. -/
  | back {a : Int} {rest : List Int} (hi : (Row.byte 0x0 0xEE).Fits i) (hs : m.stack = a :: rest) :
      GoesTo m i a
  /-- `FX0A` goes to itself in every round but the last. -/
  | again (hi : (Row.byte 0xF 0x0A).Fits i) (hw : ¬ m.EndsWait) : GoesTo m i m.pc
  | skip (hs : m.Skips i) : GoesTo m i (m.pc + 4)
  /-- All others go to the next instruction. -/
  | onward (hjump : ¬ i.FitsOneOf Instruction.jumpRows)
      (hw : (Row.byte 0xF 0x0A).Fits i → m.EndsWait) (hs : ¬ m.Skips i) : GoesTo m i (m.pc + 2)

/-! ## What instructions do to the program counter -/

section Applied

variable {m n : Machine} {variant : Variant} {byte : UInt8} {i : Instruction}

theorem pc_of_target (hi : i.FitsOneOf [.family 0x1, .family 0x2])
    (hx : m.apply variant byte i = .ok n) : n.pc = i.address := by
  have hop : i.op ∈ [.jump, .call] := Instruction.op_mem_of_fitsOneOf hi
  rcases List.mem_cons.mp hop with hop | hop
  · rw [apply_of_op hop] at hx
    cases hx
    rfl
  · rw [of_callTo (callTo_of_apply (List.mem_singleton.mp hop) hx)]

theorem pc_of_offset (hi : (Row.family 0xB).Fits i) (hx : m.apply variant byte i = .ok n) :
    n.pc = (m.register firstRegister + i.address) % 4096 := by
  have hop : i.op = .jumpOffset := Instruction.op_of_fits rfl hi
  rw [apply_of_op hop] at hx
  cases hx
  rfl

/-- A return that succeeds finds a return address and goes there. -/
theorem pc_of_back (hi : (Row.byte 0x0 0xEE).Fits i) (hx : m.apply variant byte i = .ok n) :
    ∃ a rest, m.stack = a :: rest ∧ n.pc = a := by
  have hop : i.op = .ret := Instruction.op_of_fits rfl hi
  obtain ⟨a, rest, hs, rfl⟩ := of_returnFrom (returnFrom_of_apply hop hx)
  exact ⟨a, rest, hs, rfl⟩

/-- Only a skip skips. -/
theorem Skips.fitsOneOf (h : m.Skips i) : i.FitsOneOf Instruction.skipRows := by
  unfold Skips at h
  split at h
  case h_1 hf => exact ⟨.family 0x3, by decide, hf⟩
  case h_2 hf => exact ⟨.family 0x4, by decide, hf⟩
  case h_3 hf => exact ⟨.nibble 0x5 0x0, by decide, hf, h.1⟩
  case h_4 hf => exact ⟨.family 0x9, by decide, hf⟩
  case h_5 hf =>
    rcases h with ⟨hb, -⟩ | ⟨hb, -⟩
    · exact ⟨.byte 0xE 0x9E, by decide, hf, hb⟩
    · exact ⟨.byte 0xE 0xA1, by decide, hf, hb⟩
  case h_6 => exact h.elim

/-- A skip asks for its condition and does nothing else. -/
theorem apply_of_skipRow (variant : Variant) (byte : UInt8)
    (hi : i.FitsOneOf Instruction.skipRows) :
    ∃ c : Bool, (c = true ↔ m.Skips i) ∧ m.apply variant byte i = .ok (m.skipIf c) := by
  obtain ⟨row, hrow, hfits⟩ := hi
  simp only [Instruction.skipRows, List.mem_cons, List.not_mem_nil, or_false] at hrow
  rcases hrow with rfl | rfl | rfl | rfl | rfl | rfl
  · have hf : i.family = 0x3 := hfits
    have hop : i.op = .skipEqByte := Instruction.op_of_fits rfl hfits
    rw [apply_of_op hop]
    refine ⟨m.register i.x == i.byte, ?_, rfl⟩
    simp only [Skips, hf, beq_iff_eq]
  · have hf : i.family = 0x4 := hfits
    have hop : i.op = .skipNeByte := Instruction.op_of_fits rfl hfits
    rw [apply_of_op hop]
    refine ⟨m.register i.x != i.byte, ?_, rfl⟩
    simp only [Skips, hf, bne_iff_ne]
  · obtain ⟨hf, hn⟩ := hfits
    have hop : i.op = .skipEqReg := Instruction.op_of_fits rfl ⟨hf, hn⟩
    rw [apply_of_op hop]
    refine ⟨m.register i.x == m.register i.y, ?_, rfl⟩
    simp only [Skips, hf, hn, true_and, beq_iff_eq]
  · have hf : i.family = 0x9 := hfits
    have hop : i.op = .skipNeReg := Instruction.op_of_fits rfl hfits
    rw [apply_of_op hop]
    refine ⟨m.register i.x != m.register i.y, ?_, rfl⟩
    simp only [Skips, hf, bne_iff_ne]
  · obtain ⟨hf, hb⟩ := hfits
    have hop : i.op = .skipPressed := Instruction.op_of_fits rfl ⟨hf, hb⟩
    rw [apply_of_op hop]
    refine ⟨m.keypad.isDown (m.keyOf i.x), ?_, rfl⟩
    simp [Skips, hf, hb]
  · obtain ⟨hf, hb⟩ := hfits
    have hop : i.op = .skipReleased := Instruction.op_of_fits rfl ⟨hf, hb⟩
    rw [apply_of_op hop]
    refine ⟨!m.keypad.isDown (m.keyOf i.x), ?_, rfl⟩
    simp [Skips, hf, hb]

/-- The last round of a key wait leaves the program counter; every other round takes it back. -/
theorem awaitKey_cases (h : m.InRange) {r : Register} (hn : m.awaitKey r = .ok n) :
    (m.EndsWait ∧ n.pc = m.pc ∧ n.awaitingKey = false) ∨
      (¬ m.EndsWait ∧ n.pc = (m.advance (-2)).pc ∧ n.awaitingKey = true) := by
  rcases h.wait_cases with hc | ⟨haw, k, hk⟩
  · rw [awaitKey_of_no_candidate r hc] at hn
    cases hn
    right
    refine ⟨?_, rfl, rfl⟩
    rintro ⟨haw, k, hk, -⟩
    rw [hc haw] at hk
    cases hk
  · rw [awaitKey_of_candidate r haw hk] at hn
    split at hn
    · next hdown =>
      cases hn
      right
      refine ⟨?_, rfl, haw⟩
      rintro ⟨-, j, hj, hup⟩
      -- the candidate that is up would be the one that is down
      rw [hk] at hj
      have hjk : k = j := Fin.ext (Int.ofNat.inj (Option.some.inj hj))
      rw [hjk, hup] at hdown
      cases hdown
    · next hup =>
      cases hn
      exact Or.inl ⟨⟨haw, k, hk, Bool.eq_false_iff.mpr hup⟩, rfl, rfl⟩

/-- Instructions of no other row leave the program counter. -/
theorem pc_of_plain (hjump : ¬ i.FitsOneOf Instruction.jumpRows)
    (hskip : ¬ i.FitsOneOf Instruction.skipRows) (hwait : ¬ (Row.byte 0xF 0x0A).Fits i)
    (hx : m.apply variant byte i = .ok n) : n.pc = m.pc := by
  apply changesOnly_of_apply hx .pc
  intro hw
  cases hw with
  | pc h =>
    obtain ⟨row, hrow, hfits⟩ := h
    simp only [List.mem_append, List.mem_singleton] at hrow
    rcases hrow with (hrow | hrow) | rfl
    · exact hjump ⟨row, hrow, hfits⟩
    · exact hskip ⟨row, hrow, hfits⟩
    · exact hwait hfits

theorem awaitKey_of_apply (hi : (Row.byte 0xF 0x0A).Fits i) (hx : m.apply variant byte i = .ok n) :
    m.awaitKey i.x = .ok n := by
  have hop : i.op = .awaitKey := Instruction.op_of_fits rfl hi
  rw [apply_of_op hop] at hx
  exact hx

end Applied

/-! ## The fetch and the instruction together -/

section Fetched

variable {m f n : Machine} {variant : Variant} {byte : UInt8} {i : Instruction}

theorem pc_skipIf_of_fetch (h : m.InRange) (hf : m.fetch = .ok (i, f)) (c : Bool) :
    (f.skipIf c).pc = if c then m.pc + 4 else m.pc + 2 := by
  obtain ⟨hpc, hskip, -⟩ := h.no_wrap hf
  cases c with
  | false => exact hpc
  | true =>
    show (f.advance 2).pc = m.pc + 4
    omega

/-- An instruction that succeeds goes every way that it can go. -/
theorem pc_of_goesTo (h : m.InRange) (hf : m.fetch = .ok (i, f))
    (hx : f.apply variant byte i = .ok n) {a : Int} (ha : m.GoesTo i a) : n.pc = a := by
  obtain ⟨hpc, -, hback⟩ := h.no_wrap hf
  have hskipIf := pc_skipIf_of_fetch h hf
  have hrange := (h.fetch hf).1
  -- the fetch has moved the counter and left what the ways are read off
  obtain rfl := eq_of_fetch hf
  cases ha with
  | target hi => exact pc_of_target hi hx
  | offset hi =>
    have hn := pc_of_offset hi hx
    exact hn
  | back hi hs =>
    obtain ⟨b, more, hs', hb⟩ := pc_of_back hi hx
    cases hs.symm.trans hs'
    exact hb
  | again hi hw =>
    rcases awaitKey_cases hrange (awaitKey_of_apply hi hx) with ⟨hends, -⟩ | ⟨-, hn, -⟩
    · exact (hw hends).elim
    · omega
  | skip hs =>
    obtain ⟨c, hc, happly⟩ := apply_of_skipRow variant byte hs.fitsOneOf
    cases happly.symm.trans hx
    rw [hskipIf, if_pos (hc.mpr hs)]
  | onward hjump hw hs =>
    by_cases hskip : i.FitsOneOf Instruction.skipRows
    · obtain ⟨c, hc, happly⟩ := apply_of_skipRow variant byte hskip
      cases happly.symm.trans hx
      rw [hskipIf, if_neg (mt hc.mp hs)]
    · by_cases hwait : (Row.byte 0xF 0x0A).Fits i
      · rcases awaitKey_cases hrange (awaitKey_of_apply hwait hx) with ⟨-, hn, -⟩ | ⟨hends, -⟩
        · exact hn
        · exact (hends (hw hwait)).elim
      · exact pc_of_plain hjump hskip hwait hx

/-- An instruction that succeeds has a way to go. -/
theorem exists_goesTo (hf : m.fetch = .ok (i, f)) (hx : f.apply variant byte i = .ok n) :
    ∃ a, m.GoesTo i a := by
  by_cases hjump : i.FitsOneOf Instruction.jumpRows
  · obtain ⟨row, hrow, hfits⟩ := hjump
    simp only [Instruction.jumpRows, List.mem_cons, List.not_mem_nil, or_false] at hrow
    rcases hrow with rfl | rfl | rfl | rfl
    · exact ⟨_, .target ⟨_, by decide, hfits⟩⟩
    · exact ⟨_, .offset hfits⟩
    · exact ⟨_, .target ⟨_, by decide, hfits⟩⟩
    · obtain ⟨a, rest, hs, -⟩ := pc_of_back hfits hx
      rw [eq_of_fetch hf] at hs
      exact ⟨a, .back hfits hs⟩
  · by_cases hs : m.Skips i
    · exact ⟨_, .skip hs⟩
    · by_cases hw : (Row.byte 0xF 0x0A).Fits i → m.EndsWait
      · exact ⟨_, .onward hjump hw hs⟩
      · obtain ⟨hi, hw⟩ := Classical.not_imp.mp hw
        exact ⟨_, .again hi hw⟩

theorem goesTo_iff (h : m.InRange) (hf : m.fetch = .ok (i, f))
    (hx : f.apply variant byte i = .ok n) {a : Int} : m.GoesTo i a ↔ n.pc = a := by
  constructor
  · intro ha
    exact pc_of_goesTo h hf hx ha
  · rintro rfl
    obtain ⟨a, ha⟩ := exists_goesTo hf hx
    rw [pc_of_goesTo h hf hx ha]
    exact ha

end Fetched

end Machine

/-! ## Opposite skips -/

/-- Two skips that ask opposite questions of the same operands. -/
inductive Instruction.Opposite (i j : Instruction) : Prop where
  /-- `3XNN` and `4XNN`. -/
  | byte (hi : (Row.family 0x3).Fits i) (hj : (Row.family 0x4).Fits j) (hx : j.x = i.x)
      (hb : j.byte = i.byte)
  /-- `5XY0` and `9XYn`, with any last digit. -/
  | register (hi : (Row.nibble 0x5 0x0).Fits i) (hj : (Row.family 0x9).Fits j) (hx : j.x = i.x)
      (hy : j.y = i.y)
  /-- `EX9E` and `EXA1`. -/
  | key (hi : (Row.byte 0xE 0x9E).Fits i) (hj : (Row.byte 0xE 0xA1).Fits j) (hx : j.x = i.x)

namespace Instruction.Opposite

variable {i j : Instruction}

theorem fitsOneOf (h : i.Opposite j) : i.FitsOneOf skipRows ∧ j.FitsOneOf skipRows := by
  cases h with
  | byte hi hj | register hi hj | key hi hj =>
    exact ⟨⟨_, by decide, hi⟩, ⟨_, by decide, hj⟩⟩

/-- On any machine exactly one of the two skips. -/
theorem skips_iff (h : i.Opposite j) (m : Machine) : m.Skips j ↔ ¬ m.Skips i := by
  cases h with
  | byte hi hj hx hb =>
    have hf : i.family = 0x3 := hi
    have hg : j.family = 0x4 := hj
    simp only [Machine.Skips, hf, hg, hx, hb]
  | register hi hj hx hy =>
    obtain ⟨hf, hn⟩ := hi
    have hg : j.family = 0x9 := hj
    simp only [Machine.Skips, hf, hg, hn, hx, hy, true_and]
  | key hi hj hx =>
    obtain ⟨hf, hb⟩ := hi
    obtain ⟨hg, hc⟩ := hj
    simp [Machine.Skips, hf, hg, hb, hc, hx]

end Instruction.Opposite

/-! ## Words at the program counter -/

namespace Machine

/-- The machine with the word of an instruction put at its program counter. -/
def holding (m : Machine) (i : Instruction) : Machine :=
  { m with memory := m.memory.put m.pc.toNat (Program.imageOf [i.word]) }

theorem fetch_holding {m : Machine} (i : Instruction) (hlo : 0 ≤ m.pc) (hend : m.pc + 2 ≤ 4096) :
    (m.holding i).fetch = .ok (i, { m.holding i with pc := m.pc + 2 }) := by
  have hfits : m.pc.toNat + (Program.imageOf [i.word]).length ≤ memorySize := by
    rw [Program.length_imageOf, List.length_singleton]
    unfold memorySize
    omega
  have hhigh : (m.holding i).memory.byteAt m.pc.toNat = (i.word >>> 8).toUInt8 :=
    m.memory.byteAt_put_of_inside (k := 0) _ hfits Nat.zero_lt_two
  have hlow : (m.holding i).memory.byteAt (m.pc.toNat + 1) = i.word.toUInt8 :=
    m.memory.byteAt_put_of_inside (k := 1) _ hfits Nat.one_lt_two
  refine (fetch_eq_ok_iff (m := m.holding i) hlo).mpr ⟨hend, ?_, rfl⟩
  show i = .ofBytes ((m.holding i).memory.byteAt m.pc.toNat)
    ((m.holding i).memory.byteAt (m.pc.toNat + 1))
  rw [hhigh, hlow, Instruction.ofBytes_word]

end Machine

namespace Session

/-! ## One cycle -/

/-- A cycle that answers has executed what it fetched; the hook may have stopped the machine. -/
theorem StepEnds.of_ok {s t : Session} {i : Instruction} (ht : s.StepEnds t (.ok i)) :
    ∃ m n byte runState, s.machine.fetch = .ok (i, m) ∧ m.apply s.setup.variant byte i = .ok n ∧
      t.machine = { n with runState } := by
  cases ht with
  | passed journal hf hi hh => exact ⟨_, _, 0, _, hf, apply_unknown hi, rfl⟩
  | executed journal hf hi hx => exact ⟨_, _, _, _, hf, hx, rfl⟩

theorem running_of_step_ok {s : Session} {i : Instruction} (hr : s.step.result = .ok i) :
    s.machine.runState = .running := by
  by_contra h
  rw [step_of_not_running h] at hr
  cases hr

/-- The session with the word of an instruction put at its program counter. -/
def holding (s : Session) (i : Instruction) : Session :=
  s.edit (·.holding i)

/-- A skip that is put at the program counter of a running session is executed and goes one of its two
ways. -/
theorem step_holding {s : Session} (h : s.machine.InRange) (hr : s.machine.runState = .running)
    (hend : s.machine.pc + 2 ≤ 4096) {i : Instruction} (hi : i.FitsOneOf Instruction.skipRows) :
    (s.holding i).step.result = .ok i ∧
      (s.machine.Skips i → (s.holding i).step.session.machine.pc = s.machine.pc + 4) ∧
      (¬ s.machine.Skips i → (s.holding i).step.session.machine.pc = s.machine.pc + 2) := by
  have hf := Machine.fetch_holding i h.pc.1 hend
  have hknown : i.op ≠ .unknown := by
    have hop : i.op ∈
        [.skipEqByte, .skipNeByte, .skipEqReg, .skipNeReg, .skipPressed, .skipReleased] :=
      Instruction.op_mem_of_fitsOneOf hi
    exact ne_of_mem_of_not_mem hop (by decide)
  -- whether it skips is read off registers and keys, which the word in memory leaves
  obtain ⟨c, hc, happly⟩ := Machine.apply_of_skipRow
    (m := { s.machine.holding i with pc := s.machine.pc + 2 }) s.setup.variant
    (s.source.drawFor i).1 hi
  obtain ⟨hresult, journal, ht⟩ := (step_ends (s := s.holding i) hr).of_apply hf hknown happly
  have hpc : (s.holding i).step.session.machine.pc =
      if c then s.machine.pc + 4 else s.machine.pc + 2 := by
    rw [ht]
    exact Machine.pc_skipIf_of_fetch (h.withMemory _) hf c
  refine ⟨hresult, ?_, ?_⟩
  · intro hs
    rw [hpc, if_pos (hc.mpr hs)]
  · intro hs
    rw [hpc, if_neg (mt hc.mp hs)]

/-! ## Every reachable session -/

/-- What a cycle that answers with an instruction does to the program counter. -/
structure ControlFlow (s : Session) (i : Instruction) : Prop where
  /-- The instruction is the one that the program counter stands at. -/
  current : i = s.machine.current
  /-- It lies inside memory. -/
  inside : 0 ≤ s.machine.pc ∧ s.machine.pc + 2 ≤ 4096
  /-- The cycle goes where the instruction goes, and nowhere else. -/
  goes : ∀ a, s.machine.GoesTo i a ↔ s.step.session.machine.pc = a
  /-- The program counter stays far below sixteen bits. -/
  range : 0 ≤ s.step.session.machine.pc ∧ s.step.session.machine.pc ≤ 0x1002
  /-- A key wait is over after the round that is told to end it, and after no other. -/
  completes : (Row.byte 0xF 0x0A).Fits i →
    (s.machine.EndsWait ↔ s.step.session.machine.awaitingKey = false)

/-- Put at the program counter of the session, both instructions are executed, and exactly one of them
skips. -/
structure OneSkips (s : Session) (i j : Instruction) : Prop where
  first : (s.holding i).step.result = .ok i
  second : (s.holding j).step.result = .ok j
  oneSkips :
    ((s.holding i).step.session.machine.pc = s.machine.pc + 4 ∧
        (s.holding j).step.session.machine.pc = s.machine.pc + 2) ∨
      ((s.holding i).step.session.machine.pc = s.machine.pc + 2 ∧
        (s.holding j).step.session.machine.pc = s.machine.pc + 4)

theorem controlFlow_of_inRange {s : Session} (h : s.machine.InRange) {i : Instruction}
    (hr : s.step.result = .ok i) : s.ControlFlow i := by
  have hends := step_ends (running_of_step_ok hr)
  rw [hr] at hends
  obtain ⟨m, n, byte, runState, hf, hx, ht⟩ := hends.of_ok
  obtain ⟨hend, hcurrent, -⟩ := (Machine.fetch_eq_ok_iff h.pc.1).mp hf
  refine ⟨hcurrent, ⟨h.pc.1, hend⟩, ?_, (inRange_step h).pc, ?_⟩
  · intro a
    rw [ht]
    exact Machine.goesTo_iff h hf hx
  · intro hi
    have hcases := Machine.awaitKey_cases (h.fetch hf).1 (Machine.awaitKey_of_apply hi hx)
    obtain rfl := Machine.eq_of_fetch hf
    rw [ht]
    rcases hcases with ⟨hw, -, hn⟩ | ⟨hw, -, hn⟩
    · exact iff_of_true hw hn
    · exact iff_of_false hw (by simp [hn])

theorem oneSkips_of_inRange {s : Session} (h : s.machine.InRange)
    (hr : s.machine.runState = .running) (hend : s.machine.pc + 2 ≤ 4096) {i j : Instruction}
    (hij : i.Opposite j) : s.OneSkips i j := by
  obtain ⟨hi, hj⟩ := hij.fitsOneOf
  obtain ⟨hfirst, hover, hnext⟩ := step_holding h hr hend hi
  obtain ⟨hsecond, hover', hnext'⟩ := step_holding h hr hend hj
  refine ⟨hfirst, hsecond, ?_⟩
  have hskips := hij.skips_iff s.machine
  by_cases hs : s.machine.Skips i
  · exact Or.inl ⟨hover hs, hnext' fun hs' => hskips.mp hs' hs⟩
  · exact Or.inr ⟨hnext hs, hover' (hskips.mpr hs)⟩

/-- **Control flow of one cycle.** In every reachable session a cycle that answers goes where its
instruction goes: to the address of a jump or a call, to the latest return address, back to a key wait
that is not over, over the next instruction or to it.  Nothing wraps.  Of two opposite skips exactly one
skips. -/
theorem cycle_goes_where_its_instruction_goes {s : Session}
    (h : s.ReachableBy Command.IsHostCall) {i : Instruction} (hr : s.step.result = .ok i) :
    s.ControlFlow i ∧ ∀ j k : Instruction, j.Opposite k → s.OneSkips j k := by
  have hflow := controlFlow_of_inRange h.inRange hr
  refine ⟨hflow, ?_⟩
  intro j k hjk
  exact oneSkips_of_inRange h.inRange (running_of_step_ok hr) hflow.inside.2 hjk

/-- A program that jumps to the last two bytes of memory finds a word outside the instruction set there and
goes to the address behind memory.  With `3A00` in its place the cycle skips beyond that address, as `VA` is
zero, and with `4A00` it does not. -/
theorem cycle_goes_where_its_instruction_goes_at_end :
    ∃ s : Session, s.ReachableBy Command.IsHostCall ∧ s.machine.pc = 0xFFE ∧
      s.step.result = .ok ⟨0x0000⟩ ∧ s.machine.GoesTo ⟨0x0000⟩ 0x1000 ∧
      s.OneSkips ⟨0x3A00⟩ ⟨0x4A00⟩ ∧
      (s.holding ⟨0x3A00⟩).step.session.machine.pc = 0x1002 := by
  obtain ⟨s, hreach, hstart, hresult, hpc, hskip⟩ : ∃ s : Session,
      s.ReachableBy Command.IsHostCall ∧ s.machine.pc = 0xFFE ∧ s.step.result = .ok ⟨0x0000⟩ ∧
        s.step.session.machine.pc = 0x1000 ∧
        (s.holding ⟨0x3A00⟩).step.session.machine.pc = 0x1002 :=
    ⟨(((Session.start ⟨.standard, .standard, true, none⟩ none (.ofList [])).perform 0
      (.load [0x1F, 0xFE])).session.perform 0 .step).session,
      .perform 0 (.perform 0 (.start _ _ _) trivial) trivial, by decide +kernel,
      by decide +kernel, by decide +kernel, by decide +kernel⟩
  obtain ⟨hflow, hopposite⟩ := cycle_goes_where_its_instruction_goes hreach hresult
  exact ⟨s, hreach, hstart, hresult, (hflow.goes 0x1000).mpr hpc,
    hopposite _ _ (.byte rfl rfl rfl rfl), hskip⟩

end Session

end Chip8
