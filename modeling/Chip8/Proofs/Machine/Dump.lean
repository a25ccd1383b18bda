/-
# Chip8.Proofs.Machine.Dump — the ranges of a machine, read off its plain data.

`Dump.IsBounded` states the sizes and the ranges of a state without a word about the types behind it.
A machine in range has a bounded dump.  A bounded dump passes every check of `Dump.isSound` but one:
it is sound exactly when its font is undamaged.
-/
import Chip8.Machine.Dump
import Chip8.Proofs.Machine.InRange

namespace Chip8

/-- The sizes and the ranges of a state as plain data. -/
structure Dump.IsBounded (d : Dump) : Prop where
  memory_size : d.memory.length = 4096
  register_count : d.registers.length = 16
  registers : ∀ v ∈ d.registers, 0 ≤ v ∧ v ≤ 255
  index : 0 ≤ d.index ∧ d.index ≤ 0xFFFF
  pc : 0 ≤ d.pc ∧ d.pc ≤ 0x1002
  depth : d.stack.length ≤ 12
  returns : ∀ a ∈ d.stack, 2 ≤ a ∧ a ≤ 0x1000
  delayTimer : 0 ≤ d.delayTimer ∧ d.delayTimer ≤ 255
  cell_count : d.cells.length = 2048
  cells : ∀ c ∈ d.cells, c = 0 ∨ c = 1
  key_count : d.keys.length = 16
  candidate : ∀ k, d.pendingKey = some k → 0 ≤ k ∧ k ≤ 15
  candidate_awaited : d.pendingKey ≠ none → d.awaitingKey = true

/-- The bytes on the screen are its cells. -/
theorem Screen.IsBinary.mem_toList {s : Screen} (h : s.IsBinary) {c : UInt8}
    (hc : c ∈ s.toList) : c = 0 ∨ c = 1 := by
  obtain ⟨k, hk, rfl⟩ := List.mem_iff_getElem.mp hc
  have hsize : k < s.cells.toArray.size := by
    simpa only [toList, Vector.length_toList, Vector.size_toArray] using hk
  have hcell := h k
  rw [cellAt, Array.getD_eq_getD_getElem?, Array.getElem?_eq_getElem hsize,
    Option.getD_some] at hcell
  exact hcell

theorem Machine.InRange.dump {m : Machine} (h : m.InRange) : m.dump.IsBounded where
  memory_size := m.memory.bytes.length_toList
  register_count := m.registers.length_toList
  registers := by
    intro v hv
    obtain ⟨k, hk, rfl⟩ := List.mem_iff_getElem.mp hv
    have hk16 : k < 16 := by
      simpa only [Machine.dump, Vector.length_toList] using hk
    exact h.registers ⟨k, hk16⟩
  index := h.index
  pc := h.pc
  depth := by
    show m.stack.reverse.length ≤ 12
    rw [List.length_reverse]
    exact h.depth
  returns := by
    intro a ha
    exact h.returns a (List.mem_reverse.mp ha)
  delayTimer := h.delayTimer
  cell_count := m.screen.cells.length_toList
  cells := fun _ hc => h.cells.mem_toList hc
  key_count := m.keypad.down.length_toList
  candidate := by
    intro k hk
    obtain ⟨⟨hlo, hhi⟩, -⟩ := h.candidate k hk
    exact ⟨hlo, by omega⟩
  candidate_awaited := by
    intro hne
    obtain ⟨k, hk⟩ := Option.ne_none_iff_exists'.mp hne
    exact (h.candidate k hk).2

/-- Of a bounded dump nothing is left to be checked but the font. -/
theorem Dump.IsBounded.isSound_iff {d : Dump} (h : d.IsBounded) :
    d.isSound = true ↔ d.memory.take 80 = Font.bytes := by
  have hregisters : d.registers.all isByte = true := by
    rw [List.all_eq_true]
    intro v hv
    exact decide_eq_true (h.registers v hv)
  have hindex : isWord d.index = true := by
    simp only [isWord, decide_eq_true h.index.1, decide_eq_true h.index.2, Bool.and_self]
  have hpc : isWord d.pc = true := by
    have hhi : d.pc ≤ 0xFFFF := by
      have := h.pc.2
      omega
    simp only [isWord, decide_eq_true h.pc.1, decide_eq_true hhi, Bool.and_self]
  have hdepth : decide (d.stack.length ≤ stackCapacity) = true := decide_eq_true h.depth
  have htimer : isByte d.delayTimer = true := decide_eq_true h.delayTimer
  have hwait : d.hasSoundWait = true := by
    unfold hasSoundWait
    cases hp : d.pendingKey with
    | none => rfl
    | some k =>
      obtain ⟨hlo, hhi⟩ := h.candidate k hp
      have hlt : k < 16 := by omega
      have haw : d.awaitingKey = true := h.candidate_awaited (by rw [hp]; exact Option.some_ne_none k)
      simp only [decide_eq_true hlo, decide_eq_true hlt, haw, Bool.and_self]
  have hfont : d.hasFont = true ↔ d.memory.take 80 = Font.bytes := by
    unfold hasFont
    rw [beq_iff_eq]
    rfl
  rw [← hfont]
  unfold isSound
  simp only [h.memory_size, h.register_count, h.cell_count, h.key_count, hregisters, hindex, hpc,
    hdepth, htimer, hwait, memorySize, screenSize, screenWidth, screenHeight, beq_self_eq_true,
    Bool.true_and, Bool.and_true]

end Chip8
