/-
# Chip8.Proofs.Session.InRange — every session that a host can bring about has its machine in range.

The ranges of `Machine.InRange` hold of a fresh machine and are kept by every end of a cycle and by
every other call on the session.  A cycle is the one place where they need the tighter bounds: a fetch
leaves the program counter between 2 and `0x1000`, and that is where a call pushes it, a skip adds to
it and a key wait takes it back.

`reachable_bounded` reads the result off the plain data of a machine.  As a source can hand out any
bytes (`ByteSource.stream_ofList`) and the setup is arbitrary, it covers every choice of variant,
pacing, tracing, hook and chance.
-/
import Chip8.Proofs.Machine.Dump
import Chip8.Proofs.Session.History

namespace Chip8

namespace Machine.InRange

variable {m : Machine}

/-- A fetch keeps the ranges and leaves the program counter behind an instruction. -/
theorem fetch (h : m.InRange) {i : Instruction} {n : Machine} (hf : m.fetch = .ok (i, n)) :
    n.InRange ∧ 2 ≤ n.pc ∧ n.pc ≤ 0x1000 := by
  have hlo := h.pc.1
  obtain ⟨hend, -, rfl⟩ := (fetch_eq_ok_iff hlo).mp hf
  refine ⟨{ h with pc := ?_ }, ?_, ?_⟩
  · show 0 ≤ m.pc + 2 ∧ m.pc + 2 ≤ 0x1002
    omega
  · show 2 ≤ m.pc + 2
    omega
  · show m.pc + 2 ≤ 0x1000
    omega

theorem handled (h : m.InRange) {n : Machine} (hn : m.Handled n) : n.InRange := by
  cases hn with
  | same => exact h
  | ticked => exact h.tick
  | runState r => exact h.withRunState r
  | keypad p => exact h.withKeypad p

/-- The program counter never comes near the width of sixteen bits, so that neither a fetch, nor a skip
behind it, nor the step back of a key wait wraps. -/
theorem no_wrap (h : m.InRange) {i : Instruction} {n : Machine} (hf : m.fetch = .ok (i, n)) :
    n.pc = m.pc + 2 ∧ (n.advance 2).pc = n.pc + 2 ∧ (n.advance (-2)).pc = n.pc - 2 := by
  obtain ⟨-, hlo, hhi⟩ := h.fetch hf
  obtain ⟨-, -, hn⟩ := (fetch_eq_ok_iff h.pc.1).mp hf
  refine ⟨by rw [hn], ?_, ?_⟩
  · show (n.pc + 2) % 65536 = n.pc + 2
    omega
  · show (n.pc + -2) % 65536 = n.pc - 2
    omega

end Machine.InRange

namespace Session

/-! ## Calls keep the ranges -/

/-- However a cycle ends, the machine stays in range. -/
theorem StepEnds.inRange {s t : Session} {result : Except SessionError Instruction}
    (h : s.machine.InRange) (ht : s.StepEnds t result) : t.machine.InRange := by
  cases ht with
  | unfetched journal hf => exact h.withRunState .halted
  | hookFaulted journal hf hi hh => exact (h.fetch hf).1.withRunState .halted
  | brokenOff journal hf hi hh => exact (h.fetch hf).1
  | passed journal hf hi hh => exact (h.fetch hf).1.withRunState _
  | faulted journal hf hi hx => exact (h.fetch hf).1.withRunState .halted
  | misfit journal hf hi hx => exact (h.fetch hf).1
  | executed journal hf hi hx =>
    obtain ⟨hm, hlo, hhi⟩ := h.fetch hf
    exact hm.primitive hlo hhi hx

theorem inRange_step {s : Session} (h : s.machine.InRange) : s.step.session.machine.InRange := by
  by_cases hr : s.machine.runState = .running
  · exact (step_ends hr).inRange h
  · rw [step_of_not_running hr]
    exact h

/-- However a single call ends, whether it succeeds or fails, the machine stays in range. -/
theorem CallEnds.inRange {s t : Session} {c : Command} (h : s.machine.InRange)
    (ht : s.CallEnds c t) : t.machine.InRange := by
  cases ht with
  | handled journal hm => exact h.handled hm
  | booted journal _ hm => exact Machine.inRange_boot hm
  | fetched _ hf => exact (h.fetch hf).1
  | stepped _ => exact inRange_step h

/-! ## Every reachable session -/

/-- The machine of a session is in range as long as the host does not reach into it by hand. -/
theorem ReachableBy.inRange {s : Session} (h : s.ReachableBy Command.IsHostCall) :
    s.machine.InRange := by
  refine ReachableBy.induct (P := fun t => t.machine.InRange) trivial trivial ?_ ?_ h
  · intro setup threshold source
    exact Machine.inRange_boot Machine.boot?_nil
  · intro t patience c hc hsingle ht
    exact (call_ends patience t hc hsingle).inRange ht

/-- **The ranges of every reachable session.**  Its plain data has the sizes and ranges of a machine,
its program counter never wraps, and it is sound exactly when its font is undamaged. -/
theorem reachable_bounded {s : Session} (h : s.ReachableBy Command.IsHostCall) :
    s.machine.dump.IsBounded ∧
      (∀ i m, s.machine.fetch = .ok (i, m) →
        m.pc = s.machine.pc + 2 ∧ (m.advance 2).pc = m.pc + 2 ∧
          (m.advance (-2)).pc = m.pc - 2) ∧
      (s.machine.isSound = true ↔ s.machine.dump.memory.take 80 = Font.bytes) := by
  have hm : s.machine.InRange := h.inRange
  exact ⟨hm.dump, fun _ _ hf => hm.no_wrap hf, hm.dump.isSound_iff⟩

/-- A session that has loaded `V0 := 5` and executed it is one of them. -/
theorem reachable_bounded_after_cycle :
    ∃ s : Session, s.ReachableBy Command.IsHostCall ∧ s.machine.pc = 0x202 ∧
      s.machine.register firstRegister = 5 ∧ s.machine.dump.IsBounded ∧
      s.machine.isSound = true := by
  have hr : ((Session.start ⟨.standard, .standard, true, none⟩ none (.ofList [])).performAll 0
      [.load [0x60, 0x05], .step]).1.ReachableBy Command.IsHostCall := by
    apply (ReachableBy.start _ _ _).performAll
    intro c hc
    rcases List.mem_cons.mp hc with rfl | hc
    · trivial
    · obtain rfl := List.mem_singleton.mp hc
      trivial
  obtain ⟨hbounded, -, hsound⟩ := reachable_bounded hr
  exact ⟨_, hr, by decide +kernel, by decide +kernel, hbounded, hsound.mpr (by decide +kernel)⟩

end Session

end Chip8
