/-
# Chip8.Proofs.Session.Execute — the frame of one instruction.

An instruction that is executed outside any cycle succeeds, faults, or meets a value that it cannot use.
In every case the session afterwards has the machine of before, up to the parts that the instruction may
write (`Instruction.MayWrite`), and the source of random bytes is where it was unless the instruction is
a random load.
-/
import Chip8.Proofs.Machine.Writes
import Chip8.Proofs.Session.StepEnds
import Chip8.Session.Host

namespace Chip8

/-- The source hands out a byte for a random load only. -/
theorem ByteSource.drawFor_source (source : ByteSource) (i : Instruction) :
    (source.drawFor i).2 = source ∨
      (Row.family 0xC).Fits i ∧ (source.drawFor i).2 = source.drop 1 := by
  unfold drawFor
  split
  · next hi => exact Or.inr ⟨(Instruction.op_eq_iff rfl).mp hi, rfl⟩
  · exact Or.inl rfl

namespace Session

/-- Executing an instruction leaves what the instruction makes of machine and source, or it fails and
leaves the session. -/
theorem execute_cases (s : Session) (i : Instruction) :
    (∃ e, s.execute i = ⟨s, .error e⟩) ∨
      ∃ n journal, s.machine.apply s.setup.variant (s.source.drawFor i).1 i = .ok n ∧
        s.execute i =
          ⟨{ s with machine := n, source := (s.source.drawFor i).2, journal }, .ok ()⟩ := by
  unfold execute
  cases hx : s.machine.carryOut s.setup.variant i s.source with
  | error stopped =>
    left
    obtain ⟨⟨m, source⟩, failure⟩ := stopped
    obtain ⟨rfl, rfl⟩ : m = s.machine ∧ source = s.source := by
      simpa using Machine.atomic_carryOut _ _ _ _ _ hx
    cases failure <;> exact ⟨_, rfl⟩
  | ok executed =>
    obtain ⟨n, rest⟩ := executed
    obtain ⟨happly, rfl⟩ := Machine.carryOut_eq_ok_iff.mp hx
    exact Or.inr ⟨n, _, happly, rfl⟩

/-- **The frame of an instruction.**  Whatever the state of the machine, the variant and the source, an
instruction that is executed changes at most the parts that it may write, whether it succeeds or fails.
The keys and the run state are no such part of any instruction; and as the parts make up the machine, an
instruction that may write none of them leaves it as it was.  The source hands out a byte for `CXNN`
only, and one byte at most.  Of the rest of the session nothing changes. -/
theorem execute_frame (s : Session) (i : Instruction) :
    let t := (s.execute i).session
    (∀ p : Part, ¬ i.MayWrite s.setup.variant s.machine p → p.Same s.machine t.machine) ∧
      t.machine.keypad = s.machine.keypad ∧ t.machine.runState = s.machine.runState ∧
      ((∀ p : Part, ¬ i.MayWrite s.setup.variant s.machine p) → t.machine = s.machine) ∧
      (t.source = s.source ∨ (Row.family 0xC).Fits i ∧ t.source = s.source.drop 1) ∧
      t.setup = s.setup ∧ t.cycles = s.cycles ∧ t.trace = s.trace ∧ t.reported = s.reported := by
  intro t
  rcases s.execute_cases i with ⟨e, hs⟩ | ⟨n, journal, hx, hs⟩
  · -- an instruction that fails leaves all there was, as it is atomic
    rw [show t = s from congrArg Reply.session hs]
    exact ⟨Machine.changesOnly_refl, rfl, rfl, fun _ => rfl, Or.inl rfl, rfl, rfl, rfl, rfl⟩
  · have hframe : s.machine.ChangesOnly (i.MayWrite s.setup.variant s.machine) n :=
      Machine.changesOnly_of_apply hx
    rw [show t = _ from congrArg Reply.session hs]
    refine ⟨hframe, hframe .keypad nofun, hframe .runState nofun, ?_, ?_, rfl, rfl, rfl, rfl⟩
    · intro hnone
      exact Part.eq_of_same fun p => hframe p (hnone p)
    · exact s.source.drawFor_source i

end Session

end Chip8
