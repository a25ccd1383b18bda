/-
# Chip8.Proofs.Session.Frames — many frames in a row, and how they fail.

Two sessions that are the same but for trace, tracing and journal are alike: loads, keys and frames come
to the same in both and leave them alike.  In a session without a hook that a host can bring about,
frames fail in one way only: a cycle faults.
-/
import Chip8.Proofs.Session.Faults
import Chip8.Proofs.Session.Retold
import Chip8.Proofs.Session.Untraced

namespace Chip8

/-- The error is a fault, and its text says something. -/
def SessionError.TellsFault (e : SessionError) : Prop :=
  ∃ f, e = .fault f ∧ f.message ≠ ""

namespace Session

/-! ## Trace and journal -/

theorem untraced_runFrame (s : Session) : s.untraced.runFrame = s.runFrame.untraced := by
  obtain ⟨hrel, hresult⟩ := Twin.faithful_untraced.answers_runFrame Twin.isStill_untraced
    (Twin.rel_untraced_iff.mpr rfl) (Twin.agreesThrough_untraced 0 s .runFrame).cycles
  rcases hf : s.untraced.runFrame with ⟨t, result⟩
  rw [hf] at hrel hresult
  obtain rfl : t = _ := Twin.rel_untraced_iff.mp hrel
  obtain rfl : result = _ := hresult
  rfl

theorem untraced_runFrames (s : Session) (n : Nat) :
    s.untraced.runFrames n = (s.runFrames n).untraced := by
  induction n generalizing s with
  | zero => rfl
  | succ n ih =>
    rw [runFrames, runFrames, untraced_runFrame]
    rcases s.runFrame with ⟨t, result⟩
    cases result with
    | ok k => exact ih t
    | error e => rfl

/-- The sessions are the same but for trace, tracing and journal. -/
def Alike (s t : Session) : Prop :=
  s.untraced.unlogged = t.untraced.unlogged

namespace Alike

variable {s t : Session}

theorem machine (h : s.Alike t) : s.machine = t.machine := by
  have hmachine := congrArg Session.machine h
  exact hmachine

theorem cycles (h : s.Alike t) : s.cycles = t.cycles := by
  have hcycles := congrArg Session.cycles h
  exact hcycles

/-- Frames come to the same in sessions that are alike, and leave such sessions. -/
theorem runFrames (h : s.Alike t) (n : Nat) :
    (s.runFrames n).result = (t.runFrames n).result ∧
      (s.runFrames n).session.Alike (t.runFrames n).session := by
  have hframes := congrArg (Session.runFrames n) h
  rw [unlogged_runFrames, unlogged_runFrames, untraced_runFrames, untraced_runFrames] at hframes
  have hresult := congrArg Reply.result hframes
  have hsession := congrArg Reply.session hframes
  exact ⟨hresult, hsession⟩

/-- So does a load. -/
theorem load (h : s.Alike t) (image : List UInt8) :
    (s.load image).result = (t.load image).result ∧
      (s.load image).session.Alike (t.load image).session := by
  unfold Session.load
  cases Machine.boot? image with
  | none => exact ⟨rfl, h⟩
  | some m =>
    -- trace and count begin anew, and the journal does not matter
    refine ⟨rfl, ?_⟩
    exact congrArg (fun u : Session => { u with machine := m, cycles := 0, trace := #[] }) h

theorem setKeys (h : s.Alike t) (keys : List Int) :
    (s.setKeys keys).result = (t.setKeys keys).result ∧
      (s.setKeys keys).session.Alike (t.setKeys keys).session := by
  unfold Session.setKeys
  cases keysOf keys with
  | error key => exact ⟨rfl, h⟩
  | ok ks =>
    refine ⟨rfl, ?_⟩
    exact congrArg (fun u : Session => u.edit fun m => { m with keypad := .ofPressed ks }) h

end Alike

/-! ## Faults -/

section Faults

variable {s : Session} {e : SessionError}

/-- A cycle of a running machine in range fails by a fault, if there is no hook. -/
theorem tellsFault_of_step (hm : s.machine.InRange) (hhook : s.setup.hook = none)
    (hr : s.machine.runState = .running) (he : s.step.result = .error e) : e.TellsFault := by
  obtain ⟨cause, rfl, hc⟩ := ((step_ends hr).eq_error_iff hm (hookReturns_of_none hhook)).mp he
  exact ⟨_, rfl, hc.message_ne_empty⟩

theorem tellsFault_of_runFrom (hm : s.machine.InRange) (hhook : s.setup.hook = none)
    {done n : Nat} (he : (runFrom done n s).result = .error e) : e.TellsFault := by
  induction n generalizing s done with
  | zero => cases he
  | succ n ih =>
    rcases s.round_cases with hr | ⟨hr, ⟨t, i, hs⟩ | ⟨t, e', hs⟩⟩
    · rw [runFrom_of_not_running hr] at he
      cases he
    · rw [runFrom_succ_of_ok hr hs] at he
      have ht : t = s.step.session := by rw [hs]
      refine ih ?_ ?_ he
      · rw [ht]
        exact inRange_step hm
      · rw [ht, setup_step]
        exact hhook
    · rw [runFrom_succ_of_error hr hs] at he
      obtain rfl : e' = e := by simpa using he
      exact tellsFault_of_step hm hhook hr (by rw [hs])

theorem tellsFault_of_runFrame (hm : s.machine.InRange) (hhook : s.setup.hook = none)
    (he : s.runFrame.result = .error e) : e.TellsFault := by
  unfold runFrame at he
  split at he
  · rcases hrun : s.runFor s.setup.pacing.cyclesPerFrame with ⟨t, result⟩
    rw [hrun] at he
    cases result with
    | ok n => cases he
    | error e' =>
      obtain rfl : e' = e := by simpa using he
      have herror : (runFrom 0 s.setup.pacing.cyclesPerFrame s).result = .error e' :=
        congrArg Reply.result hrun
      exact tellsFault_of_runFrom hm hhook herror
  · cases he

/-- Frames of a session that a host can bring about fail by a fault, if there is no hook. -/
theorem tellsFault_of_runFrames (h : s.ReachableBy Command.IsHostCall)
    (hhook : s.setup.hook = none) {n : Nat} (he : (s.runFrames n).result = .error e) :
    e.TellsFault := by
  induction n generalizing s with
  | zero => cases he
  | succ n ih =>
    rw [runFrames] at he
    rcases hf : s.runFrame with ⟨t, result⟩
    rw [hf] at he
    have ht : t = (s.perform 0 .runFrame).session := by
      show t = s.runFrame.session
      rw [hf]
    cases result with
    | ok k =>
      refine ih ?_ ?_ he
      · rw [ht]
        exact h.perform 0 trivial
      · rw [ht, setup_perform]
        exact hhook
    | error e' =>
      obtain rfl : e' = e := by simpa using he
      exact tellsFault_of_runFrame h.inRange hhook (congrArg Reply.result hf)

end Faults

end Session

end Chip8
