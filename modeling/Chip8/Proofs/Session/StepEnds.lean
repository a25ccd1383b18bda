/-
# Chip8.Proofs.Session.StepEnds — the seven ways in which a cycle ends.

A cycle of a running machine ends by a fetch that fails, by a word outside the instruction set on which
the hook returns, declares a fault or breaks off, or by an instruction that succeeds, faults or meets a
misfit.  `Session.StepEnds` lists these ends.  Each of them says what the session afterwards is, up to
the journal, and what the cycle answers; `step_ends` says that there is no other.  The session goes on
with the machine and the source that a failing move leaves; that these are the ones it began with, is what
the atomicity of the moves contributes.  What is proved of a cycle elsewhere is proved end by end and never
looks into a cycle again.
-/
import Chip8.Proofs.Machine.Atomic
import Chip8.Session.Cycle

namespace Chip8

/-! ## Executing an instruction -/

namespace Machine

variable {variant : Variant} {i : Instruction} {m : Machine} {source : ByteSource}

theorem execute_eq_ok_iff {n : Machine} {rest : ByteSource} :
    m.execute variant i source = .ok (n, rest) ↔
      m.apply variant (source.drawFor i).1 i = .ok n ∧ rest = (source.drawFor i).2 :=
  mapError_eq_ok_iff.trans carryOut_eq_ok_iff

/-- An instruction of a known kind does what its kind does. -/
theorem apply_of_op {op : Op} (hop : i.op = op) (byte : UInt8) :
    m.apply variant byte i = op.primitive variant byte i m := by
  unfold apply
  rw [hop]

/-- An instruction that draws no byte leaves the source as it is. -/
theorem execute_of_op {op : Op} (hop : i.op = op) (hne : op ≠ .random) {n : Machine} :
    m.execute variant i source = .ok (n, source) ↔ op.primitive variant 0 i m = .ok n := by
  have hdraw : source.drawFor i = (0, source) := if_neg (hop ▸ hne)
  rw [execute_eq_ok_iff, hdraw, apply_of_op hop]
  exact and_iff_left rfl

end Machine

/-! ## The hook -/

namespace Reaction

/-- The hook lets the cycle go on, or there is none. -/
def Returns : Option Reaction → Prop
  | none | some .ignore | some .pause | some .halt => True
  | some (.fault ..) | some (.breakOff _) => False

/-- The run state in which the hook leaves a running machine. -/
def runState : Option Reaction → RunState
  | some .pause => .paused
  | some .halt => .halted
  | _ => .running

/-- The words that the hook was told of, after one more. -/
def noted (reaction : Option Reaction) (reported : Array UInt16) (i : Instruction) :
    Array UInt16 :=
  if reaction.isSome then reported.push i.word else reported

end Reaction

/-! ## The ends of a cycle -/

namespace Session

/-- The hook lets the next cycle go on: it returns on the word that is fetched, if it is told of it. -/
def HookReturns (s : Session) : Prop :=
  ∀ i m, s.machine.fetch = .ok (i, m) → i.op = .unknown → Reaction.Returns (s.reaction? i)

theorem hookReturns_of_none {s : Session} (h : s.setup.hook = none) : s.HookReturns := by
  intro i m _ _
  unfold reaction?
  rw [h]
  trivial

/-- The trace after a cycle of `s` that left the machine `m`. -/
def traceWith (s : Session) (m : Machine) (i : Option Instruction) (error : Option String) :
    Array TraceEntry :=
  if s.setup.isTracing then
    s.trace.push ⟨s.cycles, s.machine.pc, i, s.machine.snapshot, m.snapshot, error⟩
  else s.trace

/-- The session after a cycle of `s` that ended by a fault, when the machine had come to `m`. -/
def afterFault (s : Session) (m : Machine) (i : Option Instruction) (f : Fault)
    (reported : Array UInt16) (journal : Journal) : Session :=
  { s with
    machine := { m with runState := .halted }
    trace := s.traceWith { m with runState := .halted } i (some f.message)
    reported
    journal }

/-- The session after a cycle of `s` that was executed and left the machine `m`. -/
def afterSuccess (s : Session) (m : Machine) (source : ByteSource) (i : Instruction)
    (reported : Array UInt16) (journal : Journal) : Session :=
  { s with
    machine := m
    source
    cycles := s.cycles + 1
    trace := s.traceWith m (some i) none
    reported
    journal }

/-- How a cycle of a running machine ends: the session afterwards, and the answer. -/
inductive StepEnds (s : Session) : Session → Except SessionError Instruction → Prop where
  /-- The fetch fails. -/
  | unfetched (journal : Journal) {cause : Cause} (hf : s.machine.fetch = .error ⟨s.machine, cause⟩) :
      StepEnds s (s.afterFault s.machine none ⟨cause, some s.machine.pc⟩ s.reported journal)
        (.error (.fault ⟨cause, some s.machine.pc⟩))
  /-- The hook declares a fault. -/
  | hookFaulted (journal : Journal) {i : Instruction} {m : Machine} {text : String}
      {pc : Option Int} (hf : s.machine.fetch = .ok (i, m)) (hi : i.op = .unknown)
      (hh : s.reaction? i = some (.fault text pc)) :
      StepEnds s
        (s.afterFault m (some i) ⟨.declared text, some (pc.getD s.machine.pc)⟩
          (s.reported.push i.word) journal)
        (.error (.fault ⟨.declared text, some (pc.getD s.machine.pc)⟩))
  /-- The hook breaks the cycle off. -/
  | brokenOff (journal : Journal) {i : Instruction} {m : Machine} {text : String}
      (hf : s.machine.fetch = .ok (i, m)) (hi : i.op = .unknown)
      (hh : s.reaction? i = some (.breakOff text)) :
      StepEnds s { s with machine := m, reported := s.reported.push i.word, journal }
        (.error (.brokenOff text))
  /-- A word outside the instruction set passes; the hook may have stopped the machine. -/
  | passed (journal : Journal) {i : Instruction} {m : Machine}
      (hf : s.machine.fetch = .ok (i, m)) (hi : i.op = .unknown)
      (hh : Reaction.Returns (s.reaction? i)) :
      StepEnds s
        (s.afterSuccess { m with runState := Reaction.runState (s.reaction? i) } s.source i
          (Reaction.noted (s.reaction? i) s.reported i) journal)
        (.ok i)
  /-- The instruction faults. -/
  | faulted (journal : Journal) {i : Instruction} {m : Machine} {cause : Cause}
      (hf : s.machine.fetch = .ok (i, m)) (hi : i.op ≠ .unknown)
      (hx : m.apply s.setup.variant (s.source.drawFor i).1 i = .error ⟨m, .fault cause⟩) :
      StepEnds s (s.afterFault m (some i) ⟨cause, some s.machine.pc⟩ s.reported journal)
        (.error (.fault ⟨cause, some s.machine.pc⟩))
  /-- The instruction cannot use a value that a host has set. -/
  | misfit (journal : Journal) {i : Instruction} {m : Machine} {misfit : Misfit}
      (hf : s.machine.fetch = .ok (i, m)) (hi : i.op ≠ .unknown)
      (hx : m.apply s.setup.variant (s.source.drawFor i).1 i = .error ⟨m, .misfit misfit⟩) :
      StepEnds s { s with machine := m, journal } (.error (.misfit misfit))
  /-- The instruction is executed. -/
  | executed (journal : Journal) {i : Instruction} {m n : Machine}
      (hf : s.machine.fetch = .ok (i, m)) (hi : i.op ≠ .unknown)
      (hx : m.apply s.setup.variant (s.source.drawFor i).1 i = .ok n) :
      StepEnds s (s.afterSuccess n (s.source.drawFor i).2 i s.reported journal) (.ok i)

/-! ## A cycle ends in one of them -/

/-- Failing halts the machine, locates the fault and traces the cycle. -/
theorem fail_eq (s : Session) (m : Machine) (reported : Array UInt16) (journal : Journal)
    (i : Option Instruction) (f : Fault) :
    ∃ after, { s with machine := m, reported, journal }.fail s.machine.snapshot i f =
      ⟨s.afterFault m i (f.locate s.machine.pc) reported after,
        .error (.fault (f.locate s.machine.pc))⟩ := by
  refine ⟨journal.note (.faulted s.machine.pc f.message), ?_⟩
  unfold fail record afterFault traceWith
  cases ht : s.setup.isTracing with
  | false =>
    simp only [note, setRunState, edit, ht, Bool.false_eq_true, if_false]
    rfl
  | true =>
    simp only [note, setRunState, edit, ht, if_true]
    rfl

/-- Executing an instruction that succeeds counts and traces the cycle. -/
theorem finish_eq_of_ok {s : Session} {m n : Machine} (reported : Array UInt16)
    (journal : Journal) {i : Instruction}
    (hx : m.apply s.setup.variant (s.source.drawFor i).1 i = .ok n) :
    ∃ after, { s with machine := m, reported, journal }.finish s.machine.snapshot i =
      ⟨s.afterSuccess n (s.source.drawFor i).2 i reported after, .ok i⟩ := by
  refine ⟨journal.noteAll (Event.ofExecution i m n), ?_⟩
  have he : m.carryOut s.setup.variant i s.source = .ok (n, (s.source.drawFor i).2) :=
    Machine.carryOut_eq_ok_iff.mpr ⟨hx, rfl⟩
  unfold finish
  simp only [he]
  unfold record afterSuccess traceWith
  cases ht : s.setup.isTracing with
  | false =>
    simp only [Bool.false_eq_true, if_false]
  | true =>
    simp only [if_true]
    rfl

theorem finish_eq_of_fault {s : Session} {m : Machine} (journal : Journal) {i : Instruction}
    {cause : Cause}
    (hx : m.apply s.setup.variant (s.source.drawFor i).1 i = .error ⟨m, .fault cause⟩) :
    ∃ after, { s with machine := m, journal }.finish s.machine.snapshot i =
      ⟨s.afterFault m (some i) ⟨cause, some s.machine.pc⟩ s.reported after,
        .error (.fault ⟨cause, some s.machine.pc⟩)⟩ := by
  have he : m.carryOut s.setup.variant i s.source = .error ⟨(m, s.source), .fault cause⟩ :=
    Machine.carryOut_eq_error_iff.mpr ⟨hx, rfl⟩
  unfold finish
  simp only [he]
  exact s.fail_eq m s.reported journal (some i) ⟨cause, none⟩

theorem finish_eq_of_misfit {s : Session} {m : Machine} (journal : Journal) {i : Instruction}
    {misfit : Misfit}
    (hx : m.apply s.setup.variant (s.source.drawFor i).1 i = .error ⟨m, .misfit misfit⟩) :
    { s with machine := m, journal }.finish s.machine.snapshot i =
      ⟨{ s with machine := m, journal }, .error (.misfit misfit)⟩ := by
  have he : m.carryOut s.setup.variant i s.source = .error ⟨(m, s.source), .misfit misfit⟩ :=
    Machine.carryOut_eq_error_iff.mpr ⟨hx, rfl⟩
  unfold finish
  simp only [he]

/-- A word outside the instruction set does nothing. -/
theorem apply_unknown {variant : Variant} {byte : UInt8} {i : Instruction} {m : Machine}
    (hi : i.op = .unknown) : m.apply variant byte i = .ok m := by
  unfold Machine.apply
  rw [hi]
  rfl

/-- A hook that returns has noted the word and may have stopped the machine. -/
theorem callHook_eq_of_returns {s : Session} {m : Machine} (journal : Journal) (i : Instruction)
    (hm : m.runState = .running) (hh : Reaction.Returns (s.reaction? i)) :
    ∃ after, { s with machine := m, journal }.callHook i =
      ⟨{ s with
          machine := { m with runState := Reaction.runState (s.reaction? i) }
          reported := Reaction.noted (s.reaction? i) s.reported i
          journal := after }, .ok ()⟩ := by
  have hsame : { m with runState := .running } = m := by rw [← hm]
  have hreaction : { s with machine := m, journal }.reaction? i = s.reaction? i := rfl
  unfold callHook
  rw [hreaction]
  cases hk : s.reaction? i with
  | none => exact ⟨journal, by simp only [Reaction.runState, hsame, Reaction.noted]; rfl⟩
  | some reaction =>
    cases reaction with
    | ignore => exact ⟨journal, by simp only [Reaction.runState, hsame, Reaction.noted]; rfl⟩
    | pause =>
      refine ⟨journal.note (.paused m.pc), ?_⟩
      simp only [pause, hm, if_true]
      rfl
    | halt =>
      refine ⟨journal.note (.halted m.pc), ?_⟩
      simp only [halt, hm]
      rfl
    | fault text pc =>
      rw [hk] at hh
      exact hh.elim
    | breakOff text =>
      rw [hk] at hh
      exact hh.elim

/-- A cycle of a running machine ends in one of the seven ways. -/
theorem step_ends {s : Session} (h : s.machine.runState = .running) :
    s.StepEnds s.step.session s.step.result := by
  have hstep : s.step = s.cycle := if_pos h
  rw [hstep]
  unfold cycle
  cases hf : s.machine.fetch with
  | error stopped =>
    obtain ⟨n, cause⟩ := stopped
    obtain rfl : n = s.machine := s.machine.atomic_fetch _ hf
    obtain ⟨journal, hj⟩ := s.fail_eq s.machine s.reported s.journal none ⟨cause, none⟩
    simp only [hj]
    exact .unfetched journal hf
  | ok fetched =>
    obtain ⟨i, m⟩ := fetched
    have hm : m.runState = .running := by
      rw [Machine.eq_advance_of_fetch hf]
      exact h
    simp only [consult, note]
    -- no end speaks of the journal, so its entries may be forgotten as they come
    generalize s.journal.note (.executing s.machine.snapshot.pc i) = begun
    by_cases hi : i.op = .unknown
    · simp only [if_pos hi]
      generalize begun.note (.unrecognized s.machine.snapshot.pc i) = warned
      by_cases hh : Reaction.Returns (s.reaction? i)
      · obtain ⟨told, ht⟩ := callHook_eq_of_returns warned i hm hh
        obtain ⟨journal, hj⟩ := finish_eq_of_ok (s := s)
          (m := { m with runState := Reaction.runState (s.reaction? i) })
          (Reaction.noted (s.reaction? i) s.reported i) told (apply_unknown hi)
        -- the word is then executed, which does nothing and draws nothing
        have hsource : s.source.drawFor i = (0, s.source) := if_neg (by rw [hi]; decide)
        rw [hsource] at hj
        simp only [ht, hj]
        exact .passed journal hf hi hh
      · have hreaction : { s with machine := m, journal := warned }.reaction? i =
          s.reaction? i := rfl
        cases hk : s.reaction? i with
        | none =>
          rw [hk] at hh
          exact (hh trivial).elim
        | some reaction =>
          rw [hk] at hh
          cases reaction with
          | ignore | pause | halt => exact (hh trivial).elim
          | fault text pc =>
            obtain ⟨journal, hj⟩ := s.fail_eq m (s.reported.push i.word) warned (some i)
              ⟨.declared text, pc⟩
            simp only [callHook, hreaction, hk, hj]
            exact .hookFaulted journal hf hi hk
          | breakOff text =>
            simp only [callHook, hreaction, hk]
            exact .brokenOff warned hf hi hk
    · simp only [if_neg hi]
      cases hx : m.apply s.setup.variant (s.source.drawFor i).1 i with
      | ok n =>
        obtain ⟨journal, hj⟩ := finish_eq_of_ok s.reported begun hx
        simp only [hj]
        exact .executed journal hf hi hx
      | error stopped =>
        obtain ⟨n, failure⟩ := stopped
        obtain rfl : n = m := m.atomic_apply _ _ _ _ hx
        cases failure with
        | fault cause =>
          obtain ⟨journal, hj⟩ := finish_eq_of_fault begun hx
          simp only [hj]
          exact .faulted journal hf hi hx
        | misfit misfit =>
          have hj := finish_eq_of_misfit begun hx
          simp only [hj]
          exact .misfit begun hf hi hx

/-- A cycle leaves the setup. -/
theorem StepEnds.setup {s t : Session} {result : Except SessionError Instruction}
    (ht : s.StepEnds t result) : t.setup = s.setup := by
  cases ht <;> rfl

/-- A cycle whose instruction is known and succeeds is executed. -/
theorem StepEnds.of_apply {s t : Session} {result : Except SessionError Instruction}
    (ht : s.StepEnds t result) {i : Instruction} {m n : Machine}
    (hf : s.machine.fetch = .ok (i, m)) (hi : i.op ≠ .unknown)
    (hx : m.apply s.setup.variant (s.source.drawFor i).1 i = .ok n) :
    result = .ok i ∧
      ∃ journal, t = s.afterSuccess n (s.source.drawFor i).2 i s.reported journal := by
  cases ht with
  | unfetched journal hf' =>
    rw [hf] at hf'
    cases hf'
  | hookFaulted journal hf' hi' hh | brokenOff journal hf' hi' hh | passed journal hf' hi' hh =>
    rw [hf] at hf'
    cases hf'
    exact (hi hi').elim
  | faulted journal hf' hi' hx' | misfit journal hf' hi' hx' =>
    rw [hf] at hf'
    cases hf'
    rw [hx] at hx'
    cases hx'
  | executed journal hf' hi' hx' =>
    rw [hf] at hf'
    cases hf'
    rw [hx] at hx'
    cases hx'
    exact ⟨rfl, journal, rfl⟩

/-- A cycle whose word is unknown passes it if the hook returns. -/
theorem StepEnds.of_unknown {s t : Session} {result : Except SessionError Instruction}
    (ht : s.StepEnds t result) {i : Instruction} {m : Machine} (hf : s.machine.fetch = .ok (i, m))
    (hi : i.op = .unknown) (hh : Reaction.Returns (s.reaction? i)) :
    result = .ok i ∧
      ∃ journal, t =
        s.afterSuccess { m with runState := Reaction.runState (s.reaction? i) } s.source i
          (Reaction.noted (s.reaction? i) s.reported i) journal := by
  cases ht with
  | unfetched journal hf' =>
    rw [hf] at hf'
    cases hf'
  | hookFaulted journal hf' hi' hh' | brokenOff journal hf' hi' hh' =>
    rw [hf] at hf'
    cases hf'
    rw [hh'] at hh
    exact hh.elim
  | passed journal hf' hi' hh' =>
    rw [hf] at hf'
    cases hf'
    exact ⟨rfl, journal, rfl⟩
  | faulted journal hf' hi' | misfit journal hf' hi' | executed journal hf' hi' =>
    rw [hf] at hf'
    cases hf'
    exact (hi' hi).elim

/-- A machine that is not running refuses a cycle and stays as it is. -/
theorem step_of_not_running {s : Session} (h : s.machine.runState ≠ .running) :
    s.step = ⟨s, .error (.notRunning s.machine.runState)⟩ :=
  if_neg h

end Session

end Chip8
