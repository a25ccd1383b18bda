/-
# Chip8.Proofs.Session.Faults — when a cycle faults, and what it leaves behind when it does.

`Machine.CycleFaultsBy` gives the causes by which a cycle faults, at the fetch or by the instruction.
In every session that a host can bring about these are the only reasons for a cycle to fail, unless the
hook has its own (`StepEnds.eq_error_iff`).

A cycle that fails has moved the program counter past the instruction, if it fetched one, and halted the
machine, if it faulted.  `FaultLeaves` says this of the whole session.  The session goes on with the machine
and the source that the failing move hands over, so this rests on the atomicity of every move
(`Machine.atomic_fetch`, `Machine.atomic_carryOut`), which the ends of a cycle contain.
-/
import Chip8.Proofs.Machine.Faults
import Chip8.Proofs.Session.InRange

namespace Chip8

namespace Machine

/-- The causes by which a cycle faults: the fetch reaches beyond memory, or the instruction faults. -/
inductive CycleFaultsBy (m : Machine) : Cause → Prop where
  | unfetched (hend : 4096 < m.pc + 2) : CycleFaultsBy m (.outOfBounds ⟨m.pc, 2⟩)
  | executed {cause : Cause} (hend : m.pc + 2 ≤ 4096) (hc : m.FaultsBy m.current cause) :
      CycleFaultsBy m cause

/-- Faults of instructions do not depend on the program counter. -/
theorem faultsBy_withPc {m : Machine} {i : Instruction} {cause : Cause} (pc : Int) :
    { m with pc }.FaultsBy i cause ↔ m.FaultsBy i cause := by
  constructor <;> intro h <;> cases h with
  | outOfBounds hu hend => exact .outOfBounds hu hend
  | underflow hf hb hs => exact .underflow hf hb hs
  | overflow hf hs => exact .overflow hf hs

/-- A machine has no reason of its own to declare a fault. -/
theorem not_cycleFaultsBy_declared {m : Machine} {text : String} :
    ¬ m.CycleFaultsBy (.declared text) := by
  intro h
  cases h with
  | executed hend hc => cases hc

end Machine

theorem Text.append_ne_empty {front : String} (h : front ≠ "") (back : String) :
    front ++ back ≠ "" := by
  intro hempty
  have hchars := congrArg String.toList hempty
  rw [String.toList_append] at hchars
  exact h (String.toList_inj.mp (List.append_eq_nil_iff.mp hchars).1)

/-- The faults of a machine have a text; only a hook can declare one without. -/
theorem Machine.CycleFaultsBy.message_ne_empty {m : Machine} {cause : Cause}
    (h : m.CycleFaultsBy cause) : cause.message ≠ "" := by
  cases cause with
  | stackOverflow => exact Text.append_ne_empty (Text.append_ne_empty (by decide) _) _
  | stackUnderflow => decide
  | outOfBounds window =>
    exact Text.append_ne_empty (Text.append_ne_empty (Text.append_ne_empty (by decide) _) _) _
  | declared text => exact (not_cycleFaultsBy_declared h).elim

namespace Session

variable {s : Session}

/-! ## Faults are the only failures -/

namespace StepEnds

variable {t : Session} {result : Except SessionError Instruction}

/-- A cycle with a reason to fault faults by it, whatever the hook. -/
theorem of_faults (h : s.machine.InRange) (ht : s.StepEnds t result) {cause : Cause}
    (hc : s.machine.CycleFaultsBy cause) :
    result = .error (.fault ⟨cause, some s.machine.pc⟩) := by
  -- past the fetch the instruction fails by this cause, so a word that is fetched is a known one
  have happly : ∀ {i m}, s.machine.fetch = .ok (i, m) → ∀ byte,
      m.apply s.setup.variant byte i = .error ⟨m, .fault cause⟩ := by
    intro i m hf byte
    obtain ⟨hm, -, -⟩ := h.fetch hf
    obtain ⟨hend, rfl, rfl⟩ := (Machine.fetch_eq_ok_iff h.pc.1).mp hf
    cases hc with
    | unfetched hout => omega
    | executed _ hfaults => exact hm.apply_of_faultsBy ((Machine.faultsBy_withPc _).mpr hfaults)
  cases ht with
  | unfetched journal hf =>
    obtain ⟨hend, hstopped⟩ := (Machine.fetch_eq_error_iff h.pc.1).mp hf
    cases hstopped
    cases hc with
    | unfetched hout => rfl
    | executed hin _ => omega
  | hookFaulted journal hf hi hh | brokenOff journal hf hi hh | passed journal hf hi hh =>
    have hx := happly hf 0
    rw [apply_unknown hi] at hx
    cases hx
  | faulted journal hf hi hx =>
    rw [happly hf] at hx
    cases hx
    rfl
  | misfit journal hf hi hx | executed journal hf hi hx =>
    rw [happly hf] at hx
    cases hx

/-- A cycle without a reason to fault succeeds, if the hook does not fail it. -/
theorem of_not_faults (h : s.machine.InRange) (ht : s.StepEnds t result)
    (hhook : s.HookReturns) (hno : ∀ cause, ¬ s.machine.CycleFaultsBy cause) :
    result = .ok s.machine.current := by
  -- past the fetch no instruction fails, whatever byte it is given
  have happly : ∀ {i m stopped} byte, s.machine.fetch = .ok (i, m) →
      m.apply s.setup.variant byte i ≠ .error stopped := by
    intro i m stopped byte hf hx
    obtain ⟨hm, -, -⟩ := h.fetch hf
    obtain ⟨hend, rfl, rfl⟩ := (Machine.fetch_eq_ok_iff h.pc.1).mp hf
    obtain ⟨cause, -, hfaults⟩ := hm.faultsBy_of_apply hx
    exact hno cause (.executed hend ((Machine.faultsBy_withPc _).mp hfaults))
  cases ht with
  | unfetched journal hf =>
    obtain ⟨hend, -⟩ := (Machine.fetch_eq_error_iff h.pc.1).mp hf
    exact (hno _ (.unfetched hend)).elim
  | hookFaulted journal hf hi hh | brokenOff journal hf hi hh =>
    have hreturns := hhook _ _ hf hi
    rw [hh] at hreturns
    exact hreturns.elim
  | passed journal hf hi hh | executed journal hf hi hx =>
    obtain ⟨-, rfl, -⟩ := (Machine.fetch_eq_ok_iff h.pc.1).mp hf
    rfl
  | faulted journal hf hi hx | misfit journal hf hi hx => exact (happly _ hf hx).elim

/-- With a hook that returns, a cycle fails exactly by its reasons to fault. -/
theorem eq_error_iff (h : s.machine.InRange) (ht : s.StepEnds t result)
    (hhook : s.HookReturns) {e : SessionError} :
    result = .error e ↔
      ∃ cause, e = .fault ⟨cause, some s.machine.pc⟩ ∧ s.machine.CycleFaultsBy cause := by
  constructor
  · intro he
    by_cases hc : ∃ cause, s.machine.CycleFaultsBy cause
    · obtain ⟨cause, hc⟩ := hc
      rw [ht.of_faults h hc] at he
      cases he
      exact ⟨cause, rfl, hc⟩
    · rw [ht.of_not_faults h hhook (not_exists.mp hc)] at he
      cases he
  · rintro ⟨cause, rfl, hc⟩
    exact ht.of_faults h hc

end StepEnds

/-- The address that the hook puts on the fault that it declares in a cycle of `s`, if it does. -/
def declaredPc (s : Session) : Option Int :=
  match s.machine.fetch with
  | .error _ => none
  | .ok (i, _) =>
    match s.reaction? i with
    | some (.fault _ pc) => if i.op = .unknown then pc else none
    | _ => none

/-- What a cycle of `s` that ends by the fault `f` leaves behind: a halted machine, past the instruction
if one was fetched, and an entry in the trace of a tracing session. -/
structure FaultLeaves (s : Session) (f : Fault) (t : Session) : Prop where
  machine : t.machine =
    { s.machine with
      runState := .halted
      pc := if s.machine.fetch.isOk then s.machine.pc + 2 else s.machine.pc }
  setup : t.setup = s.setup
  source : t.source = s.source
  cycles : t.cycles = s.cycles
  trace : t.trace =
    if s.setup.isTracing then
      s.trace.push
        { cycle := s.cycles
          pc := s.machine.pc
          instruction := s.machine.fetch.toOption.map Prod.fst
          before := s.machine.snapshot
          after := t.machine.snapshot
          error := some f.message }
    else s.trace
  pc : f.pc = some (s.declaredPc.getD s.machine.pc)

/-- A fault at the fetch leaves the program counter where it was. -/
theorem faultLeaves_of_fetch_error {cause : Cause}
    (hf : s.machine.fetch = .error ⟨s.machine, cause⟩) (journal : Journal) :
    s.FaultLeaves ⟨cause, some s.machine.pc⟩
      (s.afterFault s.machine none ⟨cause, some s.machine.pc⟩ s.reported journal) where
  machine := by
    rw [hf]
    rfl
  setup := rfl
  source := rfl
  cycles := rfl
  trace := by
    rw [hf]
    rfl
  pc := by
    unfold declaredPc
    rw [hf]
    rfl

/-- A fault past the fetch leaves the program counter behind the instruction. -/
theorem faultLeaves_of_fetch_ok (h : 0 ≤ s.machine.pc) {i : Instruction} {m : Machine}
    (hf : s.machine.fetch = .ok (i, m)) (reported : Array UInt16) (journal : Journal) {f : Fault}
    (hpc : f.pc = some (s.declaredPc.getD s.machine.pc)) :
    s.FaultLeaves f (s.afterFault m (some i) f reported journal) where
  machine := by
    obtain ⟨-, -, rfl⟩ := (Machine.fetch_eq_ok_iff h).mp hf
    rw [hf]
    rfl
  setup := rfl
  source := rfl
  cycles := rfl
  trace := by
    rw [hf]
    rfl
  pc := hpc

theorem declaredPc_of_known {i : Instruction} {m : Machine}
    (hf : s.machine.fetch = .ok (i, m)) (hi : i.op ≠ .unknown) : s.declaredPc = none := by
  unfold declaredPc
  rw [hf]
  cases hreaction : s.reaction? i with
  | none => simp only [hreaction]
  | some reaction =>
    cases reaction with
    | fault text pc => simp only [hreaction, if_neg hi]
    | _ => simp only [hreaction]

namespace StepEnds

variable {t : Session} {result : Except SessionError Instruction}

theorem faultLeaves (h : s.machine.InRange) (ht : s.StepEnds t result) {f : Fault}
    (hresult : result = .error (.fault f)) : s.FaultLeaves f t := by
  cases ht with
  | unfetched journal hf =>
    cases hresult
    exact faultLeaves_of_fetch_error hf journal
  | hookFaulted journal hf hi hh =>
    cases hresult
    apply faultLeaves_of_fetch_ok h.pc.1 hf
    unfold declaredPc
    rw [hf]
    simp only [hh, if_pos hi]
  | faulted journal hf hi hx =>
    cases hresult
    apply faultLeaves_of_fetch_ok h.pc.1 hf
    rw [declaredPc_of_known hf hi]
    rfl
  | brokenOff | passed | misfit | executed => cases hresult

/-- A cycle is broken off exactly where the hook is told of a word and reacts so. -/
theorem brokenOff_iff (ht : s.StepEnds t result) {text : String} :
    result = .error (.brokenOff text) ↔
      ∃ i m, s.machine.fetch = .ok (i, m) ∧ i.op = .unknown ∧
        s.reaction? i = some (.breakOff text) := by
  constructor
  · intro hresult
    cases ht with
    | brokenOff journal hf hi hh =>
      cases hresult
      exact ⟨_, _, hf, hi, hh⟩
    | unfetched | hookFaulted | passed | faulted | misfit | executed => cases hresult
  · rintro ⟨i, m, hfetch, hop, hreaction⟩
    cases ht with
    | unfetched journal hf =>
      rw [hfetch] at hf
      cases hf
    | hookFaulted journal hf hi hh =>
      rw [hfetch] at hf
      cases hf
      rw [hreaction] at hh
      cases hh
    | brokenOff journal hf hi hh =>
      rw [hfetch] at hf
      cases hf
      rw [hreaction] at hh
      cases hh
      rfl
    | passed journal hf hi hh =>
      rw [hfetch] at hf
      cases hf
      rw [hreaction] at hh
      exact hh.elim
    | faulted journal hf hi hx | misfit journal hf hi hx | executed journal hf hi hx =>
      rw [hfetch] at hf
      cases hf
      exact (hi hop).elim

/-- A cycle that is broken off has moved past the instruction, and that is all. -/
theorem of_brokenOff (h : s.machine.InRange) (ht : s.StepEnds t result) {text : String}
    (hresult : result = .error (.brokenOff text)) :
    t.machine = { s.machine with pc := s.machine.pc + 2 } ∧ t.setup = s.setup ∧
      t.source = s.source ∧ t.cycles = s.cycles ∧ t.trace = s.trace := by
  cases ht with
  | brokenOff journal hf hi hh =>
    obtain ⟨-, -, rfl⟩ := (Machine.fetch_eq_ok_iff h.pc.1).mp hf
    exact ⟨rfl, rfl, rfl, rfl, rfl⟩
  | unfetched | hookFaulted | passed | faulted | misfit | executed => cases hresult

/-- In range, a cycle fails by a fault or is broken off: no value misfits. -/
theorem failure_cases (h : s.machine.InRange) (ht : s.StepEnds t result) {e : SessionError}
    (hresult : result = .error e) : (∃ f, e = .fault f) ∨ ∃ text, e = .brokenOff text := by
  cases ht with
  | unfetched | hookFaulted | faulted =>
    cases hresult
    exact Or.inl ⟨_, rfl⟩
  | brokenOff =>
    cases hresult
    exact Or.inr ⟨_, rfl⟩
  | misfit journal hf hi hx =>
    obtain ⟨hm, -, -⟩ := h.fetch hf
    obtain ⟨cause, hcause, -⟩ := hm.faultsBy_of_apply hx
    cases hcause
  | passed | executed => cases hresult

end StepEnds

/-- **A failing cycle is atomic.**  Take a session that a host can bring about, with any hook, whose
machine is running.  A cycle that faults leaves what `FaultLeaves` says and nothing else.  A cycle is broken off
exactly where the hook is told of a word and reacts to it so; then the cycle fails by the text of the
hook, and the session has moved past the instruction and not changed otherwise.  A cycle fails in no other
way. -/
theorem step_atomic (h : s.ReachableBy Command.IsHostCall) (hr : s.machine.runState = .running) :
    (∀ f, s.step.result = .error (.fault f) → s.FaultLeaves f s.step.session) ∧
      (∀ text, s.step.result = .error (.brokenOff text) ↔
        ∃ i m, s.machine.fetch = .ok (i, m) ∧ i.op = .unknown ∧
          s.reaction? i = some (.breakOff text)) ∧
      (∀ text, s.step.result = .error (.brokenOff text) →
        s.step.session.machine = { s.machine with pc := s.machine.pc + 2 } ∧
          s.step.session.setup = s.setup ∧ s.step.session.source = s.source ∧
          s.step.session.cycles = s.cycles ∧ s.step.session.trace = s.trace) ∧
      (∀ e, s.step.result = .error e → (∃ f, e = .fault f) ∨ ∃ text, e = .brokenOff text) := by
  have hends := step_ends hr
  refine ⟨?_, ?_, ?_, ?_⟩
  · intro f hf
    exact hends.faultLeaves h.inRange hf
  · intro text
    exact hends.brokenOff_iff
  · intro text htext
    exact hends.of_brokenOff h.inRange htext
  · intro e he
    exact hends.failure_cases h.inRange he

/-- A return with an empty stack, in a traced session whose hook would break off: it halts the machine
behind the instruction and leaves one entry in the trace. -/
theorem step_atomic_return :
    ∃ s : Session, s.ReachableBy Command.IsHostCall ∧
      s.step.result = .error (.fault ⟨.stackUnderflow, some 0x200⟩) ∧
        s.step.session.machine.runState = .halted ∧ s.step.session.machine.pc = 0x202 ∧
        s.step.session.cycles = 0 ∧ s.step.session.trace.size = 1 := by
  let s := ((Session.start ⟨.standard, .standard, true, some (.breakOff "")⟩ none
    (.ofList [])).perform 0 (.load [0x00, 0xEE])).session
  have hr : s.ReachableBy Command.IsHostCall := (ReachableBy.start _ _ _).perform 0 trivial
  have hfacts : s.machine.runState = .running ∧ s.machine.pc = 0x200 ∧
      s.machine.current.family = 0x0 ∧ s.machine.current.byte = 0xEE ∧ s.machine.stack = [] ∧
      s.machine.fetch.isOk = true ∧ s.setup.isTracing = true ∧ s.cycles = 0 ∧ s.trace.size = 0 := by
    decide +kernel
  obtain ⟨hrun, hpc, hfamily, hbyte, hstack, hfetched, htracing, hcycles, htrace⟩ := hfacts
  have hresult := (step_ends hrun).of_faults hr.inRange
    (.executed (by rw [hpc]; decide) (.underflow hfamily hbyte hstack))
  obtain ⟨hfault, -⟩ := step_atomic hr hrun
  have hleaves := hfault _ hresult
  refine ⟨s, hr, hpc ▸ hresult, ?_, ?_, ?_, ?_⟩
  · rw [hleaves.machine]
  · rw [hleaves.machine]
    simp only [hfetched, if_true, hpc]
    decide
  · rw [hleaves.cycles, hcycles]
  · rw [hleaves.trace, if_pos htracing, Array.size_push, htrace]

end Session

end Chip8
