/-
# Chip8.Proofs.Session.Twin — two sessions that go the same way.

A `Twin` says what a second session has otherwise than a first one: its setup, its keys, its timer, and
its trace.  The two go the same way as long as each instruction that the first one fetches does the same
to both machines (`Twin.Agrees`): every call then answers the same and leaves twins behind.  This is shown
function by function, from the recording of a cycle up to lists of calls.

Cycles go through under any change of keys and timer.  The other calls are looked at for twins whose
machines are equal (`answers_perform`), as the host reads and writes keys and timer.
-/
import Chip8.Proofs.Session.Calls

namespace Chip8

/-- The same reason to stop, with the state seen through `f`. -/
def Stopped.mapState {σ τ ε : Type} (f : σ → τ) (stopped : Stopped σ ε) : Stopped τ ε :=
  ⟨f stopped.state, stopped.reason⟩

/-- What a move comes to when its states are seen through `f`, the one that it leaves where it fails
included. -/
def mapStates {σ τ ε : Type} (f : σ → τ) : Except (Stopped σ ε) σ → Except (Stopped τ ε) τ
  | .ok a => .ok (f a)
  | .error stopped => .error (stopped.mapState f)

/-- What a second session has otherwise than a first one. -/
structure Twin where
  /-- The setup. -/
  setup : Setup → Setup
  /-- The keys. -/
  keypad : Keypad → Keypad
  /-- The timer. -/
  timer : Int → Int
  /-- How its trace goes with the trace of the first one. -/
  traces : Array TraceEntry → Array TraceEntry → Prop

namespace Twin

variable {w : Twin} {s t : Session}

/-! ## Twins -/

/-- The machine of the second session. -/
def machine (w : Twin) (m : Machine) : Machine :=
  { m with keypad := w.keypad m.keypad, delayTimer := w.timer m.delayTimer }

section

variable (w : Twin) (m : Machine)

@[simp]
theorem machine_pc : (w.machine m).pc = m.pc := rfl

@[simp]
theorem machine_stack : (w.machine m).stack = m.stack := rfl

@[simp]
theorem machine_index : (w.machine m).index = m.index := rfl

@[simp]
theorem machine_pendingKey : (w.machine m).pendingKey = m.pendingKey := rfl

@[simp]
theorem machine_register (r : Register) : (w.machine m).register r = m.register r := rfl

@[simp]
theorem machine_firstRegisters (count : Nat) :
    (w.machine m).firstRegisters count = m.firstRegisters count := rfl

@[simp]
theorem machine_read (address count : Int) :
    (w.machine m).read address count = m.read address count := rfl

end

/-- The second session, on a trace. -/
def session (w : Twin) (s : Session) (trace : Array TraceEntry) : Session :=
  { s with setup := w.setup s.setup, machine := w.machine s.machine, trace }

/-- The second session is the twin of the first one. -/
def Rel (w : Twin) (s t : Session) : Prop :=
  ∃ trace, w.traces s.trace trace ∧ t = w.session s trace

/-- Both calls come to the same and leave twins. -/
def Answers {α : Type} (w : Twin) (r q : Reply α) : Prop :=
  w.Rel r.session q.session ∧ q.result = r.result

/-- An instruction that is executed in the first session does the same to a machine and to its twin. -/
def AgreesOn (w : Twin) (s : Session) (i : Instruction) (m : Machine) : Prop :=
  (w.machine m).apply (w.setup s.setup).variant (s.source.drawFor i).1 i =
    mapStates w.machine (m.apply s.setup.variant (s.source.drawFor i).1 i)

/-- So does the instruction that the first session fetches next. -/
def Agrees (w : Twin) (s : Session) : Prop :=
  ∀ i m, s.machine.fetch = .ok (i, m) → w.AgreesOn s i m

/-- A twin has the same hook and the same pacing, and recording a cycle keeps the traces together. -/
structure Faithful (w : Twin) : Prop where
  hook : ∀ setup, (w.setup setup).hook = setup.hook
  pacing : ∀ setup, (w.setup setup).pacing = setup.pacing
  fresh : w.traces #[] #[]
  record : ∀ {s trace}, w.traces s.trace trace → ∀ (before : Machine) (i : Option Instruction)
    (error : Option String), w.traces (s.record before.snapshot i error).trace
      ((w.session s trace).record (w.machine before).snapshot i error).trace

theorem trace_record (s : Session) (before : Snapshot) (i : Option Instruction)
    (error : Option String) : (s.record before i error).trace =
      if s.setup.isTracing then
        s.trace.push ⟨s.cycles, before.pc, i, before, s.machine.snapshot, error⟩
      else s.trace := by
  unfold Session.record
  split <;> rfl

theorem Answers.map {α β : Type} {r q : Reply α} (h : w.Answers r q) (f : α → β) :
    w.Answers (r.map f) (q.map f) :=
  ⟨h.1, congrArg (Except.map f) h.2⟩

theorem fetch_machine (w : Twin) (m : Machine) :
    (w.machine m).fetch =
      (m.fetch.map (Prod.map id w.machine)).mapError (.mapState w.machine) := by
  unfold Machine.fetch
  simp only [machine_pc, machine_read]
  cases m.read m.pc 2 <;> rfl

/-- A word outside the instruction set does nothing to either machine. -/
theorem agreesOn_of_unknown {i : Instruction} (hi : i.op = .unknown) (m : Machine) :
    w.AgreesOn s i m := by
  unfold AgreesOn
  rw [Session.apply_unknown hi, Session.apply_unknown hi]
  rfl

theorem carryOut_machine {i : Instruction} (ha : w.AgreesOn s i s.machine) :
    (w.machine s.machine).carryOut (w.setup s.setup).variant i s.source =
      mapStates (Prod.map w.machine id) (s.machine.carryOut s.setup.variant i s.source) := by
  unfold Machine.carryOut
  rw [ha]
  cases s.machine.apply s.setup.variant (s.source.drawFor i).1 i <;> rfl

/-! ## Run state -/

namespace Rel

theorem runState (h : w.Rel s t) : t.machine.runState = s.machine.runState := by
  obtain ⟨trace, -, rfl⟩ := h
  rfl

theorem pc (h : w.Rel s t) : t.machine.pc = s.machine.pc := by
  obtain ⟨trace, -, rfl⟩ := h
  rfl

theorem note (h : w.Rel s t) (e : Event) : w.Rel (s.note e) (t.note e) := by
  obtain ⟨trace, htrace, rfl⟩ := h
  exact ⟨trace, htrace, rfl⟩

theorem setRunState (h : w.Rel s t) (r : RunState) : w.Rel (s.setRunState r) (t.setRunState r) := by
  obtain ⟨trace, htrace, rfl⟩ := h
  exact ⟨trace, htrace, rfl⟩

theorem pause (h : w.Rel s t) : w.Rel s.pause t.pause := by
  unfold Session.pause
  rw [h.runState, h.pc]
  split
  · exact (h.setRunState .paused).note _
  · exact h

theorem resume (h : w.Rel s t) : w.Rel s.resume t.resume := by
  unfold Session.resume
  rw [h.runState, h.pc]
  split
  · exact (h.setRunState .running).note _
  · exact h

theorem togglePause (h : w.Rel s t) : w.Rel s.togglePause t.togglePause := by
  unfold Session.togglePause
  rw [h.runState]
  split
  · exact h.pause
  · exact h.resume

theorem halt (h : w.Rel s t) : w.Rel s.halt t.halt := by
  unfold Session.halt
  rw [h.runState, h.pc]
  split
  · exact (h.setRunState .halted).note _
  · exact h

end Rel

namespace Faithful

/-! ## Cycles -/

theorem rel_record (hw : w.Faithful) (h : w.Rel s t) (before : Machine) (i : Option Instruction)
    (error : Option String) :
    w.Rel (s.record before.snapshot i error) (t.record (w.machine before).snapshot i error) := by
  obtain ⟨trace, htrace, rfl⟩ := h
  refine ⟨_, hw.record htrace before i error, ?_⟩
  -- either session may keep a trace or not, but recording changes nothing else
  unfold Session.record
  split <;> split <;> rfl

theorem answers_fail (hw : w.Faithful) (h : w.Rel s t) (before : Machine) (i : Option Instruction)
    (f : Fault) :
    w.Answers (s.fail before.snapshot i f) (t.fail (w.machine before).snapshot i f) := by
  have hhalted := (h.note (.faulted before.pc (f.locate before.pc).message)).setRunState .halted
  exact ⟨hw.rel_record hhalted before i _, rfl⟩

theorem answers_callHook (hw : w.Faithful) (h : w.Rel s t) (i : Instruction) :
    w.Answers (s.callHook i) (t.callHook i) := by
  obtain ⟨trace, htrace, rfl⟩ := h
  have hreaction : (w.session s trace).reaction? i = s.reaction? i := by
    unfold Session.reaction?
    rw [show (w.session s trace).setup.hook = s.setup.hook from hw.hook s.setup]
    rfl
  have hnoted : w.Rel { s with reported := s.reported.push i.word }
      (w.session { s with reported := s.reported.push i.word } trace) := ⟨trace, htrace, rfl⟩
  unfold Session.callHook
  rw [hreaction]
  cases s.reaction? i with
  | none => exact ⟨⟨trace, htrace, rfl⟩, rfl⟩
  | some reaction =>
    cases reaction with
    | pause => exact ⟨hnoted.pause, rfl⟩
    | halt => exact ⟨hnoted.halt, rfl⟩
    | ignore | fault | breakOff => exact ⟨hnoted, rfl⟩

theorem answers_consult (hw : w.Faithful) (h : w.Rel s t) (pc : Int) (i : Instruction) :
    w.Answers (s.consult pc i) (t.consult pc i) := by
  unfold Session.consult
  split
  · exact hw.answers_callHook (h.note _) i
  · exact ⟨h, rfl⟩

theorem answers_finish (hw : w.Faithful) (h : w.Rel s t) (before : Machine) {i : Instruction}
    (ha : w.AgreesOn s i s.machine) :
    w.Answers (s.finish before.snapshot i) (t.finish (w.machine before).snapshot i) := by
  obtain ⟨trace, htrace, rfl⟩ := h
  have hcarry : (w.session s trace).machine.carryOut (w.session s trace).setup.variant i
      (w.session s trace).source = _ := carryOut_machine ha
  unfold Session.finish
  rw [hcarry]
  cases s.machine.carryOut s.setup.variant i s.source with
  | error stopped =>
    obtain ⟨⟨n, source⟩, failure⟩ := stopped
    have hstopped : w.Rel { s with machine := n, source }
        (w.session { s with machine := n, source } trace) := ⟨trace, htrace, rfl⟩
    cases failure with
    | fault cause => exact hw.answers_fail hstopped before (some i) ⟨cause, none⟩
    | misfit m => exact ⟨hstopped, rfl⟩
  | ok executed =>
    obtain ⟨n, source⟩ := executed
    -- what an execution reports says nothing of keys or timer
    let journal := s.journal.noteAll (Event.ofExecution i s.machine n)
    have hexecuted : w.Rel { s with machine := n, source, journal }
        (w.session { s with machine := n, source, journal } trace) := ⟨trace, htrace, rfl⟩
    obtain ⟨after, hafter, hrecord⟩ := hw.rel_record hexecuted before (some i) none
    exact ⟨⟨after, hafter, congrArg (fun u => { u with cycles := u.cycles + 1 }) hrecord⟩, rfl⟩

theorem answers_cycle (hw : w.Faithful) (h : w.Rel s t) (ha : w.Agrees s) :
    w.Answers s.cycle t.cycle := by
  obtain ⟨trace, htrace, rfl⟩ := h
  have hfetch : (w.session s trace).machine.fetch = _ := w.fetch_machine s.machine
  unfold Session.cycle
  rw [hfetch]
  cases hf : s.machine.fetch with
  | error stopped =>
    have hstopped : w.Rel { s with machine := stopped.state }
        (w.session { s with machine := stopped.state } trace) := ⟨trace, htrace, rfl⟩
    exact hw.answers_fail hstopped s.machine none ⟨stopped.reason, none⟩
  | ok fetched =>
    obtain ⟨i, m⟩ := fetched
    let begun := { s with machine := m }.note (.executing s.machine.pc i)
    have hbegun : w.Rel begun (w.session begun trace) := ⟨trace, htrace, rfl⟩
    have hconsult := hw.answers_consult hbegun s.machine.pc i
    -- the hook is asked about unknown words only, and these do nothing
    have hagrees : w.AgreesOn (begun.consult s.machine.pc i).session i
        (begun.consult s.machine.pc i).session.machine := by
      by_cases hi : i.op = .unknown
      · exact agreesOn_of_unknown hi _
      · rw [show begun.consult s.machine.pc i = ⟨begun, .ok ()⟩ from if_neg hi]
        exact ha i m hf
    rcases hr : begun.consult s.machine.pc i with ⟨u, result⟩
    rcases hq : (w.session begun trace).consult s.machine.pc i with ⟨v, result'⟩
    rw [hr] at hagrees hconsult
    rw [hq] at hconsult
    obtain ⟨hrel, rfl : result' = result⟩ := hconsult
    have hfirst : ({ s with machine := m }.note (.executing s.machine.snapshot.pc i)).consult
      s.machine.snapshot.pc i = ⟨u, result'⟩ := hr
    have hsecond : ({ w.session s trace with machine := w.machine m }.note
      (.executing (w.session s trace).machine.snapshot.pc i)).consult
      (w.session s trace).machine.snapshot.pc i = ⟨v, result'⟩ := hq
    simp only [Except.map, Except.mapError, Prod.map, id, hfirst, hsecond]
    cases result' with
    | ok => exact hw.answers_finish hrel s.machine hagrees
    | error e =>
      cases e with
      | fault f => exact hw.answers_fail hrel s.machine (some i) f
      | _ => exact ⟨hrel, rfl⟩

theorem answers_step (hw : w.Faithful) (h : w.Rel s t)
    (ha : s.machine.runState = .running → w.Agrees s) : w.Answers s.step t.step := by
  unfold Session.step
  rw [h.runState]
  split
  · next hr => exact hw.answers_cycle h (ha hr)
  · exact ⟨h, rfl⟩

/-! ## Runs -/

theorem answers_runFrom (hw : w.Faithful) (h : w.Rel s t) {n : Nat}
    (ha : ∀ u ∈ s.cyclesFrom n, w.Agrees u) (done : Nat) :
    w.Answers (Session.runFrom done n s) (Session.runFrom done n t) := by
  induction n generalizing done s t with
  | zero => exact ⟨h, rfl⟩
  | succ n ih =>
    rcases s.round_cases with hr | ⟨hr, hround⟩
    · rw [Session.runFrom_of_not_running hr,
        Session.runFrom_of_not_running (by rwa [h.runState])]
      exact ⟨h, rfl⟩
    · have hr' : t.machine.runState = .running := h.runState.trans hr
      rcases ht : t.step with ⟨t', result⟩
      rcases hround with ⟨s', i, hs⟩ | ⟨s', e, hs⟩
      · rw [Session.cyclesFrom_succ_of_ok hr hs] at ha
        obtain ⟨hfirst, hrest⟩ := List.forall_mem_cons.mp ha
        have hstep := hw.answers_step h fun _ => hfirst
        rw [hs, ht] at hstep
        obtain ⟨hrel, rfl⟩ := hstep
        rw [Session.runFrom_succ_of_ok hr hs, Session.runFrom_succ_of_ok hr' ht]
        exact ih hrel hrest (done + 1)
      · rw [Session.cyclesFrom_succ_of_error hr hs] at ha
        have hstep := hw.answers_step h fun _ => ha s (List.mem_singleton_self s)
        rw [hs, ht] at hstep
        obtain ⟨hrel, rfl⟩ := hstep
        rw [Session.runFrom_succ_of_error hr hs, Session.runFrom_succ_of_error hr' ht]
        exact ⟨hrel, rfl⟩

theorem pacing_eq (hw : w.Faithful) (h : w.Rel s t) : t.setup.pacing = s.setup.pacing := by
  obtain ⟨trace, -, rfl⟩ := h
  exact hw.pacing s.setup

theorem answers_run (hw : w.Faithful) (h : w.Rel s t) {patience : Nat} {cycles : Option Int}
    (ha : ∀ u ∈ s.cyclesOf patience (.run cycles), w.Agrees u) :
    w.Answers (s.run patience cycles) (t.run patience cycles) := by
  have hbudget : t.budget cycles = s.budget cycles := by
    unfold Session.budget
    rw [hw.pacing_eq h]
  have hrun := hw.answers_runFrom h ha 0
  unfold Session.run
  rw [hbudget]
  cases hb : s.budget cycles with
  | some n =>
    rw [hb] at hrun
    exact hrun
  | none =>
    rw [hb] at hrun
    change w.Answers (s.runFor patience) (t.runFor patience) at hrun
    rcases hs : s.runFor patience with ⟨s', result⟩
    rcases ht : t.runFor patience with ⟨t', result'⟩
    rw [hs, ht] at hrun
    obtain ⟨hrel, rfl : result' = result⟩ := hrun
    cases result' with
    | error e => exact ⟨hrel, rfl⟩
    | ok n =>
      show w.Answers (if s'.isRunning then _ else _) (if t'.isRunning then _ else _)
      unfold Session.isRunning
      rw [show t'.machine.runState = s'.machine.runState from hrel.runState]
      split <;> exact ⟨hrel, rfl⟩

end Faithful

/-! ## Twins with equal machines -/

/-- Keys and timer are equal. -/
def IsStill (w : Twin) : Prop :=
  ∀ m, w.machine m = m

/-- Then an instruction does the same to both machines if it does the same under both variants. -/
theorem agreesOn_of_apply (hw : w.IsStill) {i : Instruction} {m : Machine}
    (h : m.apply (w.setup s.setup).variant (s.source.drawFor i).1 i =
      m.apply s.setup.variant (s.source.drawFor i).1 i) : w.AgreesOn s i m := by
  unfold AgreesOn
  rw [hw m, h, show w.machine = id from funext hw]
  cases m.apply s.setup.variant (s.source.drawFor i).1 i <;> rfl

namespace Rel

theorem machine_eq (h : w.Rel s t) (hw : w.IsStill) : t.machine = s.machine := by
  obtain ⟨trace, -, rfl⟩ := h
  exact hw s.machine

theorem withMachine (h : w.Rel s t) (hw : w.IsStill) (m : Machine) :
    w.Rel { s with machine := m } { t with machine := m } := by
  obtain ⟨trace, htrace, rfl⟩ := h
  refine ⟨trace, htrace, ?_⟩
  simp only [session, hw m]

theorem edit (h : w.Rel s t) (hw : w.IsStill) (change : Machine → Machine) :
    w.Rel (s.edit change) (t.edit change) := by
  unfold Session.edit
  rw [h.machine_eq hw]
  exact h.withMachine hw _

end Rel

theorem answers_settle {α : Type} (h : w.Rel s t) (hw : w.IsStill)
    (move : Except (Stopped Machine Cause) (α × Machine)) :
    w.Answers (s.settle move) (t.settle move) := by
  cases move with
  | error stopped => exact ⟨h.withMachine hw stopped.state, rfl⟩
  | ok moved => exact ⟨h.withMachine hw moved.2, rfl⟩

theorem answers_setKey (h : w.Rel s t) (hw : w.IsStill) (key : Int) (isDown : Bool) :
    w.Answers (s.setKey key isDown) (t.setKey key isDown) := by
  unfold Session.setKey
  split
  · exact ⟨h, rfl⟩
  · exact ⟨h.edit hw _, rfl⟩

theorem answers_setKeys (h : w.Rel s t) (hw : w.IsStill) (keys : List Int) :
    w.Answers (s.setKeys keys) (t.setKeys keys) := by
  unfold Session.setKeys
  split
  · exact ⟨h, rfl⟩
  · exact ⟨h.edit hw _, rfl⟩

theorem answers_execute (h : w.Rel s t) {i : Instruction} (ha : w.AgreesOn s i s.machine) :
    w.Answers (s.execute i) (t.execute i) := by
  obtain ⟨trace, htrace, rfl⟩ := h
  have hcarry : (w.session s trace).machine.carryOut (w.session s trace).setup.variant i
      (w.session s trace).source = _ := carryOut_machine ha
  unfold Session.execute
  rw [hcarry]
  cases s.machine.carryOut s.setup.variant i s.source with
  | error stopped =>
    obtain ⟨⟨n, source⟩, failure⟩ := stopped
    cases failure <;> exact ⟨⟨trace, htrace, rfl⟩, rfl⟩
  | ok executed => exact ⟨⟨trace, htrace, rfl⟩, rfl⟩

/-- Each instruction that a call fetches, or executes by hand, does the same to both machines. -/
structure AgreesThrough (w : Twin) (patience : Nat) (s : Session) (c : Command) : Prop where
  cycles : ∀ u ∈ s.cyclesOf patience c, w.Agrees u
  byHand : ∀ i, c = .execute i → w.AgreesOn s i s.machine

namespace Faithful

theorem answers_runFrame (hw : w.Faithful) (hstill : w.IsStill) (h : w.Rel s t) {patience : Nat}
    (ha : ∀ u ∈ s.cyclesOf patience .runFrame, w.Agrees u) :
    w.Answers s.runFrame t.runFrame := by
  have hrun := hw.answers_runFrom h ha 0
  unfold Session.runFrame
  rw [h.runState, hw.pacing_eq h]
  split
  · change w.Answers (s.runFor _) (t.runFor _) at hrun
    rcases hs : s.runFor s.setup.pacing.cyclesPerFrame with ⟨s', result⟩
    rcases ht : t.runFor s.setup.pacing.cyclesPerFrame with ⟨t', result'⟩
    rw [hs, ht] at hrun
    obtain ⟨hrel, rfl : result' = result⟩ := hrun
    cases result' with
    | error e => exact ⟨hrel, rfl⟩
    | ok n => exact ⟨hrel.edit hstill _, rfl⟩
  · exact ⟨h, rfl⟩

theorem answers_load (hw : w.Faithful) (hstill : w.IsStill) (h : w.Rel s t) (image : List UInt8) :
    w.Answers (s.load image) (t.load image) := by
  unfold Session.load
  split
  · exact ⟨h, rfl⟩
  · next m hm =>
    have hbegun : w.Rel { s with machine := m, cycles := 0, trace := #[] }
        { t with machine := m, cycles := 0, trace := #[] } := by
      obtain ⟨trace, -, rfl⟩ := h
      refine ⟨#[], hw.fresh, ?_⟩
      simp only [session, hstill m]
    exact ⟨(hbegun.note _).note _, rfl⟩

/-- Every call comes to the same on both sessions. -/
theorem answers_perform (hw : w.Faithful) (hstill : w.IsStill) (h : w.Rel s t) {patience : Nat}
    {c : Command} (ha : w.AgreesThrough patience s c) :
    w.Answers (s.perform patience c) (t.perform patience c) := by
  have hmachine := h.machine_eq hstill
  cases c with
  | load image => exact (hw.answers_load hstill h image).map _
  | loadFile path file =>
    refine Answers.map ?_ _
    unfold Session.loadFile
    split
    · exact ⟨h, rfl⟩
    · exact hw.answers_load hstill h _
  | step => exact (hw.answers_step h fun hr => ha.cycles s (Session.mem_cyclesOf_step hr)).map _
  | run cycles => exact (hw.answers_run h ha.cycles).map _
  | runFrame => exact (hw.answers_runFrame hstill h ha.cycles).map _
  | fetch =>
    refine Answers.map ?_ _
    unfold Session.fetch
    rw [hmachine]
    exact answers_settle h hstill _
  | tick => exact ⟨h.edit hstill _, rfl⟩
  | pause => exact ⟨h.pause, rfl⟩
  | resume => exact ⟨h.resume, rfl⟩
  | togglePause => exact ⟨h.togglePause, rfl⟩
  | halt => exact ⟨h.halt, rfl⟩
  | pressKey key => exact (answers_setKey h hstill key true).map _
  | releaseKey key => exact (answers_setKey h hstill key false).map _
  | setKeys keys => exact (answers_setKeys h hstill keys).map _
  | execute i => exact (answers_execute h (ha.byHand i rfl)).map _
  | read address count =>
    refine Answers.map ?_ _
    unfold Session.read
    rw [hmachine]
    cases s.machine.read address count <;> exact ⟨h, rfl⟩
  | write address data =>
    refine Answers.map ?_ _
    unfold Session.write
    rw [hmachine]
    exact answers_settle h hstill _
  | push address =>
    refine Answers.map ?_ _
    unfold Session.push
    rw [hmachine]
    exact answers_settle h hstill _
  | pop =>
    refine Answers.map ?_ _
    unfold Session.pop
    rw [hmachine]
    exact answers_settle h hstill _
  | clearScreen => exact ⟨h.edit hstill _, rfl⟩
  | setFlag value => exact ⟨h.edit hstill _, rfl⟩

end Faithful

/-! ## Lists of calls -/

/-- If every call comes to the same on both sessions, so does the list. -/
theorem performAll_of_answers {patience : Nat} {cs : List Command} (h : w.Rel s t)
    (hc : ∀ p ∈ s.calls patience cs, ∀ q, w.Rel p.1 q →
      w.Answers (p.1.perform patience p.2) (q.perform patience p.2)) :
    w.Rel (s.performAll patience cs).1 (t.performAll patience cs).1 ∧
      (t.performAll patience cs).2 = (s.performAll patience cs).2 := by
  induction cs generalizing s t with
  | nil => exact ⟨h, rfl⟩
  | cons c cs ih =>
    obtain ⟨hfirst, hrest⟩ := List.forall_mem_cons.mp hc
    obtain ⟨hrel, hresult⟩ := hfirst t h
    obtain ⟨hrels, hresults⟩ := ih hrel hrest
    refine ⟨hrels, ?_⟩
    show (t.perform patience c).result :: _ = (s.perform patience c).result :: _
    rw [hresults, show (t.perform patience c).result = _ from hresult]

/-- A list of calls comes to the same on both sessions if each of its calls goes through. -/
theorem Faithful.answers_performAll (hw : w.Faithful) (hstill : w.IsStill) (h : w.Rel s t)
    {patience : Nat} {cs : List Command}
    (ha : ∀ p ∈ s.calls patience cs, w.AgreesThrough patience p.1 p.2) :
    w.Rel (s.performAll patience cs).1 (t.performAll patience cs).1 ∧
      (t.performAll patience cs).2 = (s.performAll patience cs).2 :=
  performAll_of_answers h fun p hp _ hq => hw.answers_perform hstill hq (ha p hp)

end Twin

end Chip8
