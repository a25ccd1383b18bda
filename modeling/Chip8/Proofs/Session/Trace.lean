/-
# Chip8.Proofs.Session.Trace — what a trace records, and that recording it changes nothing.

A cycle of a tracing session does one of three things to its trace (`Session.TraceGrows`): it is executed
and adds an entry, it faults and adds an entry with the text of the fault, or the hook breaks it off and
it adds none.  A fault halts the machine, so no entry follows it.  From this the shape of every trace
follows by induction along the log of the session (`TraceSound`), and as long as nothing but cycles
happens each entry begins where the one before it ended (`Session.Chained`).

That tracing is passive is `untraced_performAll`; `trace_complete` puts both halves together.
-/
import Chip8.Proofs.Session.CycleLog
import Chip8.Proofs.Session.Faults
import Chip8.Proofs.Session.Untraced
import Chip8.Session.Report

namespace Chip8

/-! ## Kinds of calls -/

namespace Command

/-- The calls that execute cycles and do nothing else. -/
def OnlyCycles : Command → Prop
  | step | run _ => True
  | _ => False

/-- The calls that execute cycles first. -/
def BeginsWithCycles : Command → Prop
  | step | run _ | runFrame => True
  | _ => False

end Command

namespace Session

variable {s t : Session} {result : Except SessionError Instruction}

/-! ## Faults in a log -/

/-- The cycle has ended by a fault. -/
def isFault : Except SessionError Instruction → Bool
  | .error (.fault _) => true
  | _ => false

/-- Some cycle of the log has ended by a fault. -/
def hasFaulted (log : List Session) : Bool :=
  log.any fun u => isFault u.step.result

theorem hasFaulted_append_singleton (log : List Session) (u : Session) :
    hasFaulted (log ++ [u]) = (hasFaulted log || isFault u.step.result) := by
  unfold hasFaulted
  rw [List.any_append, List.any_cons, List.any_nil, Bool.or_false]

/-! ## One cycle -/

/-- What a cycle that ends with a result does to the trace of a tracing session, and to its count. -/
inductive TraceGrows (s t : Session) : Except SessionError Instruction → Prop where
  /-- The cycle is executed. -/
  | executed {i : Instruction} (hcycles : t.cycles = s.cycles + 1)
      (htrace : t.trace = s.trace.push
        ⟨s.cycles, s.machine.pc, some i, s.machine.snapshot, t.machine.snapshot, none⟩) :
      TraceGrows s t (.ok i)
  /-- The cycle faults. -/
  | faulted {f : Fault} (i : Option Instruction) (hcycles : t.cycles = s.cycles)
      (hhalted : t.machine.runState = .halted)
      (htrace : t.trace = s.trace.push
        ⟨s.cycles, s.machine.pc, i, s.machine.snapshot, t.machine.snapshot, some f.message⟩) :
      TraceGrows s t (.error (.fault f))
  /-- The hook breaks the cycle off. -/
  | brokenOff {text : String} (hcycles : t.cycles = s.cycles) (htrace : t.trace = s.trace) :
      TraceGrows s t (.error (.brokenOff text))

/-- However a cycle of a tracing session ends, the trace grows accordingly. -/
theorem StepEnds.traceGrows (h : s.machine.InRange) (htracing : s.setup.isTracing = true)
    (ht : s.StepEnds t result) : s.TraceGrows t result := by
  cases ht with
  | unfetched => exact .faulted none rfl rfl (if_pos htracing)
  | hookFaulted | faulted => exact .faulted (some _) rfl rfl (if_pos htracing)
  | brokenOff => exact .brokenOff rfl rfl
  | passed | executed => exact .executed rfl (if_pos htracing)
  | misfit journal hf hi hx =>
    obtain ⟨cause, hcause, -⟩ := (h.fetch hf).1.faultsBy_of_apply hx
    cases hcause

/-! ## The shape of a trace -/

/-- The trace of a session that has or has not faulted: its entries are numbered and know where they
began, there are as many as cycles and one for the fault, the fault stands in the last one, and behind a
fault the machine is halted. -/
structure TraceSound (s : Session) (faulted : Bool) : Prop where
  numbered : ∀ (i : Nat) (e : TraceEntry), s.trace[i]? = some e → e.cycle = i ∧ e.pc = e.before.pc
  size : s.trace.size = s.cycles + faulted.toNat
  error : ∀ (i : Nat) (e : TraceEntry), s.trace[i]? = some e →
    (e.error ≠ none ↔ faulted = true ∧ i + 1 = s.trace.size)
  halted : faulted = true → s.machine.runState = .halted

namespace TraceSound

variable {faulted : Bool}

theorem of_empty (htrace : s.trace = #[]) (hcycles : s.cycles = 0) : s.TraceSound false where
  numbered i e he := by
    rw [htrace] at he
    cases he
  size := by
    rw [htrace, hcycles]
    rfl
  error i e he := by
    rw [htrace] at he
    cases he
  halted := nofun

/-- Neither trace nor count has changed, and a machine that has faulted is still halted. -/
theorem of_same (h : s.TraceSound faulted) (htrace : t.trace = s.trace)
    (hcycles : t.cycles = s.cycles) (hhalted : faulted = true → t.machine.runState = .halted) :
    t.TraceSound faulted where
  numbered := by
    rw [htrace]
    exact h.numbered
  size := by
    rw [htrace, hcycles]
    exact h.size
  error := by
    rw [htrace]
    exact h.error
  halted := hhalted

/-- An entry that joins the trace of a session without a fault. -/
theorem push (h : s.TraceSound false) {new : TraceEntry} (htrace : t.trace = s.trace.push new)
    (hcycle : new.cycle = s.cycles) (hpc : new.pc = new.before.pc)
    (hcycles : t.cycles + new.error.isSome.toNat = s.cycles + 1)
    (hhalted : new.error.isSome = true → t.machine.runState = .halted) :
    t.TraceSound new.error.isSome where
  numbered i e he := by
    rw [htrace, Array.getElem?_push] at he
    split at he
    · next hi =>
      obtain rfl := Option.some.inj he
      have hsize : s.trace.size = s.cycles := h.size
      exact ⟨by omega, hpc⟩
    · exact h.numbered i e he
  size := by
    have hsize : s.trace.size = s.cycles := h.size
    rw [htrace, Array.size_push, hsize, hcycles]
  error i e he := by
    rw [htrace, Array.size_push]
    rw [htrace, Array.getElem?_push] at he
    split at he
    · next hi =>
      obtain rfl := Option.some.inj he
      rw [← Option.isSome_iff_ne_none, hi]
      exact (and_iff_left rfl).symm
    · next hi =>
      -- no entry before this one tells of a fault, and none of them is the last one now
      have hold : ¬ e.error ≠ none := fun herror => nomatch ((h.error i e he).mp herror).1
      have hin : i < s.trace.size := (Array.getElem?_eq_some_iff.mp he).1
      refine iff_of_false hold ?_
      rintro ⟨-, hlast⟩
      omega
  halted := hhalted

/-- One more cycle of a session that has not faulted. -/
theorem cycle (h : s.TraceSound false) (hg : s.TraceGrows t result) :
    t.TraceSound (isFault result) := by
  cases hg with
  | executed hcycles htrace => exact h.push htrace rfl rfl hcycles nofun
  | faulted i hcycles hhalted htrace =>
    exact h.push htrace rfl rfl (congrArg (· + 1) hcycles) fun _ => hhalted
  | brokenOff hcycles htrace => exact h.of_same htrace hcycles nofun

/-- At most one entry tells of a fault, and it is shown if its text is not empty. -/
theorem length_errors_le (h : s.TraceSound faulted) : s.summary.errors.length ≤ 1 := by
  show (s.trace.toList.filterMap TraceEntry.shownError?).length ≤ 1
  rcases List.eq_nil_or_concat s.trace.toList with hnil | ⟨init, last, hlast⟩
  · rw [hnil]
    exact Nat.zero_le 1
  · -- all entries but the last one are without an error
    have hinit : init.filterMap TraceEntry.shownError? = [] := by
      rw [List.filterMap_eq_nil_iff]
      intro e he
      obtain ⟨i, hi, hie⟩ := List.mem_iff_getElem.mp he
      have hentry : s.trace[i]? = some e := by
        rw [← Array.getElem?_toList, hlast, List.concat_eq_append, List.getElem?_append_left hi,
          List.getElem?_eq_getElem hi, hie]
      have hnone : e.error = none := by
        apply Classical.byContradiction
        intro herror
        have hend := ((h.error i e hentry).mp herror).2
        rw [← Array.length_toList, hlast, List.length_concat] at hend
        omega
      rw [TraceEntry.shownError?, hnone, Option.filter_none]
    rw [hlast, List.concat_eq_append, List.filterMap_append, hinit, List.nil_append]
    exact List.length_filterMap_le _ [last]

end TraceSound

/-- Every move keeps the shape of the trace of a tracing session. -/
theorem isCarried_traceSound (Allowed : Command → Prop) :
    IsCarried Allowed fun s log => s.setup.isTracing = true → s.TraceSound (hasFaulted log) where
  start _ _ _ _ := .of_empty rfl rfl
  cycle := by
    intro s log hm hr h htracing
    have hends := step_ends hr
    rw [hends.setup] at htracing
    have hsound := h htracing
    -- the machine is running, so there was no fault yet
    have hnone : hasFaulted log = false := by
      cases hf : hasFaulted log with
      | false => rfl
      | true =>
        have hhalted := hsound.halted hf
        rw [hr] at hhalted
        cases hhalted
    rw [hnone] at hsound
    rw [hasFaulted_append_singleton, hnone, Bool.false_or]
    exact hsound.cycle (hends.traceGrows hm htracing)
  handled := by
    intro s log m journal hm h htracing
    have hsound := h htracing
    exact hsound.of_same rfl rfl fun hf => hm.runState_of_halted (hsound.halted hf)
  fetched := by
    intro s log i m _ hf h htracing
    refine (h htracing).of_same rfl rfl ?_
    rw [Machine.eq_advance_of_fetch hf]
    exact (h htracing).halted
  booted _ _ _ _ := .of_empty rfl rfl

/-! ## Consecutive entries -/

/-- From some entry on, each entry begins in the state in which the one before it ended. -/
def Linked (base : Nat) (entries : Array TraceEntry) : Prop :=
  ∀ (i : Nat) (e f : TraceEntry), base ≤ i → entries[i]? = some e → entries[i + 1]? = some f →
    e.after = f.before

/-- A tracing session whose entries are linked from some entry on, and which is itself in the state in
which the last of these ended. -/
structure Chained (s : Session) (base : Nat) : Prop where
  inRange : s.machine.InRange
  tracing : s.setup.isTracing = true
  linked : Linked base s.trace
  latest : ∀ (i : Nat) (e : TraceEntry), base ≤ i → i + 1 = s.trace.size → s.trace[i]? = some e →
    e.after = s.machine.snapshot

theorem chained_size (h : s.machine.InRange) (htracing : s.setup.isTracing = true) :
    s.Chained s.trace.size where
  inRange := h
  tracing := htracing
  linked i e f hi he := by
    rw [Array.getElem?_eq_none hi] at he
    cases he
  latest i e hi hlast := by omega

namespace Chained

variable {base : Nat}

/-- The session is where the new entry begins. -/
theorem linked_push (h : s.Chained base) {new : TraceEntry}
    (hbefore : new.before = s.machine.snapshot) : Linked base (s.trace.push new) := by
  intro i e f hi he hf
  rw [Array.getElem?_push] at he hf
  split at hf
  · next hlast =>
    obtain rfl := Option.some.inj hf
    rw [if_neg (by omega)] at he
    rw [hbefore]
    exact h.latest i e hi hlast he
  · next hlast =>
    have hsome : i + 1 < s.trace.size := (Array.getElem?_eq_some_iff.mp hf).1
    rw [if_neg (by omega)] at he
    exact h.linked i e f hi he hf

theorem linked_of_grows (h : s.Chained base) (hg : s.TraceGrows t result) : Linked base t.trace := by
  cases hg with
  | executed _ htrace | faulted _ _ _ htrace =>
    rw [htrace]
    exact h.linked_push rfl
  | brokenOff _ htrace =>
    rw [htrace]
    exact h.linked

/-- After a cycle that is not broken off the session is where the new entry ends. -/
theorem latest_of_grows (hg : s.TraceGrows t result)
    (hresult : ∀ text, result ≠ .error (.brokenOff text)) (i : Nat) (e : TraceEntry)
    (hlast : i + 1 = t.trace.size) (he : t.trace[i]? = some e) : e.after = t.machine.snapshot := by
  cases hg with
  | executed _ htrace | faulted _ _ _ htrace =>
    rw [htrace, Array.size_push] at hlast
    rw [htrace, Array.getElem?_push, if_pos (by omega)] at he
    obtain rfl := Option.some.inj he
    rfl
  | brokenOff _ _ => exact (hresult _ rfl).elim

/-- A cycle, or one that is refused, links its entry; unless it is broken off, the chain goes on. -/
theorem step (h : s.Chained base) :
    Linked base s.step.session.trace ∧
      ((∀ text, s.step.result ≠ .error (.brokenOff text)) → s.step.session.Chained base) := by
  by_cases hr : s.machine.runState = .running
  · have hends := step_ends hr
    have hg := hends.traceGrows h.inRange h.tracing
    have hlinked := h.linked_of_grows hg
    refine ⟨hlinked, fun hresult => ?_⟩
    refine ⟨inRange_step h.inRange, ?_, hlinked, fun i e _ => latest_of_grows hg hresult i e⟩
    rw [hends.setup]
    exact h.tracing
  · rw [step_of_not_running hr]
    exact ⟨h.linked, fun _ => h⟩

/-- The same is true of a run. -/
theorem runFrom (h : s.Chained base) (done n : Nat) :
    Linked base (runFrom done n s).session.trace ∧
      ((∀ text, (Session.runFrom done n s).result ≠ .error (.brokenOff text)) →
        (Session.runFrom done n s).session.Chained base) := by
  induction n generalizing done s with
  | zero => exact ⟨h.linked, fun _ => h⟩
  | succ n ih =>
    rcases s.round_cases with hr | ⟨hr, hround⟩
    · rw [runFrom_of_not_running hr]
      exact ⟨h.linked, fun _ => h⟩
    · obtain ⟨hlinked, hchained⟩ := h.step
      rcases hround with ⟨t, i, hs⟩ | ⟨t, e, hs⟩
      · rw [hs] at hchained
        rw [runFrom_succ_of_ok hr hs]
        exact ih (hchained nofun) (done + 1)
      · rw [hs] at hlinked hchained
        rw [runFrom_succ_of_error hr hs]
        refine ⟨hlinked, fun hresult => hchained fun text he => hresult text ?_⟩
        exact congrArg Except.error (Except.error.inj he)

theorem run (h : s.Chained base) (patience : Nat) (cycles : Option Int) :
    Linked base (s.run patience cycles).session.trace ∧
      ((∀ text, (s.run patience cycles).result ≠ .error (.brokenOff text)) →
        (s.run patience cycles).session.Chained base) := by
  obtain ⟨hlinked, hchained⟩ := h.runFrom 0 ((s.budget cycles).getD patience)
  rw [session_run]
  refine ⟨hlinked, fun hresult => hchained fun text he => ?_⟩
  exact hresult text (s.result_run_of_error patience cycles he)

/-- A call that begins with cycles links their entries, whatever it does behind them. -/
theorem linked_perform (h : s.Chained base) (patience : Nat) {c : Command}
    (hc : c.BeginsWithCycles) : Linked base (s.perform patience c).session.trace := by
  cases c with
  | step => exact h.step.1
  | run cycles => exact (h.run patience cycles).1
  | runFrame =>
    have hrun := (h.runFrom 0 s.setup.pacing.cyclesPerFrame).1
    show Linked base s.runFrame.session.trace
    unfold runFrame runFor
    split
    · rcases hr : Session.runFrom 0 s.setup.pacing.cyclesPerFrame s with ⟨t, result⟩
      rw [hr] at hrun
      cases result with
      | ok n => exact hrun
      | error e => exact hrun
    · exact h.linked
  | _ => exact hc.elim

/-- Calls that execute cycles and do nothing else carry the chain on unless one is broken off. -/
theorem perform (h : s.Chained base) (patience : Nat) {c : Command} (hc : c.OnlyCycles)
    (hresult : ∀ text, (s.perform patience c).result ≠ .error (.brokenOff text)) :
    (s.perform patience c).session.Chained base := by
  cases c with
  | step =>
    apply h.step.2
    intro text he
    apply hresult text
    show s.step.result.map _ = _
    rw [he]
    rfl
  | run cycles =>
    apply (h.run patience cycles).2
    intro text he
    apply hresult text
    show (s.run patience cycles).result.map _ = _
    rw [he]
    rfl
  | _ => exact hc.elim

theorem performAll (h : s.Chained base) (patience : Nat) {cs : List Command}
    (hcs : ∀ c ∈ cs, c.OnlyCycles)
    (hresults : ∀ r ∈ (s.performAll patience cs).2, ∀ text, r ≠ .error (.brokenOff text)) :
    (s.performAll patience cs).1.Chained base := by
  induction cs generalizing s with
  | nil => exact h
  | cons c cs ih =>
    have hfirst := h.perform patience (hcs c List.mem_cons_self)
      (hresults _ List.mem_cons_self)
    exact ih hfirst (fun d hd => hcs d (List.mem_cons_of_mem c hd))
      fun r hr => hresults r (List.mem_cons_of_mem _ hr)

end Chained

/-! ## Every reachable session -/

/-- **The trace is complete and passive.**  Take a session that a host can bring about, with tracing on,
and the log of its cycles since the last load.  The entries of its trace are numbered from zero and know
where they began.  There are as many as executed cycles, and one more if and only if a cycle has
faulted; then this last entry, and no other, tells of the error, the machine is halted, and the summary
has no second error.  If the host goes on with nothing but cycles and runs, none of which is broken off,
then of any two consecutive entries the first ended where the second begins, up to the cycles of a last
call.  And without tracing every list of calls on a fresh session comes to the same results, and to the
same session without its trace. -/
theorem trace_complete {s : Session} {log : List Session} (h : s.LoggedBy Command.IsHostCall log)
    (htracing : s.setup.isTracing = true) :
    (∀ (i : Nat) (e : TraceEntry), s.trace[i]? = some e → e.cycle = i ∧ e.pc = e.before.pc) ∧
      s.trace.size = s.cycles + (hasFaulted log).toNat ∧
      (∀ (i : Nat) (e : TraceEntry), s.trace[i]? = some e →
        (e.error ≠ none ↔ hasFaulted log = true ∧ i + 1 = s.trace.size)) ∧
      (hasFaulted log = true → s.machine.runState = .halted) ∧
      s.summary.errors.length ≤ 1 ∧
      (∀ (patience : Nat) (cs : List Command) (c : Command), (∀ d ∈ cs, d.OnlyCycles) →
        (∀ r ∈ (s.performAll patience cs).2, ∀ text, r ≠ .error (.brokenOff text)) →
        c.BeginsWithCycles →
        let t := ((s.performAll patience cs).1.perform patience c).session
        ∀ (i : Nat) (e f : TraceEntry), s.trace.size ≤ i → t.trace[i]? = some e →
          t.trace[i + 1]? = some f → e.after = f.before) ∧
      (∀ (setup : Setup) (threshold : Option Level) (source : ByteSource) (patience : Nat)
        (cs : List Command),
        let on := (start { setup with isTracing := true } threshold source).performAll patience cs
        let off := (start { setup with isTracing := false } threshold source).performAll patience cs
        off.2 = on.2 ∧ off.1 = on.1.untraced ∧ off.1.trace = #[]) := by
  have hsound : s.TraceSound (hasFaulted log) :=
    h.induct (fun _ hc => hc) (isCarried_traceSound _) htracing
  refine ⟨hsound.numbered, hsound.size, hsound.error, hsound.halted, hsound.length_errors_le, ?_, ?_⟩
  · intro patience cs c hcs hresults hc
    have hchained := (chained_size h.reachable.inRange htracing).performAll patience hcs hresults
    exact hchained.linked_perform patience hc
  · intro setup threshold source patience cs on off
    have hoff : off = (on.1.untraced, on.2) :=
      (start { setup with isTracing := true } threshold source).untraced_performAll patience cs
    rw [hoff]
    exact ⟨rfl, rfl, rfl⟩

/-- A program that sets a register and then returns from nowhere, in one run: two entries, the first of
which ended where the second begins, and the second of which tells of the fault. -/
theorem trace_complete_fault :
    ∃ s log, LoggedBy Command.IsHostCall s log ∧ s.setup.isTracing = true ∧ s.cycles = 1 ∧
      hasFaulted log = true ∧ s.machine.runState = .halted ∧
      ∃ e f : TraceEntry, s.trace[0]? = some e ∧ s.trace[1]? = some f ∧ e.after = f.before ∧
        f.error ≠ none := by
  let booted := ((Session.start ⟨.standard, .standard, true, none⟩ none (.ofList [])).perform 0
    (.load [0x60, 0x05, 0x00, 0xEE])).session
  have hbooted : booted.LoggedBy Command.IsHostCall [] :=
    (LoggedBy.start _ _ _).booted 0 trivial (by show _ ≤ _; decide)
  have hrun := hbooted.performed 0 (c := .run none) trivial id
  have hfault : hasFaulted ([] ++ booted.cyclesOf 0 (.run none)) = true := by decide +kernel
  have hcycles : (booted.perform 0 (.run none)).session.cycles = 1 := by decide +kernel
  obtain ⟨-, -, -, -, -, hlinked, -⟩ := trace_complete hbooted (by decide +kernel)
  obtain ⟨-, hsize, herror, hhalted, -⟩ := trace_complete hrun (by decide +kernel)
  rw [hcycles, hfault] at hsize
  have htwo : (booted.perform 0 (.run none)).session.trace.size = 2 := hsize
  obtain ⟨e, he⟩ : ∃ e, (booted.perform 0 (.run none)).session.trace[0]? = some e :=
    ⟨_, Array.getElem?_eq_getElem (by rw [htwo]; decide)⟩
  obtain ⟨f, hf⟩ : ∃ f, (booted.perform 0 (.run none)).session.trace[1]? = some f :=
    ⟨_, Array.getElem?_eq_getElem (by rw [htwo]; decide)⟩
  refine ⟨_, _, hrun, by decide +kernel, hcycles, hfault, hhalted hfault, e, f, he, hf, ?_, ?_⟩
  · exact hlinked 0 [] (.run none) nofun nofun trivial 0 e f (by decide +kernel) he hf
  · exact (herror 1 f hf).mpr ⟨hfault, hsize.symm⟩

end Session

end Chip8
