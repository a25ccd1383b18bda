/-
# Chip8.Proofs.Session.UnknownWords — the hook is told of every unknown word, and that is all.

A cycle that fetches a word outside the instruction set tells the hook of it, whatever the hook then does;
no other cycle and no other call tells it anything.  So what the hook was told of is read off the sessions
in which cycles began, and so is what it was told of when it reacted in one of these cycles
(`ToldOf.performAll`).  A hook may react to each word in another way, pause at one, declare a fault at the
next, and return at others.

Where it returns, the word does nothing: the cycle moves the program counter past it, is counted and
traced, and leaves the machine in the run state that the hook chose (`passes_of_unknownWord`).  A run that
such a cycle belongs to ends behind it if the machine has been stopped, and else goes on with what is left
of its budget (`runFrom_of_cyclesFrom`).
-/
import Chip8.Proofs.Session.Budget
import Chip8.Proofs.Session.Calls

namespace Chip8

namespace Session

/-- The word outside the instruction set that a cycle of the session fetches. -/
def unknownWord? (s : Session) : Option UInt16 :=
  match s.machine.fetch with
  | .ok (i, _) => if i.op = .unknown then some i.word else none
  | .error _ => none

variable {s t u : Session} {patience : Nat} {c : Command} {cs : List Command}

theorem unknownWord?_eq_some_iff {word : UInt16} :
    s.unknownWord? = some word ↔
      ∃ i m, s.machine.fetch = .ok (i, m) ∧ i.op = .unknown ∧ i.word = word := by
  unfold unknownWord?
  constructor
  · intro h
    split at h
    · next i m hf =>
      split at h
      · next hi => exact ⟨i, m, hf, hi, Option.some.inj h⟩
      · cases h
    · cases h
  · rintro ⟨i, m, hf, hi, rfl⟩
    simp only [hf, if_pos hi]

/-! ## What the hook is told of -/

/-- A cycle tells the hook of the word that it fetches if that word is unknown, however it ends. -/
theorem StepEnds.reported {result : Except SessionError Instruction} {hook : Hook}
    (hhook : s.setup.hook = some hook) (ht : s.StepEnds t result) :
    t.reported = s.reported ++ s.unknownWord?.toList.toArray := by
  have hunknown {i : Instruction} {m : Machine} (hf : s.machine.fetch = .ok (i, m))
      (hi : i.op = .unknown) :
      s.reported.push i.word = s.reported ++ s.unknownWord?.toList.toArray := by
    rw [unknownWord?_eq_some_iff.mpr ⟨i, m, hf, hi, rfl⟩, Option.toList_some,
      Array.push_eq_append]
  cases ht with
  | hookFaulted journal hf hi | brokenOff journal hf hi => exact hunknown hf hi
  | passed journal hf hi =>
    show Reaction.noted (s.reaction? _) s.reported _ = _
    unfold reaction?
    rw [hhook]
    exact hunknown hf hi
  | unfetched journal hf =>
    simp only [unknownWord?, hf]
    exact Array.append_empty.symm
  | faulted journal hf hi | misfit journal hf hi | executed journal hf hi =>
    simp only [unknownWord?, hf, if_neg hi]
    exact Array.append_empty.symm

/-- The unknown words among those that cycles fetch. -/
def unknownWords (us : List Session) : Array UInt16 :=
  (us.filterMap unknownWord?).toArray

theorem unknownWords_concat (us : List Session) (s : Session) :
    unknownWords (us ++ [s]) = unknownWords us ++ s.unknownWord?.toList.toArray := by
  unfold unknownWords
  rw [List.filterMap_append, List.append_toArray, List.filterMap_cons, List.filterMap_nil]
  cases s.unknownWord? <;> rfl

/-- The hook was told of the unknown words that some cycles fetched, behind what it was told of before, and
each of these cycles found it behind the words of the cycles before. -/
structure ToldOf (hook : Hook) (past : Array UInt16) (s : Session) (us : List Session) : Prop where
  installed : s.setup.hook = some hook
  reported : s.reported = past ++ unknownWords us
  reacts : ∀ before u after, us = before ++ u :: after → ∀ i,
    u.reaction? i = some (hook.react (past ++ unknownWords before) i)

namespace ToldOf

variable {hook : Hook} {past : Array UInt16} {us : List Session}

theorem start (hhook : s.setup.hook = some hook) : ToldOf hook s.reported s [] where
  installed := hhook
  reported := Array.append_empty.symm
  reacts before u after h := by simp at h

theorem of_same (h : ToldOf hook past s us) (hsetup : t.setup = s.setup)
    (hreported : t.reported = s.reported) : ToldOf hook past t us where
  installed := by rw [hsetup, h.installed]
  reported := by rw [hreported, h.reported]
  reacts := h.reacts

/-- Told of these words, the hook reacts to them. -/
theorem reaction?_eq (h : ToldOf hook past s us) (i : Instruction) :
    s.reaction? i = some (hook.react (past ++ unknownWords us) i) := by
  unfold reaction?
  rw [h.installed, h.reported]
  rfl

/-- A cycle tells it of its own word, behind those of the cycles before. -/
theorem step (hr : s.machine.runState = .running) (h : ToldOf hook past s us) :
    ToldOf hook past s.step.session (us ++ [s]) where
  installed := by rw [setup_step, h.installed]
  reported := by
    rw [(step_ends hr).reported h.installed, h.reported, unknownWords_concat, Array.append_assoc]
  reacts := by
    intro before u after hsplit
    rcases List.eq_nil_or_concat after with rfl | ⟨later, v, rfl⟩
    · -- the cycle itself
      obtain ⟨rfl, hlast⟩ := List.append_inj' hsplit rfl
      obtain rfl : s = u := List.singleton_inj.mp hlast
      exact h.reaction?_eq
    · -- a cycle before it
      rw [List.concat_eq_append, ← List.cons_append, ← List.append_assoc] at hsplit
      obtain ⟨hearlier, -⟩ := List.append_inj' hsplit rfl
      exact h.reacts before u later hearlier

theorem perform (h : ToldOf hook past s us) (patience : Nat) (c : Command) :
    ToldOf hook past (s.perform patience c).session (us ++ s.cyclesOf patience c) := by
  have hleaves := s.idle_leaves (c := c) patience
  cases c with
  | step =>
    show ToldOf hook past s.step.session (us ++ if s.machine.runState = .running then [s] else [])
    split
    · next hr => exact h.step hr
    · next hr =>
      rw [step_of_not_running hr, List.append_nil]
      exact h
  | run cycles =>
    show ToldOf hook past (s.run patience cycles).session _
    rw [session_run]
    exact carried_runFrom ToldOf.step h 0 _
  | runFrame => exact carried_runFrame ToldOf.step (fun ht => ht.of_same rfl rfl) h
  | execute i =>
    -- a word that is executed by hand goes to the primitives and passes the hook by
    show ToldOf hook past (s.execute i).session (us ++ [])
    rw [List.append_nil]
    rcases s.execute_cases i with ⟨e, hs⟩ | ⟨n, journal, -, hs⟩ <;> rw [hs]
    · exact h
    · exact h.of_same rfl rfl
  | _ =>
    obtain ⟨hsetup, -, hreported⟩ := hleaves trivial
    exact (List.append_nil us).symm ▸ h.of_same hsetup hreported

theorem performAll (h : ToldOf hook past s us) (patience : Nat) (cs : List Command) :
    ToldOf hook past (s.performAll patience cs).1 (us ++ s.cyclesAll patience cs) := by
  induction cs generalizing s us with
  | nil => exact (List.append_nil us).symm ▸ h
  | cons c cs ih =>
    have hlater := ih (h.perform patience c)
    rwa [List.append_assoc] at hlater

end ToldOf

/-! ## What else an unknown word does -/

/-- What a cycle of `s` that has passed an unknown instruction leaves. -/
structure Passes (s : Session) (i : Instruction) (t : Session) : Prop where
  answer : s.step = ⟨t, .ok i⟩
  machine : t.machine =
    { s.machine with
      pc := s.machine.pc + 2
      runState := Reaction.runState (s.reaction? i) }
  setup : t.setup = s.setup
  source : t.source = s.source
  cycles : t.cycles = s.cycles + 1
  trace : t.trace = if s.setup.isTracing then
    s.trace.push ⟨s.cycles, s.machine.pc, some i, s.machine.snapshot, t.machine.snapshot, none⟩
    else s.trace
  reported : t.reported = s.reported.push i.word

/-- A cycle whose hook returns passes the word, whatever the hook does at other words. -/
theorem passes_of_unknownWord (hr : s.machine.runState = .running) {hook : Hook}
    (hhook : s.setup.hook = some hook) (hreturns : s.HookReturns) {word : UInt16}
    (hw : s.unknownWord? = some word) : ∃ i t, i.word = word ∧ s.Passes i t := by
  obtain ⟨i, m, hf, hi, hword⟩ := unknownWord?_eq_some_iff.mp hw
  have hends := step_ends hr
  rcases hs : s.step with ⟨t, result⟩
  rw [hs] at hends
  obtain ⟨rfl, journal, rfl⟩ := hends.of_unknown hf hi (hreturns i m hf hi)
  refine ⟨i, _, hword, hs, ?_, rfl, rfl, rfl, rfl, ?_⟩
  · rw [Machine.eq_of_fetch hf]
    rfl
  · show Reaction.noted (s.reaction? i) s.reported i = _
    unfold reaction?
    rw [hhook]
    rfl

/-! ## Runs -/

/-- The first cycle of a run begins where the run begins. -/
theorem exists_cyclesFrom_succ (hr : s.machine.runState = .running) (n : Nat) :
    ∃ more, s.cyclesFrom (n + 1) = s :: more := by
  rcases s.round_cases with hr' | ⟨-, ⟨t, i, hs⟩ | ⟨t, e, hs⟩⟩
  · exact (hr' hr).elim
  · exact ⟨_, cyclesFrom_succ_of_ok hr hs n⟩
  · exact ⟨[], cyclesFrom_succ_of_error hr hs n⟩

/-- A run that a cycle belongs to goes on behind that cycle, if it has answered, with what is left of the
budget. -/
theorem runFrom_of_cyclesFrom {n : Nat} {before after : List Session} {i : Instruction}
    (hu : s.cyclesFrom n = before ++ u :: after) (hs : u.step = ⟨t, .ok i⟩) (done : Nat) :
    runFrom done n s = runFrom (done + (before.length + 1)) (n - (before.length + 1)) t ∧
      after = t.cyclesFrom (n - (before.length + 1)) := by
  induction n generalizing s done before with
  | zero => simp [cyclesFrom] at hu
  | succ n ih =>
    rcases s.round_cases with hr | ⟨hr, ⟨s', j, hfirst⟩ | ⟨s', e, hfirst⟩⟩
    · simp [cyclesFrom_of_not_running hr] at hu
    · rw [cyclesFrom_succ_of_ok hr hfirst] at hu
      rw [runFrom_succ_of_ok hr hfirst]
      cases before with
      | nil =>
        obtain ⟨rfl, rfl⟩ := List.cons.inj hu
        rw [hfirst] at hs
        cases hs
        exact ⟨rfl, rfl⟩
      | cons b before' =>
        obtain ⟨-, hrest⟩ := List.cons.inj hu
        rw [List.length_cons,
          show done + (before'.length + 1 + 1) = done + 1 + (before'.length + 1) by omega,
          show n + 1 - (before'.length + 1 + 1) = n - (before'.length + 1) by omega]
        exact ih hrest (done + 1)
    · -- the only cycle of the run has failed
      rw [cyclesFrom_succ_of_error hr hfirst] at hu
      cases before with
      | nil =>
        obtain ⟨rfl, -⟩ := List.cons.inj hu
        rw [hfirst] at hs
        cases hs
      | cons b before' => simp at hu

/-- How many cycles a call allows. -/
def allowance (patience : Nat) (s : Session) : Command → Nat
  | .step => 1
  | .run cycles => (s.budget cycles).getD patience
  | .runFrame => s.setup.pacing.cyclesPerFrame
  | _ => 0

theorem cyclesOf_eq_cyclesFrom (patience : Nat) (s : Session) (c : Command) :
    s.cyclesOf patience c = s.cyclesFrom (s.allowance patience c) := by
  cases c with
  | step => exact (s.cyclesFrom_one patience).symm
  | _ => rfl

/-- How a call goes on behind a cycle that was its `k`-th and left the session `t`; the cycles `after`
follow. -/
structure GoesOn (patience : Nat) (s : Session) (c : Command) (k : Nat) (t : Session)
    (after : List Session) : Prop where
  /-- With `k` cycles done, what is left of its budget goes to `t`. -/
  rest : s.runFor (s.allowance patience c) = runFrom k (s.allowance patience c - k) t
  /-- So a run answers as a run on what is left of its limit does, with `k` more. -/
  run : ∀ cycles, c = .run cycles → s.run patience cycles =
    (t.run (patience - k) ((cycles.or s.setup.pacing.maxCycles).map (· - (k : Int)))).map (k + ·)
  /-- The next cycle begins in `t` unless the budget is spent. -/
  next : t.machine.runState = .running → k < s.allowance patience c → ∃ more, after = t :: more
  /-- On a machine that has been stopped there is no next cycle. -/
  last : t.machine.runState ≠ .running → after = []
  /-- A run then answers with its count, the cycle included. -/
  run_stopped : t.machine.runState ≠ .running → ∀ cycles, c = .run cycles →
    s.run patience cycles = ⟨t, .ok k⟩
  /-- And so does a frame, behind its tick. -/
  frame_stopped : t.machine.runState ≠ .running → c = .runFrame → s.runFrame = ⟨t.tick, .ok k⟩

/-- A run whose cycles are those of another one, with `k` before them. -/
theorem run_of_rest {k : Nat} {cycles : Option Int} (hsetup : t.setup = s.setup)
    (h : s.runFor (s.allowance patience (.run cycles)) =
      runFrom k (s.allowance patience (.run cycles) - k) t) :
    s.run patience cycles =
      (t.run (patience - k) ((cycles.or s.setup.pacing.maxCycles).map (· - (k : Int)))).map
        (k + ·) := by
  have hadd (n : Nat) : runFrom k n t = (t.runFor n).map (k + ·) := runFrom_add_done k 0 n t
  rw [hadd] at h
  cases hlimit : cycles.or s.setup.pacing.maxCycles with
  | some limit =>
    have hbudget : s.budget cycles = some limit.toNat := by
      rw [budget, hlimit, Option.map_some]
    rw [allowance, hbudget, Option.getD_some] at h
    rw [run_eq_runFor hlimit, h, Option.map_some, run_eq_runFor (Option.some_or),
      show (limit - (k : Int)).toNat = limit.toNat - k by omega]
  | none =>
    have hbudget : s.budget cycles = none := by
      rw [budget, hlimit, Option.map_none]
    have hbudget' : t.budget none = none := by
      rw [budget, hsetup, (Option.or_eq_none_iff.mp hlimit).2]
      rfl
    rw [allowance, hbudget, Option.getD_none] at h
    unfold Session.run
    rw [hbudget, Option.map_none, hbudget']
    simp only [h]
    rcases t.runFor (patience - k) with ⟨v, result⟩
    cases result with
    | error e => rfl
    | ok n =>
      show (if v.isRunning then _ else _) = Reply.map _ (if v.isRunning then _ else _)
      split <;> rfl

theorem run_of_stopped {k : Nat} {cycles : Option Int} (ht : t.machine.runState ≠ .running)
    (h : s.runFor ((s.budget cycles).getD patience) = ⟨t, .ok k⟩) :
    s.run patience cycles = ⟨t, .ok k⟩ := by
  unfold Session.run
  cases hb : s.budget cycles with
  | some n =>
    rw [hb] at h
    exact h
  | none =>
    rw [hb] at h
    have hidle : t.isRunning = false := by
      simp [isRunning, ht]
    change s.runFor patience = _ at h
    simp only [h, hidle]
    rfl

/-- The cycles of a call follow one another in this way. -/
theorem goesOn_of_cyclesOf {before after : List Session} {i : Instruction}
    (hu : s.cyclesOf patience c = before ++ u :: after) (hs : u.step = ⟨t, .ok i⟩) :
    s.GoesOn patience c (before.length + 1) t after := by
  have hmem : u ∈ s.cyclesOf patience c := hu ▸ List.mem_append_cons_self
  have hsetup : t.setup = s.setup := by
    rw [← (setup_of_mem_cyclesOf hmem).1, ← u.setup_step, hs]
  rw [cyclesOf_eq_cyclesFrom] at hu
  obtain ⟨hrun, hafter⟩ := runFrom_of_cyclesFrom hu hs 0
  rw [Nat.zero_add] at hrun
  have hstop (ht : t.machine.runState ≠ .running) :
      s.runFor (s.allowance patience c) = ⟨t, .ok (before.length + 1)⟩ := by
    rw [runFor, hrun, runFrom_of_not_running ht]
  refine ⟨hrun, ?_, ?_, ?_, ?_, ?_⟩
  · rintro cycles rfl
    exact run_of_rest hsetup hrun
  · intro ht hlt
    obtain ⟨m, hm⟩ : ∃ m, s.allowance patience c - (before.length + 1) = m + 1 :=
      ⟨_, (Nat.succ_pred (by omega)).symm⟩
    rw [hafter, hm]
    exact exists_cyclesFrom_succ ht m
  · intro ht
    rw [hafter, cyclesFrom_of_not_running ht]
  · rintro ht cycles rfl
    exact run_of_stopped ht (hstop ht)
  · rintro ht rfl
    have hr : s.machine.runState = .running := by
      by_cases hr : s.machine.runState = .running
      · exact hr
      · rw [cyclesFrom_of_not_running hr] at hu
        simp at hu
    unfold runFrame
    rw [if_pos hr, show s.runFor s.setup.pacing.cyclesPerFrame = _ from hstop ht]

/-- **The hook is told of every unknown word, and the word does nothing else.**  Take any session with a
hook, which may pause, halt, declare a fault or break off at some words and return at others, and any list
of calls.  Afterwards the hook was told of exactly the unknown words that cycles fetched, in order and once
for each cycle, whatever it did with them; and in each cycle it reacts as one that was told of the unknown
words of the cycles before.  In every cycle in which it returns, the cycle answers with its instruction, is
counted, and is traced if cycles are traced; the machine is as before but for the program counter, which
has moved by two, and the run state that the hook has chosen.  And the call that the cycle belongs to
returns behind it if the hook has stopped the machine, with the cycle in its count; otherwise it goes on
with what is left of its budget. -/
theorem unknown_words_are_reported (patience : Nat) (s : Session) {hook : Hook}
    (hhook : s.setup.hook = some hook) (cs : List Command) :
    (s.performAll patience cs).1.reported =
        s.reported ++ unknownWords (s.cyclesAll patience cs) ∧
      (∀ before u after, s.cyclesAll patience cs = before ++ u :: after → ∀ i,
        u.reaction? i = some (hook.react (s.reported ++ unknownWords before) i)) ∧
      ∀ p ∈ s.calls patience cs, ∀ before u after word,
        p.1.cyclesOf patience p.2 = before ++ u :: after → u.unknownWord? = some word →
          u.HookReturns →
            ∃ i t, i.word = word ∧ u.Passes i t ∧
              p.1.GoesOn patience p.2 (before.length + 1) t after := by
  have htold := (ToldOf.start hhook).performAll patience cs
  rw [List.nil_append] at htold
  refine ⟨htold.reported, htold.reacts, ?_⟩
  intro p hp before u after word hu hw hreturns
  have hmem : u ∈ p.1.cyclesOf patience p.2 := hu ▸ List.mem_append_cons_self
  obtain ⟨hsetup, hr⟩ := setup_of_mem_cyclesOf hmem
  have hhook' : u.setup.hook = some hook := by
    rw [hsetup, setup_of_mem_calls hp, hhook]
  obtain ⟨i, t, hword, hpasses⟩ := passes_of_unknownWord hr hhook' hreturns hw
  exact ⟨i, t, hword, hpasses, goesOn_of_cyclesOf hu hpasses.answer⟩

/-- A hook that breaks off at the word `0002`, pauses at the first other word and lets later ones pass.  A
run executes an instruction and pauses at the word `0001`; the next run passes the same word, goes on, and
is broken off. -/
theorem unknown_words_are_reported_pause :
    let hook : Hook := ⟨fun words i =>
      if i.word = 0x0002 then .breakOff "stop" else if words.isEmpty then .pause else .ignore⟩
    ∃ s : Session, s.setup.hook = some hook ∧ s.reported = #[] ∧
      (s.performAll 0 [.run (some 9), .resume, .run (some 9)]).1.reported =
        #[0x0001, 0x0001, 0x0002] ∧
      (s.performAll 0 [.run (some 9), .resume, .run (some 9)]).2.map Except.toBool =
        [true, true, false] ∧
      ∃ t : Session, t.machine.runState = .paused ∧ s.run 0 (some 9) = ⟨t, .ok 2⟩ := by
  intro hook
  let s := ((Session.start ⟨.standard, .standard, true, some hook⟩ none (.ofList [])).perform 0
    (.load [0x60, 0x05, 0x00, 0x01, 0x00, 0x01, 0x00, 0x02])).session
  have hhook : s.setup.hook = some hook := congrArg Setup.hook (setup_perform 0 _ _)
  have hfacts : s.reported = #[] ∧
      unknownWords (s.cyclesAll 0 [.run (some 9), .resume, .run (some 9)]) =
        #[0x0001, 0x0001, 0x0002] ∧
      (s.performAll 0 [.run (some 9), .resume, .run (some 9)]).2.map Except.toBool =
        [true, true, false] ∧
      s.machine.runState = .running ∧ s.step.result.toBool = true ∧ s.unknownWord? = none ∧
      s.step.session.machine.runState = .running ∧
      s.step.session.unknownWord? = some 0x0001 := by
    decide +kernel
  obtain ⟨hfresh, hwords, hresults, hr, hok, hknown, hr', hunknown⟩ := hfacts
  obtain ⟨hreported, hreacts, hpasses⟩ := unknown_words_are_reported 0 s hhook
    [.run (some 9), .resume, .run (some 9)]
  rw [hfresh, hwords] at hreported
  refine ⟨s, hhook, hfresh, hreported, hresults, ?_⟩
  rcases hs : s.step with ⟨v, result⟩
  rw [hs] at hok hr' hunknown
  cases result with
  | error e => cases hok
  | ok i =>
    obtain ⟨more, hmore⟩ := exists_cyclesFrom_succ hr' 7
    have hcycles : s.cyclesOf 0 (.run (some 9)) = [s] ++ v :: more := by
      show s.cyclesFrom 9 = _
      rw [cyclesFrom_succ_of_ok hr hs, hmore]
      rfl
    -- the hook was told of nothing before the second cycle, so it pauses there
    have hpauses : ∀ j : Instruction, j.word = 0x0001 → v.reaction? j = some .pause := by
      intro j hj
      obtain ⟨later, hlater⟩ : ∃ later, s.cyclesAll 0 [.run (some 9), .resume, .run (some 9)] =
          [s] ++ v :: later := by
        show ∃ later, s.cyclesOf 0 (.run (some 9)) ++ _ = _
        rw [hcycles, List.append_assoc]
        exact ⟨_, rfl⟩
      have hnone : unknownWords [s] = #[] := by
        simp only [unknownWords, List.filterMap_cons, hknown, List.filterMap_nil]
      rw [hreacts [s] v later hlater j, hfresh, hnone]
      simp [hook, hj]
    have hreturns : v.HookReturns := by
      intro j m hf hj
      have hword := unknownWord?_eq_some_iff.mpr ⟨j, m, hf, hj, rfl⟩
      rw [hpauses j (Option.some.inj (hword.symm.trans hunknown))]
      trivial
    obtain ⟨j, t, hj, ht, hgoes⟩ :=
      hpasses _ List.mem_cons_self [s] v more 0x0001 hcycles hunknown hreturns
    have hpaused : t.machine.runState = .paused := by
      rw [ht.machine, hpauses j hj]
      rfl
    exact ⟨t, hpaused, hgoes.run_stopped (by rw [hpaused]; decide) (some 9) rfl⟩

end Session

end Chip8
