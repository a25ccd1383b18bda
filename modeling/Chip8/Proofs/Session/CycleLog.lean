/-
# Chip8.Proofs.Session.CycleLog — the cycles that a session has been through since its last load.

A log lists the sessions in which cycles began, the oldest first.  It is no part of a session: it is
read off the history that led there, call by call, and a load that succeeds empties it.  From an entry
`u` all that its cycle did can be told: where it fetched (`u.machine.pc`), what it answered
(`u.step.result`) and what it left behind (`u.step.session`).  A cycle that was refused, because the
machine was not running, is none.

`Session.LoggedBy` joins sessions to their logs.  To prove a property of a session and its log it is
enough to look at four moves: a cycle, what a host does to a machine, a fetch outside any cycle, and a
load (`LoggedBy.induct`).
-/
import Chip8.Proofs.Session.InRange

namespace Chip8.Session

/-! ## The cycles of one call -/

/-- The sessions in which the cycles of a run of at most `n` cycles begin.  The last of these cycles may
fail. -/
def cyclesFrom : Nat → Session → List Session
  | 0, _ => []
  | n + 1, s =>
    if s.machine.runState = .running then
      match s.step with
      | ⟨t, .ok _⟩ => s :: cyclesFrom n t
      | ⟨_, .error _⟩ => [s]
    else []

/-- The sessions in which the cycles of a call begin. -/
def cyclesOf (patience : Nat) (s : Session) : Command → List Session
  | .step => if s.machine.runState = .running then [s] else []
  | .run cycles => s.cyclesFrom ((s.budget cycles).getD patience)
  | .runFrame => s.cyclesFrom s.setup.pacing.cyclesPerFrame
  | _ => []

theorem cyclesFrom_of_not_running {s : Session} (h : s.machine.runState ≠ .running) (n : Nat) :
    s.cyclesFrom n = [] := by
  cases n with
  | zero => rfl
  | succ n => exact if_neg h

theorem cyclesFrom_succ_of_ok {s t : Session} (hr : s.machine.runState = .running)
    {i : Instruction} (hs : s.step = ⟨t, .ok i⟩) (n : Nat) :
    s.cyclesFrom (n + 1) = s :: t.cyclesFrom n := by
  unfold cyclesFrom
  rw [if_pos hr, hs]
  cases n <;> rfl

theorem cyclesFrom_succ_of_error {s t : Session} (hr : s.machine.runState = .running)
    {e : SessionError} (hs : s.step = ⟨t, .error e⟩) (n : Nat) : s.cyclesFrom (n + 1) = [s] := by
  unfold cyclesFrom
  rw [if_pos hr, hs]

/-- One cycle is a run of one cycle. -/
theorem cyclesFrom_one (patience : Nat) (s : Session) :
    s.cyclesFrom 1 = s.cyclesOf patience .step := by
  unfold cyclesOf cyclesFrom
  split
  · rcases s.step with ⟨t, result⟩
    cases result <;> rfl
  · rfl

/-- Calls that execute no cycle have none. -/
theorem cyclesOf_of_isSingle (patience : Nat) (s : Session) {c : Command} (hsingle : c.IsSingle)
    (hc : c ≠ .step) : s.cyclesOf patience c = [] := by
  cases c with
  | step => exact (hc rfl).elim
  | run | runFrame => exact hsingle.elim
  | _ => rfl

/-! ## From one cycle to a call -/

section Carried

variable {P : Session → List Session → Prop} {s : Session} {log : List Session}

/-- What every cycle carries over, with the session in which it began, a run carries over. -/
theorem carried_runFrom
    (hcycle : ∀ {s log}, s.machine.runState = .running → P s log → P s.step.session (log ++ [s]))
    (h : P s log) (done n : Nat) : P (runFrom done n s).session (log ++ s.cyclesFrom n) := by
  induction n generalizing done s log with
  | zero =>
    rw [cyclesFrom, List.append_nil]
    exact h
  | succ n ih =>
    rcases s.round_cases with hr | ⟨hr, hround⟩
    · rw [runFrom_of_not_running hr, cyclesFrom_of_not_running hr, List.append_nil]
      exact h
    · have hnext := hcycle hr h
      rcases hround with ⟨t, i, hs⟩ | ⟨t, e, hs⟩
      · rw [hs] at hnext
        have hrest := ih hnext (done + 1)
        rw [List.append_assoc] at hrest
        rw [runFrom_succ_of_ok hr hs, cyclesFrom_succ_of_ok hr hs]
        exact hrest
      · rw [hs] at hnext
        rw [runFrom_succ_of_error hr hs, cyclesFrom_succ_of_error hr hs]
        exact hnext

/-- What a tick carries over as well, a frame carries over. -/
theorem carried_runFrame
    (hcycle : ∀ {s log}, s.machine.runState = .running → P s log → P s.step.session (log ++ [s]))
    (htick : ∀ {s log}, P s log → P s.tick log) (h : P s log) :
    P s.runFrame.session (log ++ s.cyclesFrom s.setup.pacing.cyclesPerFrame) := by
  have hrun := carried_runFrom hcycle h 0 s.setup.pacing.cyclesPerFrame
  unfold runFrame
  by_cases hr : s.machine.runState = .running
  · rw [if_pos hr]
    change P (s.runFor s.setup.pacing.cyclesPerFrame).session _ at hrun
    rcases hs : s.runFor s.setup.pacing.cyclesPerFrame with ⟨t, result⟩
    rw [hs] at hrun
    cases result with
    | ok n => exact htick hrun
    | error e => exact hrun
  · rw [if_neg hr]
    rwa [runFrom_of_not_running hr] at hrun

/-- What cycles carry over, and what a host does to the machine as well, every call carries over that does
not boot.  A fetch outside any cycle is looked at by itself. -/
theorem carried_perform
    (hcycle : ∀ {s log}, s.machine.runState = .running → P s log → P s.step.session (log ++ [s]))
    (hhandled : ∀ {s log m} (journal : Journal), s.machine.Handled m → P s log →
      P { s with machine := m, journal } log)
    {c : Command} (hfetched : ∀ {i m}, c = .fetch → s.machine.fetch = .ok (i, m) →
      P { s with machine := m } log)
    (patience : Nat) (hc : c.IsHostCall) (hb : ¬ c.Boots) (h : P s log) :
    P (s.perform patience c).session (log ++ s.cyclesOf patience c) := by
  by_cases hsingle : c.IsSingle
  · by_cases hstep : c = .step
    · subst hstep
      show P s.step.session (log ++ if s.machine.runState = .running then [s] else [])
      by_cases hr : s.machine.runState = .running
      · rw [if_pos hr]
        exact hcycle hr h
      · rw [if_neg hr, step_of_not_running hr, List.append_nil]
        exact h
    · rw [s.cyclesOf_of_isSingle patience hsingle hstep, List.append_nil]
      have hends := call_ends patience s hc hsingle
      generalize (s.perform patience c).session = t at hends ⊢
      cases hends with
      | handled journal hn => exact hhandled journal hn h
      | booted journal hboots _ => exact (hb hboots).elim
      | fetched hfetch hf => exact hfetched hfetch hf
      | stepped hcstep => exact (hstep hcstep).elim
  · cases c with
    | run cycles =>
      show P (s.run patience cycles).session _
      rw [session_run]
      exact carried_runFrom hcycle h 0 _
    | runFrame =>
      exact carried_runFrame hcycle (fun {t _} ht => hhandled t.journal .ticked ht) h
    | _ => exact (hsingle trivial).elim

end Carried

/-! ## The log of a history -/

/-- The sessions that begin fresh and go on by allowed calls, with the cycles since the last load that
succeeded. -/
inductive LoggedBy (Allowed : Command → Prop) : Session → List Session → Prop where
  | start (setup : Setup) (threshold : Option Level) (source : ByteSource) :
      LoggedBy Allowed (.start setup threshold source) []
  | booted {s : Session} {log : List Session} {c : Command} (patience : Nat)
      (h : LoggedBy Allowed s log) (hc : Allowed c) (hb : c.Boots) :
      LoggedBy Allowed (s.perform patience c).session []
  | performed {s : Session} {log : List Session} {c : Command} (patience : Nat)
      (h : LoggedBy Allowed s log) (hc : Allowed c) (hb : ¬ c.Boots) :
      LoggedBy Allowed (s.perform patience c).session (log ++ s.cyclesOf patience c)

theorem LoggedBy.reachable {Allowed : Command → Prop} {s : Session} {log : List Session}
    (h : s.LoggedBy Allowed log) : s.ReachableBy Allowed := by
  induction h with
  | start setup threshold source => exact .start setup threshold source
  | booted patience _ hc _ ih => exact ih.perform patience hc
  | performed patience _ hc _ ih => exact ih.perform patience hc

/-- Every session that allowed calls bring about has a log. -/
theorem ReachableBy.exists_log {Allowed : Command → Prop} {s : Session}
    (h : s.ReachableBy Allowed) : ∃ log, s.LoggedBy Allowed log := by
  induction h with
  | start setup threshold source => exact ⟨[], .start setup threshold source⟩
  | @perform s c patience _ hc ih =>
    obtain ⟨log, hlog⟩ := ih
    by_cases hb : c.Boots
    · exact ⟨[], hlog.booted patience hc hb⟩
    · exact ⟨_, hlog.performed patience hc hb⟩

/-! ## The entries of a log -/

section Entries

variable {Allowed : Command → Prop} {s : Session} {log before after : List Session} {u : Session}

/-- A cycle that is called on its own joins the log. -/
theorem LoggedBy.step (h : s.LoggedBy Allowed log) (hstep : Allowed .step)
    (hr : s.machine.runState = .running) : s.step.session.LoggedBy Allowed (log ++ [s]) := by
  have hnext := h.performed 0 hstep id
  rwa [show s.cyclesOf 0 .step = [s] from if_pos hr] at hnext

/-- The cycles of a run begin in running sessions, each with the ones before it for its log. -/
theorem LoggedBy.of_cyclesFrom (hstep : Allowed .step) {n : Nat} (h : s.LoggedBy Allowed log)
    (hu : s.cyclesFrom n = before ++ u :: after) :
    u.machine.runState = .running ∧ u.LoggedBy Allowed (log ++ before) := by
  induction n generalizing s log before with
  | zero => simp [cyclesFrom] at hu
  | succ n ih =>
    rcases s.round_cases with hr | ⟨hr, hround⟩
    · simp [cyclesFrom_of_not_running hr] at hu
    · have hnext := h.step hstep hr
      -- the entry is the first cycle of the run, or one of those behind it
      cases before with
      | nil =>
        have hfirst : s = u := by
          rcases hround with ⟨t, i, hs⟩ | ⟨t, e, hs⟩
          · rw [cyclesFrom_succ_of_ok hr hs] at hu
            exact (List.cons.inj hu).1
          · rw [cyclesFrom_succ_of_error hr hs] at hu
            exact (List.cons.inj hu).1
        rw [List.append_nil, ← hfirst]
        exact ⟨hr, h⟩
      | cons b before' =>
        rcases hround with ⟨t, i, hs⟩ | ⟨t, e, hs⟩
        · rw [cyclesFrom_succ_of_ok hr hs] at hu
          obtain ⟨rfl, hbefore⟩ := List.cons.inj hu
          rw [hs] at hnext
          have hlater := ih hnext hbefore
          rwa [List.append_assoc] at hlater
        · simp [cyclesFrom_succ_of_error hr hs] at hu

/-- The cycles of a call begin in running sessions, each with the ones before it for its log. -/
theorem LoggedBy.of_cyclesOf (hstep : Allowed .step) (h : s.LoggedBy Allowed log) {patience : Nat}
    {c : Command} (hu : s.cyclesOf patience c = before ++ u :: after) :
    u.machine.runState = .running ∧ u.LoggedBy Allowed (log ++ before) := by
  cases c with
  | step =>
    rw [← cyclesFrom_one] at hu
    exact h.of_cyclesFrom hstep hu
  | run cycles => exact h.of_cyclesFrom hstep hu
  | runFrame => exact h.of_cyclesFrom hstep hu
  | _ => simp [cyclesOf] at hu

/-- Every cycle of a log began in a running session that had the cycles before it for its log. -/
theorem LoggedBy.of_append (hstep : Allowed .step) (h : s.LoggedBy Allowed log)
    (hu : log = before ++ u :: after) :
    u.machine.runState = .running ∧ u.LoggedBy Allowed before := by
  induction h generalizing after with
  | start | booted => simp at hu
  | @performed s log c patience hlog _ _ ih =>
    rcases List.append_eq_append_iff.mp hu with ⟨more, rfl, hcycles⟩ | ⟨more, rfl, hmore⟩
    · exact hlog.of_cyclesOf hstep hcycles
    · cases more with
      | nil =>
        -- the entry is the first cycle of the call
        rw [List.append_nil] at hlog
        have hfirst := hlog.of_cyclesOf hstep
          (show s.cyclesOf patience c = [] ++ u :: after from hmore.symm)
        rwa [List.append_nil] at hfirst
      | cons b more' =>
        obtain ⟨rfl, -⟩ := List.cons.inj hmore
        exact ih rfl

end Entries

/-! ## Loads -/

/-- An image that is too large is refused, and the session stays as it is. -/
theorem load_of_large (s : Session) {image : List UInt8} (h : maxImageSize < image.length) :
    s.load image = ⟨s, .error (.imageTooLarge image.length)⟩ := by
  have hboot : Machine.boot? image = none := if_pos h
  rw [load, hboot]

theorem exists_boot_of_fits {image : List UInt8} (h : image.length ≤ maxImageSize) :
    ∃ m, Machine.boot? image = some m := by
  unfold Machine.boot?
  rw [if_neg (Nat.not_lt.mpr h)]
  exact ⟨_, rfl⟩

theorem load_of_boot (s : Session) {image : List UInt8} {m : Machine}
    (hm : Machine.boot? image = some m) :
    ∃ journal, s.load image =
      ⟨{ s with machine := m, cycles := 0, trace := #[], journal }, .ok ()⟩ := by
  unfold load
  rw [hm]
  exact ⟨_, rfl⟩

/-- A load that succeeds leaves a fresh machine, no count, and no trace. -/
theorem perform_of_boots (patience : Nat) (s : Session) {c : Command} (hb : c.Boots) :
    ∃ image m journal, Machine.boot? image = some m ∧
      s.perform patience c =
        ⟨{ s with machine := m, cycles := 0, trace := #[], journal }, .ok .done⟩ := by
  cases c with
  | load image =>
    obtain ⟨m, hm⟩ := exists_boot_of_fits hb
    obtain ⟨journal, hload⟩ := s.load_of_boot hm
    refine ⟨image, m, journal, hm, ?_⟩
    show (s.load image).map _ = _
    rw [hload]
    rfl
  | loadFile path file =>
    obtain ⟨image, hfile, hfits⟩ := hb
    obtain ⟨m, hm⟩ := exists_boot_of_fits hfits
    obtain ⟨journal, hload⟩ := s.load_of_boot hm
    refine ⟨image, m, journal, hm, ?_⟩
    show (s.loadFile path file).map _ = _
    unfold loadFile
    rw [hfile]
    show (s.load image).map _ = _
    rw [hload]
    rfl
  | _ => exact hb.elim

/-! ## Induction along a log -/

/-- A property of sessions and their logs that fresh sessions have and that every move carries over: a
cycle, which joins the log, what a host does to the machine, a fetch outside any cycle, and a load. -/
structure IsCarried (Allowed : Command → Prop) (P : Session → List Session → Prop) : Prop where
  start : ∀ setup threshold source, P (.start setup threshold source) []
  cycle : ∀ {s log}, s.machine.InRange → s.machine.runState = .running → P s log →
    P s.step.session (log ++ [s])
  handled : ∀ {s log m} (journal : Journal), s.machine.Handled m → P s log →
    P { s with machine := m, journal } log
  fetched : ∀ {s log i m}, Allowed .fetch → s.machine.fetch = .ok (i, m) → P s log →
    P { s with machine := m } log
  booted : ∀ {s log image m} (journal : Journal), Machine.boot? image = some m → P s log →
    P { s with machine := m, cycles := 0, trace := #[], journal } []

namespace IsCarried

variable {Allowed : Command → Prop} {P : Session → List Session → Prop} {s : Session}
  {log : List Session}

/-- A cycle carries it over, with the range of the machine. -/
theorem step (hP : IsCarried Allowed P) (hr : s.machine.runState = .running)
    (h : s.machine.InRange ∧ P s log) :
    s.step.session.machine.InRange ∧ P s.step.session (log ++ [s]) :=
  ⟨inRange_step h.1, hP.cycle h.1 hr h.2⟩

/-- A call that does not boot adds its cycles to the log. -/
theorem perform (hP : IsCarried Allowed P) (patience : Nat) {c : Command} (hc : c.IsHostCall)
    (hallowed : Allowed c) (hb : ¬ c.Boots) (hm : s.machine.InRange) (h : P s log) :
    P (s.perform patience c).session (log ++ s.cyclesOf patience c) := by
  have hcall := carried_perform (P := fun t us => t.machine.InRange ∧ P t us) hP.step
    (fun journal hn ht => ⟨ht.1.handled hn, hP.handled journal hn ht.2⟩)
    (fun hfetch hf => ⟨(hm.fetch hf).1, hP.fetched (hfetch ▸ hallowed) hf h⟩) patience hc hb ⟨hm, h⟩
  exact hcall.2

end IsCarried

/-- What every move carries over, every session has with its log. -/
theorem LoggedBy.induct {Allowed : Command → Prop} {P : Session → List Session → Prop}
    (hhost : ∀ c, Allowed c → c.IsHostCall) (hP : IsCarried Allowed P) {s : Session}
    {log : List Session} (h : s.LoggedBy Allowed log) : P s log := by
  induction h with
  | start setup threshold source => exact hP.start setup threshold source
  | @booted s log c patience _ hc hb ih =>
    obtain ⟨image, m, journal, hm, hs⟩ := s.perform_of_boots patience hb
    rw [hs]
    exact hP.booted journal hm ih
  | @performed s log c patience hlog hc hb ih =>
    have hm : s.machine.InRange := (hlog.reachable.mono hhost).inRange
    exact hP.perform patience (hhost c hc) hc hb hm ih

end Chip8.Session
