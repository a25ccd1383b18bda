/-
# Chip8.Proofs.Session.Timer — the delay timer over the whole of a session, and the length of a frame.

Two things happen to the timer: an instruction sets it to the value of a register, and a tick takes it
down by one.  `Session.beatsAll` lists these beats for a list of calls, in their order.  A call that is a
tick adds one; a frame adds one behind its cycles, if the machine was running when it was called and no
cycle failed (`frameTicks`).  The timer then stands at what was set last, less the ticks since, and not
below zero (`Beat.timer`): every move of a session keeps this (`Timed`).

A frame has as many cycles as its pacing says, unless the hook has stopped the machine in the last of
them (`StopsHere`).
-/
import Chip8.Proofs.Session.Budget
import Chip8.Proofs.Session.Calls

namespace Chip8

/-! ## Beats -/

/-- What happens to the timer. -/
inductive Beat where
  | set (v : Int)
  | tick
  deriving DecidableEq

namespace Beat

/-- The value that the beat sets the timer to. -/
def value? : Beat → Option Int
  | set v => some v
  | tick => none

/-- The value that was set last; zero if there was none. -/
def lastSet (bs : List Beat) : Int :=
  (bs.reverse.findSome? value?).getD 0

/-- How often the timer has ticked since. -/
def ticksSince (bs : List Beat) : Nat :=
  (bs.reverse.takeWhile (· == tick)).length

/-- What is left of the value that was set last. -/
def timer (bs : List Beat) : Int :=
  max 0 (lastSet bs - ticksSince bs)

theorem timer_set (bs : List Beat) {v : Int} (h : 0 ≤ v) : timer (bs ++ [set v]) = v := by
  have hlast : lastSet (bs ++ [set v]) = v := by
    unfold lastSet
    rw [List.reverse_append]
    rfl
  have hticks : ticksSince (bs ++ [set v]) = 0 := by
    simp [ticksSince]
  unfold timer
  omega

/-- A tick takes one from it, and stops at zero. -/
theorem timer_tick (bs : List Beat) :
    timer (bs ++ [tick]) = if 0 < timer bs then timer bs - 1 else timer bs := by
  have hlast : lastSet (bs ++ [tick]) = lastSet bs := by
    unfold lastSet
    rw [List.reverse_append]
    rfl
  have hticks : ticksSince (bs ++ [tick]) = ticksSince bs + 1 := by
    simp [ticksSince]
  unfold timer
  rw [hlast, hticks]
  split <;> omega

end Beat

/-- The machine after a tick has its timer down by one, unless it stood at zero. -/
theorem Machine.delayTimer_tick (m : Machine) :
    m.tick.delayTimer = if 0 < m.delayTimer then m.delayTimer - 1 else m.delayTimer := by
  unfold tick
  split <;> rfl

namespace Session

/-- The beat of an executed instruction: `FX15` sets the timer to the value of its register. -/
def beatOf (p : Session × Instruction) : Option Beat :=
  if (Row.byte 0xF 0x15).Fits p.2 then some (.set (p.1.machine.register p.2.x)) else none

/-- The beats of cycles. -/
def beatsIn (us : List Session) : List Beat :=
  (executions us).filterMap beatOf

/-- The ticks behind the cycles of a frame: one if the machine is running and no cycle fails. -/
def frameTicks (s : Session) : List Command :=
  if s.machine.runState = .running ∧ s.runFrame.result.isOk = true then [.tick] else []

/-- The beats of a call: what its cycles set the timer to, and then its ticks. -/
def beatsOf (patience : Nat) (s : Session) (c : Command) : List Beat :=
  (s.executedBy patience c).filterMap beatOf ++
    match c with
    | .tick => [.tick]
    | .runFrame => s.frameTicks.map fun _ => .tick
    | _ => []

/-- The beats of a list of calls. -/
def beatsAll (patience : Nat) (s : Session) (cs : List Command) : List Beat :=
  (s.calls patience cs).flatMap fun p => p.1.beatsOf patience p.2

/-- The sessions in which nothing has been done since they were set up, or since a load that succeeded. -/
inductive Begun : Session → Prop where
  | start (setup : Setup) (threshold : Option Level) (source : ByteSource) :
      Begun (.start setup threshold source)
  | loaded (patience : Nat) (s : Session) {c : Command} (hb : c.Boots) :
      Begun (s.perform patience c).session

variable {s t u : Session} {bs : List Beat} {patience : Nat} {c : Command} {cs : List Command}

/-! ## One cycle -/

/-- A cycle that executes `FX15` leaves the value of its register in the timer. -/
theorem StepEnds.delayTimer_of_set {i : Instruction} (ht : s.StepEnds t (.ok i))
    (hi : (Row.byte 0xF 0x15).Fits i) : t.machine.delayTimer = s.machine.register i.x := by
  have hop : i.op = .setTimer := (Instruction.op_eq_iff rfl).mpr hi
  cases ht with
  | passed journal hf hunknown =>
    rw [hop] at hunknown
    cases hunknown
  | executed journal hf _ hx =>
    unfold Machine.apply at hx
    rw [hop] at hx
    cases hx
    rw [Machine.eq_advance_of_fetch hf]
    rfl

/-- Every other cycle leaves the timer, however it ends. -/
theorem StepEnds.delayTimer_of_not_set {result : Except SessionError Instruction}
    (ht : s.StepEnds t result) (h : ∀ i, result = .ok i → ¬ (Row.byte 0xF 0x15).Fits i) :
    t.machine.delayTimer = s.machine.delayTimer := by
  cases ht with
  | unfetched => rfl
  | hookFaulted _ hf | brokenOff _ hf | passed _ hf | faulted _ hf | misfit _ hf =>
    rw [Machine.eq_advance_of_fetch hf]
    rfl
  | @executed _ i m n hf _ hx =>
    have hwrites : ¬ i.MayWrite s.setup.variant m .delayTimer := by
      intro hw
      cases hw with
      | delayTimer hi => exact h i rfl hi
    have hframe : n.delayTimer = m.delayTimer := Machine.changesOnly_of_apply hx .delayTimer hwrites
    show n.delayTimer = _
    rw [hframe, Machine.eq_advance_of_fetch hf]
    rfl

/-! ## Every move keeps the timer in step with its beats -/

/-- The timer shows what the beats leave of it. -/
structure Timed (s : Session) (bs : List Beat) : Prop where
  inRange : s.machine.InRange
  timer : s.machine.delayTimer = Beat.timer bs

theorem beatsIn_append (us vs : List Session) : beatsIn (us ++ vs) = beatsIn us ++ beatsIn vs := by
  unfold beatsIn executions
  rw [List.filterMap_append, List.filterMap_append]

theorem beatsIn_of_ok {i : Instruction} (h : s.step.result = .ok i) :
    beatsIn [s] = (beatOf (s, i)).toList := by
  unfold beatsIn executions
  simp only [List.filterMap_cons, List.filterMap_nil, h, Except.toOption, Option.map_some]
  cases beatOf (s, i) <;> rfl

theorem beatsIn_of_error {e : SessionError} (h : s.step.result = .error e) : beatsIn [s] = [] := by
  unfold beatsIn executions
  simp only [List.filterMap_cons, List.filterMap_nil, h, Except.toOption, Option.map_none]

namespace Timed

/-- A session with the same timer, if its machine is in range. -/
theorem of_same (h : s.Timed bs) (hm : t.machine.InRange)
    (htimer : t.machine.delayTimer = s.machine.delayTimer) : t.Timed bs :=
  ⟨hm, htimer.trans h.timer⟩

theorem tick (h : s.Timed bs) : s.tick.Timed (bs ++ [.tick]) where
  inRange := h.inRange.tick
  timer := by
    show s.machine.tick.delayTimer = _
    rw [Machine.delayTimer_tick, Beat.timer_tick, h.timer]

theorem step (h : s.Timed bs) (hr : s.machine.runState = .running) :
    s.step.session.Timed (bs ++ beatsIn [s]) := by
  have hends := step_ends hr
  have hin := inRange_step h.inRange
  cases hs : s.step.result with
  | error e =>
    rw [hs] at hends
    rw [beatsIn_of_error hs, List.append_nil]
    exact h.of_same hin (hends.delayTimer_of_not_set nofun)
  | ok i =>
    rw [hs] at hends
    rw [beatsIn_of_ok hs]
    unfold beatOf
    by_cases hi : (Row.byte 0xF 0x15).Fits i
    · rw [if_pos hi]
      refine ⟨hin, ?_⟩
      -- a register holds a byte, so there is nothing to cut off
      have hnonneg : 0 ≤ s.machine.register i.x := (h.inRange.registers i.x).1
      rw [hends.delayTimer_of_set hi]
      exact (Beat.timer_set bs hnonneg).symm
    · rw [if_neg hi, Option.toList_none, List.append_nil]
      refine h.of_same hin (hends.delayTimer_of_not_set ?_)
      intro j hj
      cases hj
      exact hi

/-- A run adds the beats of its cycles. -/
theorem runFrom (h : s.Timed bs) (done n : Nat) :
    (runFrom done n s).session.Timed (bs ++ beatsIn (s.cyclesFrom n)) := by
  have hfirst : s.Timed (bs ++ beatsIn []) := by
    rw [show beatsIn [] = [] from rfl, List.append_nil]
    exact h
  refine carried_runFrom (P := fun t us => t.Timed (bs ++ beatsIn us)) ?_ hfirst done n
  intro t us hr ht
  have hnext := ht.step hr
  rwa [List.append_assoc, ← beatsIn_append] at hnext

/-- A frame adds the beats of its cycles, and then its tick. -/
theorem runFrame (h : s.Timed bs) :
    s.runFrame.session.Timed (bs ++ beatsIn (s.cyclesFrom s.setup.pacing.cyclesPerFrame) ++
      s.frameTicks.map fun _ => .tick) := by
  have hrun := h.runFrom 0 s.setup.pacing.cyclesPerFrame
  unfold frameTicks Session.runFrame
  by_cases hr : s.machine.runState = .running
  · simp only [hr, if_true, true_and]
    change (s.runFor s.setup.pacing.cyclesPerFrame).session.Timed _ at hrun
    rcases hs : s.runFor s.setup.pacing.cyclesPerFrame with ⟨t, result⟩
    rw [hs] at hrun
    cases result with
    | ok n => exact hrun.tick
    | error e =>
      rw [← List.append_nil (bs ++ _)] at hrun
      exact hrun
  · rw [cyclesFrom_of_not_running hr]
    simp only [hr, if_false, false_and]
    rw [show beatsIn [] = [] from rfl]
    simp only [List.append_nil, List.map_nil]
    exact h

end Timed

/-! ## Calls -/

/-- Pausing, resuming and halting leave the timer. -/
theorem delayTimer_pause (s : Session) : s.pause.machine.delayTimer = s.machine.delayTimer := by
  unfold pause
  split <;> rfl

theorem delayTimer_resume (s : Session) : s.resume.machine.delayTimer = s.machine.delayTimer := by
  unfold resume
  split <;> rfl

theorem delayTimer_setKey (s : Session) (key : Int) (isDown : Bool) :
    (s.setKey key isDown).session.machine.delayTimer = s.machine.delayTimer := by
  unfold setKey
  split <;> rfl

theorem delayTimer_setKeys (s : Session) (keys : List Int) :
    (s.setKeys keys).session.machine.delayTimer = s.machine.delayTimer := by
  unfold setKeys edit
  split
  · rfl
  · simp only

/-- A call that is neither a cycle, nor a tick, nor a load that succeeds leaves the timer. -/
theorem delayTimer_of_idle (hc : c.IsHostCall) (hsingle : c.IsSingle) (hb : ¬ c.Boots)
    (hstep : c ≠ .step) (htick : c ≠ .tick) :
    (s.perform patience c).session.machine.delayTimer = s.machine.delayTimer := by
  cases c with
  | load image =>
    show (s.load image).session.machine.delayTimer = _
    rw [s.load_of_large (Nat.lt_of_not_le hb)]
  | loadFile path file =>
    show (s.loadFile path file).session.machine.delayTimer = _
    unfold loadFile
    split
    · rfl
    · next image hfile =>
      have hlarge : maxImageSize < image.length :=
        Nat.lt_of_not_le fun hfits => hb ⟨image, hfile, hfits⟩
      rw [s.load_of_large hlarge]
  | fetch =>
    show s.fetch.session.machine.delayTimer = _
    unfold fetch settle
    split
    · next hf =>
      obtain rfl := s.machine.atomic_fetch _ hf
      rfl
    · next hf =>
      rw [Machine.eq_advance_of_fetch hf]
      rfl
  | pause => exact s.delayTimer_pause
  | resume => exact s.delayTimer_resume
  | togglePause =>
    show s.togglePause.machine.delayTimer = _
    unfold togglePause
    split
    · exact s.delayTimer_pause
    · exact s.delayTimer_resume
  | halt =>
    show s.halt.machine.delayTimer = _
    unfold halt
    split <;> rfl
  | pressKey key => exact s.delayTimer_setKey key true
  | releaseKey key => exact s.delayTimer_setKey key false
  | setKeys keys => exact s.delayTimer_setKeys keys
  | step => exact (hstep rfl).elim
  | tick => exact (htick rfl).elim
  | run | runFrame => exact hsingle.elim
  | execute | read | write | push | pop | clearScreen | setFlag => exact hc.elim

theorem beatsOf_of_idle (hc : c.IsHostCall) (hsingle : c.IsSingle) (hstep : c ≠ .step)
    (htick : c ≠ .tick) : s.beatsOf patience c = [] := by
  cases c with
  | step => exact (hstep rfl).elim
  | tick => exact (htick rfl).elim
  | run | runFrame => exact hsingle.elim
  | execute => exact hc.elim
  | _ => rfl

namespace Timed

/-- Every call that does not boot adds its beats. -/
theorem perform (h : s.Timed bs) (patience : Nat) (hc : c.IsHostCall) (hb : ¬ c.Boots) :
    (s.perform patience c).session.Timed (bs ++ s.beatsOf patience c) := by
  by_cases hsingle : c.IsSingle
  · by_cases hstep : c = .step
    · subst hstep
      show s.step.session.Timed (bs ++ (beatsIn (s.cyclesOf patience .step) ++ []))
      rw [List.append_nil]
      by_cases hr : s.machine.runState = .running
      · rw [show s.cyclesOf patience .step = [s] from if_pos hr]
        exact h.step hr
      · rw [show s.cyclesOf patience .step = [] from if_neg hr, step_of_not_running hr,
          show beatsIn [] = [] from rfl, List.append_nil]
        exact h
    · by_cases htick : c = .tick
      · subst htick
        exact h.tick
      · rw [beatsOf_of_idle hc hsingle hstep htick, List.append_nil]
        exact h.of_same ((call_ends patience s hc hsingle).inRange h.inRange)
          (delayTimer_of_idle hc hsingle hb hstep htick)
  · cases c with
    | run cycles =>
      show (s.run patience cycles).session.Timed
        (bs ++ (beatsIn (s.cyclesOf patience (.run cycles)) ++ []))
      rw [session_run, List.append_nil]
      exact h.runFrom 0 _
    | runFrame =>
      show s.runFrame.session.Timed (bs ++ (beatsIn _ ++ s.frameTicks.map fun _ => .tick))
      rw [← List.append_assoc]
      exact h.runFrame
    | _ => exact (hsingle trivial).elim

theorem performAll (h : s.Timed bs) (patience : Nat)
    (hcs : ∀ c ∈ cs, c.IsHostCall ∧ ¬ c.Boots) :
    (s.performAll patience cs).1.Timed (bs ++ s.beatsAll patience cs) := by
  induction cs generalizing s bs with
  | nil =>
    rw [show s.beatsAll patience [] = [] from rfl, List.append_nil]
    exact h
  | cons c cs ih =>
    obtain ⟨⟨hc, hb⟩, hrest⟩ := List.forall_mem_cons.mp hcs
    have hlater := ih (h.perform patience hc hb) hrest
    rwa [List.append_assoc] at hlater

end Timed

theorem Begun.timed (h : s.Begun) : s.Timed [] := by
  obtain ⟨image, hm⟩ : ∃ image, Machine.boot? image = some s.machine := by
    cases h with
    | start => exact ⟨[], Machine.boot?_nil⟩
    | loaded patience s hb =>
      obtain ⟨image, m, journal, hm, hs⟩ := s.perform_of_boots patience hb
      rw [hs]
      exact ⟨image, hm⟩
  refine ⟨Machine.inRange_boot hm, ?_⟩
  obtain ⟨memory, hmemory⟩ := Machine.exists_memory_of_boot hm
  rw [hmemory]
  rfl

/-! ## The length of a frame -/

/-- The hook stops the machine in the cycle that begins here. -/
def StopsHere (s : Session) : Prop :=
  ∃ i, s.step.result = .ok i ∧ i.op = .unknown ∧
    (s.reaction? i = some .pause ∨ s.reaction? i = some .halt)

/-- A cycle that succeeds leaves the machine running, unless the hook stops it. -/
theorem stopsHere_of_ok {i : Instruction} (hr : s.machine.runState = .running)
    (hs : s.step = ⟨t, .ok i⟩) (ht : t.machine.runState ≠ .running) : s.StopsHere := by
  have hends := step_ends hr
  rw [hs] at hends
  cases hends with
  | passed journal hf hi hh =>
    refine ⟨i, by rw [hs], hi, ?_⟩
    cases hk : s.reaction? i with
    | none =>
      rw [hk] at ht
      exact (ht rfl).elim
    | some reaction =>
      rw [hk] at ht
      cases reaction with
      | pause => exact Or.inl rfl
      | halt => exact Or.inr rfl
      | ignore | fault | breakOff => exact (ht rfl).elim
  | @executed _ _ m n hf hi hx =>
    have hframe : n.runState = m.runState := Machine.changesOnly_of_apply hx .runState nofun
    rw [show n.runState = .running by
      rw [hframe, Machine.eq_advance_of_fetch hf]
      exact hr] at ht
    exact (ht rfl).elim

/-- A run on a budget that returns has used it up, or its last cycle is one in which the hook has stopped
the machine. -/
theorem runFrom_length {n done k : Nat} (hr : s.machine.runState = .running)
    (h : runFrom done n s = ⟨t, .ok k⟩) :
    k = done + n ∨ ∃ u ∈ s.cyclesFrom n, u.StopsHere ∧ t = u.step.session := by
  induction n generalizing done s with
  | zero =>
    cases h
    exact Or.inl rfl
  | succ n ih =>
    rcases s.round_cases with hnot | ⟨-, ⟨u, i, hs⟩ | ⟨u, e, hs⟩⟩
    · exact (hnot hr).elim
    · rw [runFrom_succ_of_ok hr hs] at h
      rw [cyclesFrom_succ_of_ok hr hs]
      by_cases hu : u.machine.runState = .running
      · rcases ih hu h with hk | ⟨v, hv, hstops⟩
        · exact Or.inl (by omega)
        · exact Or.inr ⟨v, List.mem_cons_of_mem s hv, hstops⟩
      · rw [runFrom_of_not_running hu] at h
        cases h
        exact Or.inr ⟨s, List.mem_cons_self, stopsHere_of_ok hr hs hu, by rw [hs]⟩
    · rw [runFrom_succ_of_error hr hs] at h
      cases h

/-- A frame is made of cycles, and of its tick. -/
theorem exists_runFrame (patience : Nat) (s : Session) :
    ∃ k, s.runFrame.session =
      (s.performAll patience (List.replicate k .step ++ s.frameTicks)).1 := by
  unfold frameTicks Session.runFrame
  by_cases hr : s.machine.runState = .running
  · obtain ⟨k, hk⟩ := exists_steps_runFrom patience s.setup.pacing.cyclesPerFrame 0 s
    change (s.runFor s.setup.pacing.cyclesPerFrame).session = _ at hk
    refine ⟨k, ?_⟩
    simp only [hr, if_true, true_and]
    rw [performAll_append, ← hk]
    rcases s.runFor s.setup.pacing.cyclesPerFrame with ⟨t, result⟩
    cases result <;> rfl
  · refine ⟨0, ?_⟩
    simp only [hr, if_false, false_and]
    rfl

/-- A frame that returns has as many cycles as its pacing says, or the hook has stopped the machine. -/
theorem runFrame_length {k : Nat} (hr : s.machine.runState = .running)
    (h : s.runFrame.result = .ok k) :
    s.runFrame.session.cycles = s.cycles + k ∧ k ≤ s.setup.pacing.cyclesPerFrame ∧
      (k = s.setup.pacing.cyclesPerFrame ∨ ∃ u ∈ s.cyclesOf patience .runFrame,
        u.StopsHere ∧ s.runFrame.session = u.step.session.tick) := by
  have hends := loopEnds_runFrom 0 s.setup.pacing.cyclesPerFrame s
  unfold Session.runFrame at h ⊢
  rw [if_pos hr] at h ⊢
  rcases hs : s.runFor s.setup.pacing.cyclesPerFrame with ⟨t, result⟩
  rw [hs] at h
  cases result with
  | error e => cases h
  | ok j =>
    cases h
    rw [show runFrom 0 _ s = ⟨t, .ok k⟩ from hs] at hends
    obtain ⟨hle, hcycles, -⟩ := hends.of_ok (by omega) rfl
    refine ⟨hcycles, by omega, ?_⟩
    rcases runFrom_length hr hs with hj | ⟨u, hu, hstops, ht⟩
    · exact Or.inl (by omega)
    · exact Or.inr ⟨u, hu, hstops, congrArg Session.tick ht⟩

end Session

/-- A frame has at least one cycle, and no more than fit between two ticks, if one does. -/
theorem Pacing.cyclesPerFrame_bounds (p : Pacing) :
    1 ≤ p.cyclesPerFrame ∧ (p.timerRate ≤ p.clockRate →
      p.cyclesPerFrame * p.timerRate ≤ p.clockRate ∧
        p.clockRate < (p.cyclesPerFrame + 1) * p.timerRate) := by
  refine ⟨p.cyclesPerFrame_pos, ?_⟩
  intro hrates
  have hquotient : 1 ≤ p.clockRate / p.timerRate := by
    rw [Int.le_ediv_iff_mul_le p.timerRate_pos, Int.one_mul]
    exact hrates
  have hcycles : (p.cyclesPerFrame : Int) = p.clockRate / p.timerRate := by
    unfold cyclesPerFrame
    omega
  rw [hcycles]
  exact ⟨Int.ediv_mul_le _ (Int.ne_of_gt p.timerRate_pos), Int.lt_ediv_add_one_mul_self _ p.timerRate_pos⟩

namespace Session

/-- **The timer over a session, and the length of a frame.**  Let a session be set up or loaded, and then
let a host call what it likes short of loading anew: cycles, runs with a bound or without one, frames,
ticks, keys, pauses.  The timer then stands at the value of the register that the last executed `FX15`
stored, less the ticks since, and not below zero.  A frame adds one tick to those of the host, if the
machine was running when it was called and no cycle failed, and none otherwise.  A frame of a running
machine that returns has executed exactly the cycles between two ticks, unless the hook has stopped the
machine in its last one.  There is at least one cycle between two ticks, and if the clock is no slower
than the timer there are as many as fit in. -/
theorem timer_over_frames (patience : Nat) :
    (∀ t : Session, t.Begun → ∀ cs : List Command, (∀ c ∈ cs, c.IsHostCall ∧ ¬ c.Boots) →
        let beats := t.beatsAll patience cs
        (t.performAll patience cs).1.machine.delayTimer =
          max 0 (Beat.lastSet beats - Beat.ticksSince beats)) ∧
      (∀ s : Session,
        let pacing := s.setup.pacing
        let cycles := pacing.cyclesPerFrame
        (∃ k, s.runFrame.session =
            (s.performAll patience (List.replicate k .step ++ s.frameTicks)).1) ∧
          (∀ k : Nat, s.machine.runState = .running → s.runFrame.result = .ok k →
            s.runFrame.session.cycles = s.cycles + k ∧ k ≤ cycles ∧
              (k = cycles ∨ ∃ u ∈ s.cyclesOf patience .runFrame,
                u.StopsHere ∧ s.runFrame.session = u.step.session.tick)) ∧
          1 ≤ cycles ∧ (pacing.timerRate ≤ pacing.clockRate →
            cycles * pacing.timerRate ≤ pacing.clockRate ∧
              pacing.clockRate < (cycles + 1) * pacing.timerRate)) := by
  refine ⟨?_, ?_⟩
  · intro t ht cs hcs
    exact (ht.timed.performAll patience hcs).timer
  · intro s pacing cycles
    exact ⟨exists_runFrame patience s, fun k hr hk => runFrame_length hr hk,
      pacing.cyclesPerFrame_bounds⟩

/-- A program that sets the timer to five and runs into a word on which the hook pauses: the frame ends
there after three cycles out of twelve, with its tick, and a tick of the host follows. -/
theorem timer_over_frames_paused :
    ∃ t : Session, t.Begun ∧ t.machine.runState = .running ∧ t.runFrame.result = .ok 3 ∧
      (∃ u ∈ t.cyclesOf 0 .runFrame, u.StopsHere ∧ t.runFrame.session = u.step.session.tick) ∧
      t.beatsAll 0 [.runFrame, .tick] = [.set 5, .tick, .tick] ∧
      (t.performAll 0 [.runFrame, .tick]).1.machine.delayTimer = 3 ∧
      12 * t.setup.pacing.timerRate ≤ t.setup.pacing.clockRate := by
  let t := ((Session.start ⟨.standard, .standard, true, some .pause⟩ none (.ofList [])).perform 0
    (.load [0x60, 0x05, 0xF0, 0x15, 0x50, 0x01])).session
  have hbegun : t.Begun := .loaded 0 _ (by show _ ≤ _; decide)
  have hbeats : t.beatsAll 0 [.runFrame, .tick] = [.set 5, .tick, .tick] := by decide +kernel
  have hframe : t.runFrame.result.toOption = some 3 := by decide +kernel
  obtain ⟨htimer, hframes⟩ := timer_over_frames 0
  have hthree := htimer t hbegun [.runFrame, .tick] (by simp [Command.IsHostCall, Command.Boots])
  rw [hbeats] at hthree
  obtain ⟨-, hlength, -, hrates⟩ := hframes t
  have hresult : t.runFrame.result = .ok 3 := by
    cases hr : t.runFrame.result with
    | error e =>
      rw [hr] at hframe
      cases hframe
    | ok k =>
      rw [hr] at hframe
      rw [Option.some.inj hframe]
  have hrunning : t.machine.runState = .running := by decide +kernel
  obtain ⟨-, -, hall | hstopped⟩ := hlength 3 hrunning hresult
  · exact absurd hall (by decide +kernel)
  · exact ⟨t, hbegun, hrunning, hresult, hstopped, hbeats, hthree,
      (hrates (by decide +kernel)).1⟩

end Session

end Chip8
