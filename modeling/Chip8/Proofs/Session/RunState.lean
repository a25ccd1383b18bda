/-
# Chip8.Proofs.Session.RunState — what a host can do to a machine that is not running.

A machine that is paused or halted executes nothing.  The calls that operate a session without loading
can then write the keys and tick the timer, and nothing else: `Session.rested` is the session that a list
of them leaves, and `rest_eq` says that a halted machine comes to no other under any list, and a paused
one under any list without a call that ends the pause.  Nothing but a load that succeeds lets a halted
machine run again.
-/
import Chip8.Proofs.Session.CycleLog

namespace Chip8

/-! ## Calls that rest -/

namespace Command

/-- The calls that execute cycles, or write the timer, the run state or the keys. -/
def Operates : Command → Prop
  | load _ | loadFile .. => False
  | c => c.IsDriving

/-- The calls that take a paused machine out of its pause. -/
def EndsPause : Command → Prop
  | resume | togglePause | halt => True
  | _ => False

/-- The keys after a call.  A call that names something other than keys changes none. -/
def latch (p : Keypad) : Command → Keypad
  | pressKey key => (Key.ofInt? key).elim p fun k => p.setKey k true
  | releaseKey key => (Key.ofInt? key).elim p fun k => p.setKey k false
  | setKeys keys => (Session.keysOf keys).toOption.elim p .ofPressed
  | _ => p

end Command

namespace Machine

/-- The timer after a number of ticks.  Only a host that writes it by hand makes it negative, and then
it stands still. -/
def timerAfter (d : Int) (ticks : Nat) : Int :=
  if 0 ≤ d then max 0 (d - ticks) else d

theorem timerAfter_zero (d : Int) : timerAfter d 0 = d := by
  unfold timerAfter
  split <;> omega

theorem timerAfter_add (d : Int) (a b : Nat) :
    timerAfter (timerAfter d a) b = timerAfter d (a + b) := by
  unfold timerAfter
  by_cases hd : 0 ≤ d
  · rw [if_pos hd, if_pos hd, if_pos (by omega)]
    omega
  · rw [if_neg hd, if_neg hd, if_neg hd]

/-- The machine after calls that write nothing but its keys and its timer. -/
def rested (m : Machine) (cs : List Command) : Machine :=
  { m with
    keypad := cs.foldl Command.latch m.keypad
    delayTimer := timerAfter m.delayTimer (cs.count .tick) }

theorem rested_nil (m : Machine) : m.rested [] = m := by
  unfold rested
  rw [List.count_nil, timerAfter_zero, List.foldl_nil]

theorem rested_cons (m : Machine) (c : Command) (cs : List Command) :
    (m.rested [c]).rested cs = m.rested (c :: cs) := by
  have htimer : timerAfter (timerAfter m.delayTimer ([c].count .tick)) (cs.count .tick) =
      timerAfter m.delayTimer ((c :: cs).count .tick) := by
    rw [timerAfter_add, ← List.count_append, List.singleton_append]
  show ({ m.rested (c :: cs) with
    delayTimer := timerAfter (timerAfter m.delayTimer ([c].count .tick)) (cs.count .tick) } :
      Machine) = _
  rw [htimer]
  rfl

theorem rested_tick (m : Machine) : m.rested [.tick] = m.tick := by
  unfold rested tick timerAfter
  by_cases hd : 0 < m.delayTimer
  · rw [if_pos hd, if_pos (by omega)]
    congr 1
    show max 0 (m.delayTimer - 1) = _
    omega
  · rw [if_neg hd]
    show { m with delayTimer := if 0 ≤ m.delayTimer then max 0 (m.delayTimer - 1) else _ } = m
    rw [show (if 0 ≤ m.delayTimer then max 0 (m.delayTimer - 1) else m.delayTimer) = m.delayTimer by
      split <;> omega]

/-- A call other than a tick leaves the timer. -/
theorem rested_singleton (m : Machine) {c : Command} (hc : c ≠ .tick) :
    m.rested [c] = { m with keypad := Command.latch m.keypad c } := by
  unfold rested
  rw [List.count_singleton, if_neg (by simpa using hc), timerAfter_zero, List.foldl_cons,
    List.foldl_nil]

end Machine

namespace Session

variable {s : Session}

/-- The session after calls that write nothing but the keys and the timer. -/
def rested (s : Session) (cs : List Command) : Session :=
  s.edit fun m => m.rested cs

theorem rested_nil (s : Session) : s.rested [] = s := by
  unfold rested edit
  simp only [Machine.rested_nil]

theorem rested_cons (s : Session) (c : Command) (cs : List Command) :
    (s.rested [c]).rested cs = s.rested (c :: cs) := by
  unfold rested edit
  simp only [Machine.rested_cons]

/-- A call other than a tick writes the keys at most. -/
theorem rested_latched (s : Session) {c : Command} (hc : c ≠ .tick) {p : Keypad}
    (hlatch : Command.latch s.machine.keypad c = p) :
    s.rested [c] = s.edit fun m => { m with keypad := p } := by
  unfold rested edit
  simp only [Machine.rested_singleton _ hc, hlatch]

/-- A call that writes neither keys nor timer leaves the session. -/
theorem rested_idle (s : Session) {c : Command} (hc : c ≠ .tick)
    (hlatch : Command.latch s.machine.keypad c = s.machine.keypad) : s.rested [c] = s :=
  (s.rested_latched hc hlatch).trans rfl

/-! ## Refused cycles -/

/-- A run executes nothing on a machine that is not running, with a budget or without one. -/
theorem run_of_not_running (h : s.machine.runState ≠ .running) (patience : Nat)
    (cycles : Option Int) : s.run patience cycles = ⟨s, .ok 0⟩ := by
  have hidle : s.isRunning = false := by
    unfold isRunning
    exact beq_false_of_ne h
  unfold run runFor
  split
  · exact runFrom_of_not_running h 0 _
  · rw [runFrom_of_not_running h]
    simp only [hidle]
    rfl

/-- A frame does not even tick then. -/
theorem runFrame_of_not_running (h : s.machine.runState ≠ .running) : s.runFrame = ⟨s, .ok 0⟩ :=
  if_neg h

/-! ## Keys -/

/-- A call that writes one key rests, also when there is no such key. -/
theorem rested_setKey (key : Int) (isDown : Bool) {c : Command} (hc : c ≠ .tick)
    (hlatch : Command.latch s.machine.keypad c =
      (Key.ofInt? key).elim s.machine.keypad fun k => s.machine.keypad.setKey k isDown) :
    (s.setKey key isDown).session = s.rested [c] := by
  unfold setKey
  cases hk : Key.ofInt? key with
  | none =>
    rw [hk] at hlatch
    exact (s.rested_idle hc hlatch).symm
  | some k =>
    rw [hk] at hlatch
    exact (s.rested_latched hc hlatch).symm

theorem rested_setKeys (keys : List Int) :
    (s.setKeys keys).session = s.rested [.setKeys keys] := by
  have hc : Command.setKeys keys ≠ .tick := nofun
  have hlatch : Command.latch s.machine.keypad (.setKeys keys) =
    (keysOf keys).toOption.elim s.machine.keypad .ofPressed := rfl
  unfold setKeys
  cases hk : keysOf keys with
  | error key =>
    rw [hk] at hlatch
    exact (s.rested_idle hc hlatch).symm
  | ok ks =>
    rw [hk] at hlatch
    exact (s.rested_latched hc hlatch).symm

/-! ## Machines at rest -/

theorem resume_of_halted (h : s.machine.runState = .halted) : s.resume = s :=
  if_neg (by rw [h]; decide)

/-- The machine is halted, or it is paused and the call does not end that. -/
def RestsUnder (s : Session) (c : Command) : Prop :=
  s.machine.runState = .halted ∨ s.machine.runState = .paused ∧ ¬ c.EndsPause

theorem RestsUnder.ne_running {c : Command} (h : s.RestsUnder c) :
    s.machine.runState ≠ .running := by
  rcases h with h | ⟨h, -⟩
  · rw [h]
    decide
  · rw [h]
    decide

/-- A call at rest writes nothing but the keys and the timer. -/
theorem perform_of_rests (patience : Nat) {c : Command} (hc : c.Operates) (h : s.RestsUnder c) :
    (s.perform patience c).session = s.rested [c] := by
  have hr := h.ne_running
  cases c with
  | step =>
    rw [s.rested_idle (c := .step) nofun rfl]
    exact congrArg Reply.session (step_of_not_running hr)
  | run cycles =>
    rw [s.rested_idle (c := .run cycles) nofun rfl]
    exact congrArg Reply.session (run_of_not_running hr patience cycles)
  | runFrame =>
    rw [s.rested_idle (c := .runFrame) nofun rfl]
    exact congrArg Reply.session (runFrame_of_not_running hr)
  | tick =>
    show s.edit Machine.tick = s.edit fun m => m.rested [.tick]
    simp only [Machine.rested_tick]
  | pause =>
    rw [s.rested_idle (c := .pause) nofun rfl]
    exact if_neg hr
  -- the next three end a pause, so the machine is halted, and then they do nothing
  | resume =>
    obtain h | ⟨-, hends⟩ := h
    · rw [s.rested_idle (c := .resume) nofun rfl]
      exact resume_of_halted h
    · exact (hends trivial).elim
  | togglePause =>
    obtain h | ⟨-, hends⟩ := h
    · rw [s.rested_idle (c := .togglePause) nofun rfl]
      exact (if_neg hr).trans (resume_of_halted h)
    · exact (hends trivial).elim
  | halt =>
    obtain h | ⟨-, hends⟩ := h
    · rw [s.rested_idle (c := .halt) nofun rfl]
      exact if_neg fun hne => hne h
    · exact (hends trivial).elim
  | pressKey key => exact rested_setKey key true nofun rfl
  | releaseKey key => exact rested_setKey key false nofun rfl
  | setKeys keys => exact rested_setKeys keys
  | load | loadFile | fetch => exact hc.elim
  | execute | read | write | push | pop | clearScreen | setFlag => exact hc.elim

/-- Calls at rest write nothing but the keys and the timer. -/
theorem rest_eq (patience : Nat) {cs : List Command} (hcs : ∀ c ∈ cs, c.Operates)
    (h : ∀ c ∈ cs, s.RestsUnder c) : (s.performAll patience cs).1 = s.rested cs := by
  induction cs generalizing s with
  | nil => exact s.rested_nil.symm
  | cons c cs ih =>
    rw [performAll_cons, perform_of_rests patience (hcs c List.mem_cons_self)
      (h c List.mem_cons_self), ← s.rested_cons c cs]
    -- resting keeps the run state, and with it the rest
    exact ih (fun d hd => hcs d (List.mem_cons_of_mem c hd))
      fun d hd => h d (List.mem_cons_of_mem c hd)

/-! ## Leaving -/

/-- The session with another run state, and what was reported of that. -/
def turned (s : Session) (r : RunState) (journal : Journal) : Session :=
  { s with machine := { s.machine with runState := r }, journal }

theorem resume_of_paused (h : s.machine.runState = .paused) :
    ∃ journal, s.resume = s.turned .running journal :=
  ⟨_, if_pos h⟩

theorem togglePause_of_paused (h : s.machine.runState = .paused) : s.togglePause = s.resume :=
  if_neg (by rw [h]; decide)

theorem halt_of_paused (h : s.machine.runState = .paused) :
    ∃ journal, s.halt = s.turned .halted journal :=
  ⟨_, if_pos (by rw [h]; decide)⟩

/-- A load that succeeds leaves a machine that runs. -/
theorem runState_of_boots (patience : Nat) {c : Command} (hb : c.Boots) :
    (s.perform patience c).session.machine.runState = .running := by
  obtain ⟨image, m, journal, hm, hs⟩ := s.perform_of_boots patience hb
  obtain ⟨memory, rfl⟩ := Machine.exists_memory_of_boot hm
  rw [hs]
  rfl

/-- A call on a halted session that is no load that succeeds leaves it halted. -/
theorem perform_of_halted (patience : Nat) {c : Command} (hc : c.IsHostCall) (hb : ¬ c.Boots)
    (h : s.machine.runState = .halted) :
    (s.perform patience c).session.machine.runState = .halted := by
  by_cases hsingle : c.IsSingle
  · have hends := call_ends patience s hc hsingle
    generalize (s.perform patience c).session = t at hends ⊢
    cases hends with
    | handled _ hm => exact hm.runState_of_halted h
    | booted _ hboots _ => exact (hb hboots).elim
    | fetched _ hf =>
      rw [Machine.eq_advance_of_fetch hf]
      exact h
    | stepped _ =>
      rw [step_of_not_running (by rw [h]; decide)]
      exact h
  · -- a run or a frame is an operation, and so at rest
    have hoperates : c.Operates := by
      cases c with
      | run | runFrame => trivial
      | _ => exact (hsingle trivial).elim
    rw [perform_of_rests patience hoperates (Or.inl h)]
    exact h

/-- **The protocol of the run state.**  A list of calls that operate a halted session, whatever they
are, leaves nothing but the keys and the timer changed; the same is true of a paused session as long as
no call ends the pause.  A resume and a toggle let a paused machine run, a halt halts it, and they change
nothing else.  A machine that is not running refuses a cycle, and runs and frames of it do nothing, the
tick of a frame included.  Nothing but a load that succeeds leaves a halted machine not halted, and every
such load does.  In a session that a host has brought about the timer counts down to zero. -/
theorem runState_protocol (patience : Nat) (s : Session) :
    (s.machine.runState = .halted → ∀ cs : List Command, (∀ c ∈ cs, c.Operates) →
        (s.performAll patience cs).1 = s.rested cs) ∧
      (s.machine.runState = .paused →
        (∀ cs : List Command, (∀ c ∈ cs, c.Operates ∧ ¬ c.EndsPause) →
            (s.performAll patience cs).1 = s.rested cs) ∧
          (∃ journal, s.resume = s.turned .running journal) ∧ s.togglePause = s.resume ∧
          ∃ journal, s.halt = s.turned .halted journal) ∧
      (s.machine.runState ≠ .running →
        s.step = ⟨s, .error (.notRunning s.machine.runState)⟩ ∧
          (∀ cycles, s.run patience cycles = ⟨s, .ok 0⟩) ∧ s.runFrame = ⟨s, .ok 0⟩) ∧
      (s.machine.runState = .halted → ∀ cs : List Command, (∀ c ∈ cs, c.IsHostCall) →
        (s.performAll patience cs).1.machine.runState ≠ .halted → ∃ c ∈ cs, c.Boots) ∧
      (∀ c : Command, c.Boots → (s.perform patience c).session.machine.runState = .running) ∧
      (s.ReachableBy Command.IsHostCall → ∀ ticks : Nat,
        Machine.timerAfter s.machine.delayTimer ticks = max 0 (s.machine.delayTimer - ticks)) := by
  refine ⟨?_, ?_, ?_, ?_, ?_, ?_⟩
  · intro h cs hcs
    exact rest_eq patience hcs fun _ _ => Or.inl h
  · intro h
    refine ⟨?_, resume_of_paused h, togglePause_of_paused h, halt_of_paused h⟩
    intro cs hcs
    exact rest_eq patience (fun c hc => (hcs c hc).1) fun c hc => Or.inr ⟨h, (hcs c hc).2⟩
  · intro h
    exact ⟨step_of_not_running h, run_of_not_running h patience, runFrame_of_not_running h⟩
  · intro h cs hcs hleft
    apply Classical.byContradiction
    intro hnone
    apply hleft
    -- without a load that succeeds every call of the list leaves the machine halted
    apply performAll_keeps patience (P := fun t => t.machine.runState = .halted) _ h
    intro c hc t ht
    exact perform_of_halted patience (hcs c hc) (fun hb => hnone ⟨c, hc, hb⟩) ht
  · intro c hb
    exact runState_of_boots patience hb
  · intro hreachable ticks
    exact if_pos hreachable.inRange.delayTimer.1

/-- A program that sets the timer to five and then returns from nowhere: of what the host tries after the
fault, two ticks and a key get through. -/
theorem runState_protocol_after_fault :
    ∃ s t : Session, s.ReachableBy Command.IsHostCall ∧ s.machine.runState = .halted ∧
      s.machine.delayTimer = 5 ∧
      (s.performAll 0 [.tick, .pressKey 3, .resume, .step, .pressKey 16, .tick, .runFrame]).1 = t ∧
      t.machine.runState = .halted ∧ t.machine.delayTimer = 3 ∧
      t.machine.keypad = s.machine.keypad.setKey 3 true := by
  obtain ⟨s, hr, hhalted, htimer⟩ : ∃ s : Session, s.ReachableBy Command.IsHostCall ∧
      s.machine.runState = .halted ∧ s.machine.delayTimer = 5 := by
    refine ⟨((Session.start ⟨.standard, .standard, true, none⟩ none (.ofList [])).performAll 0
      [.load [0x60, 0x05, 0xF0, 0x15, 0x00, 0xEE], .run none]).1, ?_, by decide +kernel,
      by decide +kernel⟩
    apply (ReachableBy.start _ _ _).performAll
    simp only [List.forall_mem_cons]
    exact ⟨trivial, trivial, nofun⟩
  obtain ⟨hrest, -⟩ := runState_protocol 0 s
  refine ⟨s, _, hr, hhalted, htimer, hrest hhalted _ ?_, hhalted, ?_, rfl⟩
  · simp only [List.forall_mem_cons]
    exact ⟨trivial, trivial, trivial, trivial, trivial, trivial, trivial, nofun⟩
  · show Machine.timerAfter s.machine.delayTimer 2 = 3
    rw [htimer]
    rfl

end Session

end Chip8
