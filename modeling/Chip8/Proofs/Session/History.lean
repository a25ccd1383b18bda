/-
# Chip8.Proofs.Session.History — the sessions that a host can bring about, and what their calls are
made of.

`Session.ReachableBy` holds of the sessions that begin fresh and go on by calls of an allowed kind, with
any arguments, in any order, whether they succeed or fail.  Two kinds matter: `Command.IsHostCall`, the
calls on the session as opposed to those that reach into its machine by hand, and `Command.IsDriving`,
which leaves out the fetch outside any cycle.

A run is a list of cycles, and a frame is a list of cycles with or without a tick behind it
(`exists_singles`).  So a property of all reachable sessions needs to be looked at for single calls
only (`ReachableBy.induct`), and a single call ends in one of four ways (`call_ends`).
-/
import Chip8.Proofs.Session.StepEnds
import Chip8.Session.Command

namespace Chip8

/-! ## Kinds of calls -/

namespace Command

/-- The calls on the session itself; the others reach into its machine by hand. -/
def IsHostCall : Command → Prop
  | execute _ | read .. | write .. | push _ | pop | clearScreen | setFlag _ => False
  | _ => True

/-- The calls that load, execute whole cycles, or write the timer, the run state or the keys. -/
def IsDriving : Command → Prop
  | fetch => False
  | c => c.IsHostCall

/-- The calls that execute at most one cycle. -/
def IsSingle : Command → Prop
  | run _ | runFrame => False
  | _ => True

/-- The calls that execute nothing: neither a cycle nor an instruction by hand. -/
def IsIdle : Command → Prop
  | step | run _ | runFrame | execute _ => False
  | _ => True

/-- The loads that begin anew, as the image is there and fits. -/
def Boots : Command → Prop
  | load image => image.length ≤ maxImageSize
  | loadFile path file =>
    ∃ image, file.contents (HostPath.clean path) = .ok image ∧ image.length ≤ maxImageSize
  | _ => False

/-- A cycle, a call by which the host writes the timer, the run state or the keys, or a load that is
refused. -/
def IsEvent (c : Command) : Prop :=
  c.IsDriving ∧ c.IsSingle ∧ ¬ c.Boots

theorem IsDriving.isHostCall {c : Command} (h : c.IsDriving) : c.IsHostCall := by
  cases c <;> first | exact h | exact h.elim

theorem IsIdle.isSingle {c : Command} (h : c.IsIdle) : c.IsSingle := by
  cases c <;> trivial

theorem isEvent_step : step.IsEvent :=
  ⟨trivial, trivial, id⟩

theorem isEvent_tick : tick.IsEvent :=
  ⟨trivial, trivial, id⟩

end Command

namespace Session

/-! ## Rounds of a run -/

section Rounds

variable {s t : Session}

/-- A session is not running, or its next cycle succeeds, or it fails. -/
theorem round_cases (s : Session) :
    s.machine.runState ≠ .running ∨
      s.machine.runState = .running ∧
        ((∃ t i, s.step = ⟨t, .ok i⟩) ∨ ∃ t e, s.step = ⟨t, .error e⟩) := by
  by_cases hr : s.machine.runState = .running
  · right
    refine ⟨hr, ?_⟩
    rcases s.step with ⟨t, result⟩
    cases result with
    | ok i => exact Or.inl ⟨t, i, rfl⟩
    | error e => exact Or.inr ⟨t, e, rfl⟩
  · exact Or.inl hr

theorem runFrom_of_not_running (hr : s.machine.runState ≠ .running) (done n : Nat) :
    runFrom done n s = ⟨s, .ok done⟩ := by
  cases n with
  | zero => rfl
  | succ n => exact if_neg hr

theorem runFrom_succ_of_ok (hr : s.machine.runState = .running) {i : Instruction}
    (hs : s.step = ⟨t, .ok i⟩) (done n : Nat) :
    runFrom done (n + 1) s = runFrom (done + 1) n t := by
  unfold runFrom
  rw [if_pos hr, hs]
  cases n <;> rfl

theorem runFrom_succ_of_error (hr : s.machine.runState = .running) {e : SessionError}
    (hs : s.step = ⟨t, .error e⟩) (done n : Nat) : runFrom done (n + 1) s = ⟨t, .error e⟩ := by
  unfold runFrom
  rw [if_pos hr, hs]

/-- A run leaves the session that its cycles leave, with a budget or without one. -/
theorem session_run (patience : Nat) (cycles : Option Int) (s : Session) :
    (s.run patience cycles).session =
      (s.runFor ((s.budget cycles).getD patience)).session := by
  unfold run
  split
  · next n hn => rw [hn, Option.getD_some]
  · next hn =>
    rw [hn, Option.getD_none]
    rcases s.runFor patience with ⟨t, result⟩
    cases result with
    | error e => rfl
    | ok n =>
      show (if t.isRunning then _ else _ : Reply Nat).session = t
      split <;> rfl

/-- A run fails as its cycles do. -/
theorem result_run_of_error (patience : Nat) (cycles : Option Int) (s : Session) {e : SessionError}
    (h : (s.runFor ((s.budget cycles).getD patience)).result = .error e) :
    (s.run patience cycles).result = .error e := by
  unfold run
  split
  · next n hn =>
    rw [hn, Option.getD_some] at h
    exact h
  · next hn =>
    rw [hn, Option.getD_none] at h
    rcases hr : s.runFor patience with ⟨t, result⟩
    rw [hr] at h
    obtain rfl : result = .error e := h
    rfl

end Rounds

/-! ## Lists of calls -/

variable (patience : Nat)

theorem performAll_cons (s : Session) (c : Command) (cs : List Command) :
    (s.performAll patience (c :: cs)).1 =
      ((s.perform patience c).session.performAll patience cs).1 := rfl

theorem perform_of_step {s t : Session} {result : Except SessionError Instruction}
    (hs : s.step = ⟨t, result⟩) : s.perform patience .step = ⟨t, result.map .stepped⟩ := by
  show s.step.map _ = _
  rw [hs]
  rfl

theorem performAll_append (s : Session) (cs ds : List Command) :
    (s.performAll patience (cs ++ ds)).1 =
      ((s.performAll patience cs).1.performAll patience ds).1 := by
  induction cs generalizing s with
  | nil => rfl
  | cons c cs ih =>
    rw [List.cons_append, performAll_cons, performAll_cons]
    exact ih _

theorem results_append (s : Session) (cs ds : List Command) :
    (s.performAll patience (cs ++ ds)).2 =
      (s.performAll patience cs).2 ++ ((s.performAll patience cs).1.performAll patience ds).2 := by
  induction cs generalizing s with
  | nil => rfl
  | cons c cs ih => exact congrArg (_ :: ·) (ih _)

/-- Every call of a list has a result. -/
theorem length_results (s : Session) (cs : List Command) :
    (s.performAll patience cs).2.length = cs.length := by
  induction cs generalizing s with
  | nil => rfl
  | cons c cs ih => exact congrArg (· + 1) (ih _)

/-! ## Runs and frames as lists of cycles -/

/-- A run leaves the session that some number of cycles leaves. -/
theorem exists_steps_runFrom (n done : Nat) (s : Session) :
    ∃ k, (runFrom done n s).session =
      (s.performAll patience (List.replicate k .step)).1 := by
  induction n generalizing done s with
  | zero => exact ⟨0, rfl⟩
  | succ n ih =>
    rcases s.round_cases with hr | ⟨hr, ⟨t, i, hs⟩ | ⟨t, e, hs⟩⟩
    · rw [runFrom_of_not_running hr]
      exact ⟨0, rfl⟩
    · obtain ⟨k, hk⟩ := ih (done + 1) t
      refine ⟨k + 1, ?_⟩
      rw [runFrom_succ_of_ok hr hs, List.replicate_succ, performAll_cons,
        perform_of_step patience hs]
      exact hk
    · -- a cycle that fails is the last one of its run
      refine ⟨1, ?_⟩
      rw [runFrom_succ_of_error hr hs, List.replicate_succ, performAll_cons,
        perform_of_step patience hs]
      rfl

theorem exists_steps_run (cycles : Option Int) (s : Session) :
    ∃ k, (s.run patience cycles).session =
      (s.performAll patience (List.replicate k .step)).1 := by
  rw [session_run]
  exact exists_steps_runFrom patience _ 0 s

/-- A frame is a run, and a tick unless the machine was not running or a cycle failed. -/
theorem exists_steps_runFrame (s : Session) :
    ∃ k ticks, (ticks = [] ∨ ticks = [Command.tick]) ∧
      s.runFrame.session =
        (s.performAll patience (List.replicate k .step ++ ticks)).1 := by
  unfold runFrame
  split
  · obtain ⟨k, hk⟩ := exists_steps_runFrom patience s.setup.pacing.cyclesPerFrame 0 s
    change (s.runFor s.setup.pacing.cyclesPerFrame).session = _ at hk
    rcases hr : s.runFor s.setup.pacing.cyclesPerFrame with ⟨t, result⟩
    rw [hr] at hk
    cases result with
    | ok n =>
      refine ⟨k, [.tick], Or.inr rfl, ?_⟩
      rw [performAll_append, ← hk]
      rfl
    | error e =>
      refine ⟨k, [], Or.inl rfl, ?_⟩
      rw [performAll_append, ← hk]
      rfl
  · exact ⟨0, [], Or.inl rfl, rfl⟩

/-- Every call leaves the session that a list of single calls leaves: itself, or cycles and ticks. -/
theorem exists_singles (s : Session) (c : Command) :
    ∃ cs, (∀ d ∈ cs, d.IsSingle ∧ (d = c ∨ d = .step ∨ d = .tick)) ∧
      (s.perform patience c).session = (s.performAll patience cs).1 := by
  by_cases hc : c.IsSingle
  · refine ⟨[c], ?_, rfl⟩
    intro d hd
    obtain rfl := List.mem_singleton.mp hd
    exact ⟨hc, Or.inl rfl⟩
  · cases c with
    | run cycles =>
      obtain ⟨k, hk⟩ := s.exists_steps_run patience cycles
      refine ⟨List.replicate k Command.step, ?_, hk⟩
      intro d hd
      obtain rfl := List.eq_of_mem_replicate hd
      exact ⟨trivial, Or.inr (Or.inl rfl)⟩
    | runFrame =>
      obtain ⟨k, ticks, hticks, hk⟩ := s.exists_steps_runFrame patience
      refine ⟨List.replicate k Command.step ++ ticks, ?_, hk⟩
      intro d hd
      rcases List.mem_append.mp hd with hd | hd
      · obtain rfl := List.eq_of_mem_replicate hd
        exact ⟨trivial, Or.inr (Or.inl rfl)⟩
      · rcases hticks with rfl | rfl
        · cases hd
        · obtain rfl := List.mem_singleton.mp hd
          exact ⟨trivial, Or.inr (Or.inr rfl)⟩
    | _ => exact (hc trivial).elim

/-- A list of calls that drive a session without booting it leaves the session that a list of events
leaves: its own single calls, and cycles and ticks for its runs and frames. -/
theorem exists_events (s : Session) {cs : List Command}
    (hcs : ∀ c ∈ cs, c.IsDriving ∧ ¬ c.Boots) :
    ∃ es : List Command, (∀ e ∈ es, e.IsEvent ∧ (e ∈ cs ∨ e = .step ∨ e = .tick)) ∧
      (s.performAll patience cs).1 = (s.performAll patience es).1 := by
  induction cs generalizing s with
  | nil => exact ⟨[], List.forall_mem_nil _, rfl⟩
  | cons c cs ih =>
    obtain ⟨hdriving, hboots⟩ := hcs c List.mem_cons_self
    obtain ⟨first, hfirst, hc⟩ := exists_singles patience s c
    obtain ⟨rest, hrest, heq⟩ :=
      ih (s.perform patience c).session fun d hd => hcs d (List.mem_cons_of_mem c hd)
    refine ⟨first ++ rest, ?_, ?_⟩
    · intro e he
      rcases List.mem_append.mp he with he | he
      · obtain ⟨hsingle, rfl | rfl | rfl⟩ := hfirst e he
        · exact ⟨⟨hdriving, hsingle, hboots⟩, Or.inl List.mem_cons_self⟩
        · exact ⟨Command.isEvent_step, Or.inr (Or.inl rfl)⟩
        · exact ⟨Command.isEvent_tick, Or.inr (Or.inr rfl)⟩
      · obtain ⟨hevent, hmem⟩ := hrest e he
        exact ⟨hevent, hmem.imp_left (List.mem_cons_of_mem c)⟩
    · rw [performAll_cons, heq, hc, ← performAll_append]

/-- What each call of a list keeps, the list keeps. -/
theorem performAll_keeps {P : Session → Prop} {cs : List Command}
    (hcs : ∀ c ∈ cs, ∀ s, P s → P (s.perform patience c).session) {s : Session} (h : P s) :
    P (s.performAll patience cs).1 := by
  induction cs generalizing s with
  | nil => exact h
  | cons c cs ih =>
    rw [performAll_cons]
    exact ih (fun d hd => hcs d (List.mem_cons_of_mem c hd)) (hcs c List.mem_cons_self s h)

/-! ## Reachable sessions -/

/-- The sessions that begin fresh and go on by allowed calls, which may fail.  A run that has no bound
may be given up at any cycle, so sessions in the midst of such a run are among them. -/
inductive ReachableBy (Allowed : Command → Prop) : Session → Prop where
  | start (setup : Setup) (threshold : Option Level) (source : ByteSource) :
      ReachableBy Allowed (.start setup threshold source)
  | perform {s : Session} {c : Command} (patience : Nat) (h : ReachableBy Allowed s)
      (hc : Allowed c) : ReachableBy Allowed (s.perform patience c).session

namespace ReachableBy

variable {Allowed : Command → Prop} {s : Session}

/-- Allowing more calls reaches no fewer sessions. -/
theorem mono {More : Command → Prop} (hmore : ∀ c, Allowed c → More c)
    (h : s.ReachableBy Allowed) : s.ReachableBy More := by
  induction h with
  | start setup threshold source => exact .start setup threshold source
  | perform patience _ hc ih => exact ih.perform patience (hmore _ hc)

theorem performAll (h : s.ReachableBy Allowed) {cs : List Command} (hcs : ∀ c ∈ cs, Allowed c) :
    (s.performAll patience cs).1.ReachableBy Allowed :=
  performAll_keeps patience (fun c hc _ ht => ht.perform patience (hcs c hc)) h

/-- What fresh sessions have and single calls keep, all reachable sessions have. -/
theorem induct {P : Session → Prop} (hstep : Allowed .step) (htick : Allowed .tick)
    (start : ∀ setup threshold source, P (.start setup threshold source))
    (single : ∀ (s : Session) (patience : Nat) (c : Command), Allowed c → c.IsSingle → P s →
      P (s.perform patience c).session)
    (h : s.ReachableBy Allowed) : P s := by
  induction h with
  | start setup threshold source => exact start setup threshold source
  | @perform s c patience _ hc ih =>
    -- the call may be a run, so the property is carried through the single calls it is made of
    obtain ⟨cs, hcs, heq⟩ := exists_singles patience s c
    rw [heq]
    apply performAll_keeps patience _ ih
    intro d hd t ht
    obtain ⟨hsingle, rfl | rfl | rfl⟩ := hcs d hd
    · exact single t patience d hc hsingle ht
    · exact single t patience .step hstep hsingle ht
    · exact single t patience .tick htick hsingle ht

end ReachableBy

end Session

/-! ## Single calls -/

theorem Machine.fits_of_boot {image : List UInt8} {m : Machine} (h : boot? image = some m) :
    image.length ≤ maxImageSize := by
  unfold boot? at h
  split at h
  · cases h
  · next hfits => exact Nat.le_of_not_lt hfits

/-- A fresh machine is blank but for its memory. -/
theorem Machine.exists_memory_of_boot {image : List UInt8} {m : Machine}
    (h : boot? image = some m) : ∃ memory, m = { blank with memory } := by
  unfold boot? at h
  split at h
  · cases h
  · exact ⟨_, (Option.some.inj h).symm⟩

/-- What a host does to a machine that it neither boots nor lets execute. -/
inductive Machine.Handled (m : Machine) : Machine → Prop where
  | same : Handled m m
  | ticked : Handled m m.tick
  | runState (r : RunState) (h : m.runState ≠ .halted) : Handled m { m with runState := r }
  | keypad (p : Keypad) : Handled m { m with keypad := p }

theorem Machine.Handled.runState_of_halted {m n : Machine} (hn : m.Handled n)
    (h : m.runState = .halted) : n.runState = .halted := by
  cases hn with
  | same | keypad => exact h
  | ticked =>
    unfold tick
    split <;> exact h
  | runState r hr => exact (hr h).elim

namespace Session

/-- How a single call on a session ends, up to the journal. -/
inductive CallEnds (s : Session) (c : Command) : Session → Prop where
  /-- Nothing but the machine has changed, and the host has changed it; refused calls are among these. -/
  | handled {m : Machine} (journal : Journal) (hm : s.machine.Handled m) :
      CallEnds s c { s with machine := m, journal }
  /-- A load has begun anew. -/
  | booted {image : List UInt8} {m : Machine} (journal : Journal) (hc : c.Boots)
      (hm : Machine.boot? image = some m) :
      CallEnds s c { s with machine := m, cycles := 0, trace := #[], journal }
  /-- An instruction was fetched outside any cycle. -/
  | fetched {i : Instruction} {m : Machine} (hc : c = .fetch)
      (hf : s.machine.fetch = .ok (i, m)) : CallEnds s c { s with machine := m }
  /-- A cycle. -/
  | stepped (hc : c = .step) : CallEnds s c s.step.session

namespace CallEnds

variable {s : Session} {c : Command}

theorem refused : s.CallEnds c s :=
  .handled s.journal .same

theorem pause : s.CallEnds c s.pause := by
  unfold Session.pause
  split
  · next hr => exact .handled _ (.runState .paused (by rw [hr]; decide))
  · exact refused

theorem resume : s.CallEnds c s.resume := by
  unfold Session.resume
  split
  · next hr => exact .handled _ (.runState .running (by rw [hr]; decide))
  · exact refused

theorem setKey (key : Int) (isDown : Bool) : s.CallEnds c (s.setKey key isDown).session := by
  unfold Session.setKey
  split
  · exact refused
  · exact .handled _ (.keypad _)

theorem load {image : List UInt8} (hc : image.length ≤ maxImageSize → c.Boots) :
    s.CallEnds c (s.load image).session := by
  unfold Session.load
  split
  · exact refused
  · next m hm => exact .booted _ (hc (Machine.fits_of_boot hm)) hm

end CallEnds

/-- A single call on a session ends in one of the four ways. -/
theorem call_ends (patience : Nat) (s : Session) {c : Command} (hc : c.IsHostCall)
    (hsingle : c.IsSingle) : s.CallEnds c (s.perform patience c).session := by
  cases c with
  | load image => exact .load id
  | loadFile path file =>
    show s.CallEnds _ (s.loadFile path file).session
    unfold loadFile
    split
    · exact .refused
    · next image hfile => exact .load fun hfits => ⟨image, hfile, hfits⟩
  | step => exact .stepped rfl
  | fetch =>
    show s.CallEnds _ s.fetch.session
    unfold fetch settle
    split
    · next hf =>
      obtain rfl := s.machine.atomic_fetch _ hf
      exact .refused
    · next hf => exact .fetched rfl hf
  | tick => exact .handled s.journal .ticked
  | pause => exact .pause
  | resume => exact .resume
  | togglePause =>
    show s.CallEnds _ s.togglePause
    unfold togglePause
    split
    · exact .pause
    · exact .resume
  | halt =>
    show s.CallEnds _ s.halt
    unfold halt
    split
    · next hr => exact .handled _ (.runState .halted hr)
    · exact .refused
  | pressKey key => exact .setKey key true
  | releaseKey key => exact .setKey key false
  | setKeys keys =>
    show s.CallEnds _ (s.setKeys keys).session
    unfold setKeys
    split
    · exact .refused
    · exact .handled _ (.keypad _)
  | run | runFrame => exact hsingle.elim
  | execute | read | write | push | pop | clearScreen | setFlag => exact hc.elim

/-- A read changes nothing. -/
theorem session_read (s : Session) (address count : Int) : (s.read address count).session = s := by
  unfold read
  split <;> rfl

end Session

end Chip8
