/-
# Chip8.Proofs.Session.Retold — the past that no call looks at.

Cycles tell the hook of words and report to the journal.  No call looks at the journal; and only the hook
looks at the words that it was told of before.  What a hook does behind its past is what another hook does
from the start (`Hook.after`).

`Session.retold` is a session as it would be with another past, that is with another hook that was told of
other words, and without a journal.  If the hook of that past goes on as the hook of the session does, each
function, from the recording of a cycle up to a call, answers the same on it and leaves the same but for
the past.  `Session.unlogged` is the case of the journal alone.
-/
import Chip8.Proofs.Session.Calls

namespace Chip8

/-- The hook that reacts as this one does once it was told of the words. -/
def Hook.after (words : Array UInt16) (hook : Hook) : Hook :=
  ⟨fun later i => hook.react (words ++ later) i⟩

theorem Hook.after_empty (hook : Hook) : hook.after #[] = hook := by
  unfold after
  simp only [Array.empty_append]

/-- What lies behind a session: its hook, and the words that the hook was told of. -/
structure Past where
  /-- The hook. -/
  hook : Option Hook
  /-- The words that it was told of. -/
  words : Array UInt16

/-- How the hook reacts from there on. -/
def Past.ahead (p : Past) : Option Hook :=
  p.hook.map (.after p.words)

/-- The session behind another past, with a journal that keeps nothing. -/
def Session.retold (p : Past) (s : Session) : Session :=
  { s with
    setup := { s.setup with hook := p.hook }
    reported := p.words ++ s.reported
    journal := .start none }

/-- The same answer, with the session afterwards behind another past. -/
def Reply.retold {α : Type} (p : Past) (r : Reply α) : Reply α :=
  ⟨r.session.retold p, r.result⟩

/-- A journal that keeps nothing stays as it is. -/
@[simp] theorem Journal.note_start_none (e : Event) :
    (Journal.start none).note e = .start none := rfl

@[simp] theorem Journal.noteAll_start_none (es : List Event) :
    (Journal.start none).noteAll es = .start none := by
  unfold noteAll
  induction es with
  | nil => rfl
  | cons e es ih => simpa using ih

namespace Session

variable (p : Past) (s : Session)

/-! ## Run state -/

theorem retold_pause : (s.retold p).pause = s.pause.retold p := by
  have hstate : (s.retold p).machine.runState = s.machine.runState := rfl
  unfold pause
  rw [hstate]
  split <;> rfl

theorem retold_resume : (s.retold p).resume = s.resume.retold p := by
  have hstate : (s.retold p).machine.runState = s.machine.runState := rfl
  unfold resume
  rw [hstate]
  split <;> rfl

theorem retold_togglePause : (s.retold p).togglePause = s.togglePause.retold p := by
  have hstate : (s.retold p).machine.runState = s.machine.runState := rfl
  unfold togglePause
  rw [hstate]
  split
  · exact retold_pause p s
  · exact retold_resume p s

theorem retold_halt : (s.retold p).halt = s.halt.retold p := by
  have hstate : (s.retold p).machine.runState = s.machine.runState := rfl
  unfold halt
  rw [hstate]
  split <;> rfl

/-! ## Cycles -/

theorem retold_record (before : Snapshot) (i : Option Instruction) (error : Option String) :
    (s.retold p).record before i error = (s.record before i error).retold p := by
  have htracing : (s.retold p).setup.isTracing = s.setup.isTracing := rfl
  unfold record
  rw [htracing]
  split <;> rfl

theorem retold_fail (before : Snapshot) (i : Option Instruction) (f : Fault) :
    (s.retold p).fail before i f = (s.fail before i f).retold p := by
  unfold fail Reply.retold
  rw [← retold_record]
  rfl

theorem retold_finish (before : Snapshot) (i : Instruction) :
    (s.retold p).finish before i = (s.finish before i).retold p := by
  have hcarry : (s.retold p).machine.carryOut (s.retold p).setup.variant i
      (s.retold p).source = s.machine.carryOut s.setup.variant i s.source := rfl
  unfold finish
  rw [hcarry]
  cases s.machine.carryOut s.setup.variant i s.source with
  | error stopped =>
    obtain ⟨⟨m, source⟩, failure⟩ := stopped
    cases failure with
    | fault cause =>
      exact retold_fail p { s with machine := m, source } before (some i) ⟨cause, none⟩
    | misfit => rfl
  | ok executed =>
    obtain ⟨n, source⟩ := executed
    let journal := s.journal.noteAll (Event.ofExecution i s.machine n)
    have hquiet : (s.retold p).journal.noteAll (Event.ofExecution i s.machine n) =
      .start none := Journal.noteAll_start_none _
    have hrecord := retold_record p { s with machine := n, source, journal } before (some i) none
    show Reply.mk _ _ = Reply.mk _ _
    congr 1
    rw [show (s.retold p).machine = s.machine from rfl, hquiet]
    exact congrArg (fun t => { t with cycles := t.cycles + 1 }) hrecord

section

variable {p s}

/-- A hook that goes on alike reacts alike. -/
theorem reaction?_retold (h : s.setup.hook = p.ahead) (i : Instruction) :
    (s.retold p).reaction? i = s.reaction? i := by
  unfold reaction?
  rw [h, Past.ahead, Option.map_map]
  rfl

/-- The hook is told of a word behind whatever it was told of before. -/
theorem retold_callHook (h : s.setup.hook = p.ahead) (i : Instruction) :
    (s.retold p).callHook i = (s.callHook i).retold p := by
  unfold callHook
  rw [reaction?_retold h i]
  cases s.reaction? i with
  | none => rfl
  | some reaction =>
    let noted := { s with reported := s.reported.push i.word }
    have hnoted : { s.retold p with reported := (s.retold p).reported.push i.word } =
        noted.retold p := by
      simp only [noted, retold, Array.append_push]
    simp only [hnoted]
    cases reaction with
    | pause => exact congrArg (Reply.mk · (.ok ())) (retold_pause p noted)
    | halt => exact congrArg (Reply.mk · (.ok ())) (retold_halt p noted)
    | ignore | fault | breakOff => rfl

theorem retold_consult (h : s.setup.hook = p.ahead) (pc : Int) (i : Instruction) :
    (s.retold p).consult pc i = (s.consult pc i).retold p := by
  unfold consult
  split
  · exact retold_callHook (s := s.note (.unrecognized pc i)) h i
  · rfl

theorem retold_cycle (h : s.setup.hook = p.ahead) :
    (s.retold p).cycle = s.cycle.retold p := by
  have hfetch : (s.retold p).machine.fetch = s.machine.fetch := rfl
  unfold cycle
  rw [hfetch]
  cases s.machine.fetch with
  | error stopped =>
    exact retold_fail p { s with machine := stopped.state } s.machine.snapshot none
      ⟨stopped.reason, none⟩
  | ok fetched =>
    obtain ⟨i, m⟩ := fetched
    let begun := { s with machine := m }.note (.executing s.machine.snapshot.pc i)
    rcases hfirst : begun.consult s.machine.snapshot.pc i with ⟨t, result⟩
    have hsecond : ({ s.retold p with machine := m }.note
        (.executing (s.retold p).machine.snapshot.pc i)).consult
        (s.retold p).machine.snapshot.pc i = ⟨t.retold p, result⟩ := by
      rw [show (Reply.mk (t.retold p) result) = (Reply.mk t result).retold p from rfl,
        ← hfirst]
      exact retold_consult (s := begun) h s.machine.snapshot.pc i
    simp only [hsecond, show ({ s with machine := m }.note
      (.executing s.machine.snapshot.pc i)).consult s.machine.snapshot.pc i = _ from hfirst]
    cases result with
    | ok => exact retold_finish p t s.machine.snapshot i
    | error e =>
      cases e with
      | fault f => exact retold_fail p t s.machine.snapshot (some i) f
      | _ => rfl

theorem retold_step (h : s.setup.hook = p.ahead) : (s.retold p).step = s.step.retold p := by
  have hstate : (s.retold p).machine.runState = s.machine.runState := rfl
  unfold step
  rw [hstate]
  split
  · exact retold_cycle h
  · rfl

/-! ## Runs and frames -/

/-- The hook stays the one of the session, however many cycles it has seen. -/
theorem retold_runFrom (h : s.setup.hook = p.ahead) (done n : Nat) :
    runFrom done n (s.retold p) = (runFrom done n s).retold p := by
  induction n generalizing done s with
  | zero => rfl
  | succ n ih =>
    have hstate : (s.retold p).machine.runState = s.machine.runState := rfl
    have hkept : s.step.session.setup.hook = p.ahead := by
      rw [s.setup_step]
      exact h
    rw [runFrom, runFrom, hstate, retold_step h]
    split
    · rcases hs : s.step with ⟨t, result⟩
      rw [hs] at hkept
      cases result with
      | ok i => exact ih hkept (done + 1)
      | error e => rfl
    · rfl

theorem retold_run (h : s.setup.hook = p.ahead) (patience : Nat) (cycles : Option Int) :
    (s.retold p).run patience cycles = (s.run patience cycles).retold p := by
  have hbudget : (s.retold p).budget cycles = s.budget cycles := rfl
  unfold run
  rw [hbudget]
  cases s.budget cycles with
  | some n => exact retold_runFrom h 0 n
  | none =>
    unfold runFor
    simp only [retold_runFrom h]
    rcases runFrom 0 patience s with ⟨t, result⟩
    cases result with
    | error e => rfl
    | ok n =>
      show (if t.isRunning then _ else _) = (if t.isRunning then _ else _ : Reply Nat).retold p
      split <;> rfl

theorem retold_runFrame (h : s.setup.hook = p.ahead) :
    (s.retold p).runFrame = s.runFrame.retold p := by
  have hstate : (s.retold p).machine.runState = s.machine.runState := rfl
  have hpacing : (s.retold p).setup.pacing = s.setup.pacing := rfl
  unfold runFrame runFor
  rw [hstate, hpacing, retold_runFrom h]
  split
  · rcases runFrom 0 s.setup.pacing.cyclesPerFrame s with ⟨t, result⟩
    cases result <;> rfl
  · rfl

end

/-! ## Calls -/

theorem retold_load (image : List UInt8) :
    (s.retold p).load image = (s.load image).retold p := by
  unfold load
  cases Machine.boot? image <;> rfl

theorem retold_loadFile (path : String) (file : HostFile) :
    (s.retold p).loadFile path file = (s.loadFile path file).retold p := by
  unfold loadFile
  split
  · rfl
  · exact retold_load p s _

theorem retold_setKey (key : Int) (isDown : Bool) :
    (s.retold p).setKey key isDown = (s.setKey key isDown).retold p := by
  unfold setKey
  split <;> rfl

theorem retold_setKeys (keys : List Int) :
    (s.retold p).setKeys keys = (s.setKeys keys).retold p := by
  unfold setKeys
  split <;> rfl

theorem retold_settle {α : Type} (move : Except (Stopped Machine Cause) (α × Machine)) :
    (s.retold p).settle move = (s.settle move).retold p := by
  cases move <;> rfl

theorem retold_read (address count : Int) :
    (s.retold p).read address count = (s.read address count).retold p := by
  have hread : (s.retold p).machine.read address count = s.machine.read address count := rfl
  unfold read
  rw [hread]
  cases s.machine.read address count <;> rfl

theorem retold_execute (i : Instruction) :
    (s.retold p).execute i = (s.execute i).retold p := by
  have hcarry : (s.retold p).machine.carryOut (s.retold p).setup.variant i
      (s.retold p).source = s.machine.carryOut s.setup.variant i s.source := rfl
  unfold execute
  rw [hcarry]
  cases s.machine.carryOut s.setup.variant i s.source with
  | error stopped =>
    obtain ⟨⟨m, source⟩, failure⟩ := stopped
    cases failure <;> rfl
  | ok executed =>
    obtain ⟨n, source⟩ := executed
    show Reply.mk { s.retold p with
      machine := n, source, journal := (Journal.start none).noteAll _ } _ = _
    rw [Journal.noteAll_start_none]
    rfl

variable {p s} in
/-- A call answers the same whatever the past, if the hook goes on alike. -/
theorem retold_perform (h : s.setup.hook = p.ahead) (patience : Nat) (c : Command) :
    (s.retold p).perform patience c = (s.perform patience c).retold p := by
  cases c with
  | load image => exact congrArg (Reply.map _) (retold_load p s image)
  | loadFile path file => exact congrArg (Reply.map _) (retold_loadFile p s path file)
  | step => exact congrArg (Reply.map _) (retold_step h)
  | run cycles => exact congrArg (Reply.map _) (retold_run h patience cycles)
  | runFrame => exact congrArg (Reply.map _) (retold_runFrame h)
  | fetch => exact congrArg (Reply.map _) (retold_settle p s _)
  | pause => exact congrArg (Reply.mk · _) (retold_pause p s)
  | resume => exact congrArg (Reply.mk · _) (retold_resume p s)
  | togglePause => exact congrArg (Reply.mk · _) (retold_togglePause p s)
  | halt => exact congrArg (Reply.mk · _) (retold_halt p s)
  | pressKey key => exact congrArg (Reply.map _) (retold_setKey p s key true)
  | releaseKey key => exact congrArg (Reply.map _) (retold_setKey p s key false)
  | setKeys keys => exact congrArg (Reply.map _) (retold_setKeys p s keys)
  | execute i => exact congrArg (Reply.map _) (retold_execute p s i)
  | read address count => exact congrArg (Reply.map _) (retold_read p s address count)
  | write | push | pop => exact congrArg (Reply.map _) (retold_settle p s _)
  | tick | clearScreen | setFlag => rfl

end Session

/-! ## The journal alone -/

/-- The session with a journal that keeps nothing. -/
def Session.unlogged (s : Session) : Session :=
  { s with journal := .start none }

/-- The same answer, with the session afterwards unlogged. -/
def Reply.unlogged {α : Type} (r : Reply α) : Reply α :=
  ⟨r.session.unlogged, r.result⟩

namespace Session

/-- A hook without a past goes on as itself. -/
theorem ahead_empty (hook : Option Hook) : Past.ahead ⟨hook, #[]⟩ = hook := by
  unfold Past.ahead
  rw [funext Hook.after_empty, Option.map_id']

/-- Behind its own hook and no words, a session has lost its journal only. -/
theorem retold_own {s : Session} {hook : Option Hook} (h : s.setup.hook = hook) :
    s.retold ⟨hook, #[]⟩ = s.unlogged := by
  subst h
  unfold retold unlogged
  rw [Array.empty_append]

theorem unlogged_perform (patience : Nat) (s : Session) (c : Command) :
    s.unlogged.perform patience c = (s.perform patience c).unlogged := by
  rw [← retold_own rfl, retold_perform (ahead_empty _).symm]
  exact congrArg (Reply.mk · _) (retold_own (congrArg Setup.hook (setup_perform patience s c)))

theorem unlogged_runFrame (s : Session) : s.unlogged.runFrame = s.runFrame.unlogged := by
  rw [← retold_own rfl, retold_runFrame (ahead_empty _).symm]
  exact congrArg (Reply.mk · _) (retold_own (congrArg Setup.hook (setup_perform 0 s .runFrame)))

theorem unlogged_runFrames (s : Session) (n : Nat) :
    s.unlogged.runFrames n = (s.runFrames n).unlogged := by
  induction n generalizing s with
  | zero => rfl
  | succ n ih =>
    rw [runFrames, runFrames, unlogged_runFrame]
    rcases s.runFrame with ⟨t, result⟩
    cases result with
    | ok k => exact ih t
    | error e => rfl

end Session

end Chip8
