/-
# Chip8.Proofs.Session.KeyWait — the wait for a key, over every interleaving of events and cycles.

A key wait is an instruction that is executed again and again.  Its state between two rounds lies in
two fields of the machine, and the host may do anything to the keys, the timer and the run state in
the meantime.  What becomes of a wait depends only on the keypads that its rounds have seen:
`Wait.candidate` is the lowest key of the first keypad with a key down, and `Wait.isOver` says that a
later keypad had this key up.

Two invariants carry the result.  A machine that waits stands at the instruction that waits
(`Machine.AtWait`), in every session that is driven by whole cycles.  And as long as the wait is not
over, the machine is the one in which the wait began, up to the keys, the timer, the run state, and
the candidate that the keypads seen so far give (`Machine.Waits`).
-/
import Chip8.Proofs.Machine.Faults
import Chip8.Proofs.Machine.Writes
import Chip8.Proofs.Session.InRange

namespace Chip8

/-! ## What the rounds have seen -/

namespace Wait

/-- The candidate after rounds that saw the given keypads: the lowest key of the first keypad on which
a key is down. -/
def candidate (seen : List Keypad) : Option Key :=
  seen.findSome? Keypad.lowest?

/-- The wait is over: a round has seen the candidate up, later than the round that chose it. -/
def isOver : List Keypad → Bool
  | [] => false
  | p :: rest =>
    match p.lowest? with
    | none => isOver rest
    | some k => rest.any fun q => !q.isDown k

theorem candidate_append (seen more : List Keypad) :
    candidate (seen ++ more) = (candidate seen).or (candidate more) :=
  List.findSome?_append

theorem candidate_singleton (p : Keypad) : candidate [p] = p.lowest? := by
  unfold candidate
  rw [List.findSome?_cons]
  cases p.lowest? <;> rfl

/-- The candidate comes from the first keypad with a key down, and no lower key is down there. -/
theorem candidate_eq_some_iff {seen : List Keypad} {k : Key} :
    candidate seen = some k ↔
      ∃ before p after, seen = before ++ p :: after ∧ (∀ q ∈ before, ∀ j, q.isDown j = false) ∧
        p.isDown k = true ∧ ∀ j, j < k → p.isDown j = false := by
  unfold candidate
  rw [List.findSome?_eq_some_iff]
  simp only [Keypad.lowest?_eq_some_iff, Keypad.lowest?_eq_none_iff]
  constructor
  · rintro ⟨before, p, after, hseen, hp, hbefore⟩
    exact ⟨before, p, after, hseen, hbefore, hp⟩
  · rintro ⟨before, p, after, hseen, hbefore, hp⟩
    exact ⟨before, p, after, hseen, hp, hbefore⟩

/-- A wait that is over stays over. -/
theorem isOver_append {seen : List Keypad} (h : isOver seen = true) (more : List Keypad) :
    isOver (seen ++ more) = true := by
  induction seen with
  | nil => cases h
  | cons p rest ih =>
    rw [List.cons_append]
    unfold isOver at h ⊢
    cases hp : p.lowest? with
    | none =>
      rw [hp] at h
      exact ih h
    | some k =>
      rw [hp] at h
      show (rest ++ more).any _ = true
      rw [List.any_append, show rest.any _ = true from h, Bool.true_or]

theorem isOver_eq_false_of_append {seen more : List Keypad}
    (h : isOver (seen ++ more) = false) : isOver seen = false := by
  apply Bool.eq_false_iff.mpr
  intro hseen
  rw [isOver_append hseen] at h
  cases h

/-- The round that ends a wait is the first one to see the candidate up. -/
theorem isOver_append_singleton {seen : List Keypad} (h : isOver seen = false) (q : Keypad) :
    isOver (seen ++ [q]) = true ↔ ∃ k, candidate seen = some k ∧ q.isDown k = false := by
  induction seen with
  | nil =>
    have hq : isOver [q] = false := by
      unfold isOver
      cases q.lowest? <;> rfl
    constructor
    · intro hover
      rw [List.nil_append, hq] at hover
      cases hover
    · rintro ⟨k, hk, -⟩
      cases hk
  | cons p rest ih =>
    rw [List.cons_append]
    unfold isOver at h ⊢
    unfold candidate
    rw [List.findSome?_cons]
    cases hp : p.lowest? with
    | none =>
      rw [hp] at h
      exact ih h
    | some k =>
      rw [hp] at h
      -- `p` chose `k`, and every keypad since has had it down: only `q` is left to ask
      have hrest : rest.any (fun q => !q.isDown k) = false := h
      simp only [List.any_append, hrest, List.any_cons, List.any_nil, Bool.or_false, Bool.false_or,
        Option.some.injEq, exists_eq_left', Bool.not_eq_true']

end Wait

namespace Machine

variable {m : Machine}

/-! ## One round -/

/-- The program counter stands at an instruction `FX0A`. -/
structure AtWait (m : Machine) : Prop where
  inside : 0 ≤ m.pc ∧ m.pc + 2 ≤ 4096
  family : m.current.family = 0xF
  byte : m.current.byte = 0x0A

/-- What one round of a wait into a register makes of a machine, by the candidate of the rounds before.
Without a candidate it looks for one, with one that is down it does nothing at all, and with one that
is up it ends the wait. -/
def waitRound (m : Machine) (r : Register) : Option Key → Machine
  | none => { m with awaitingKey := true, pendingKey := m.candidate? }
  | some k =>
    if m.keypad.isDown k then m
    else
      { m with
        registers := (m.setRegister r (k.val : Int)).registers
        pc := m.pc + 2
        awaitingKey := false
        pendingKey := none }

theorem waitRound_of_down (m : Machine) (r : Register) {k : Key} (h : m.keypad.isDown k = true) :
    m.waitRound r (some k) = m :=
  if_pos h

theorem waitRound_of_up (m : Machine) (r : Register) {k : Key} (h : ¬ m.keypad.isDown k = true) :
    m.waitRound r (some k) =
      { m with
        registers := (m.setRegister r (k.val : Int)).registers
        pc := m.pc + 2
        awaitingKey := false
        pendingKey := none } :=
  if_neg h

/-- A round ends the wait exactly if it sees a candidate up. -/
theorem awaitingKey_waitRound (m : Machine) (haw : m.awaitingKey = true) (r : Register)
    (candidate : Option Key) :
    (m.waitRound r candidate).awaitingKey = false ↔
      ∃ k, candidate = some k ∧ m.keypad.isDown k = false := by
  cases candidate with
  | none =>
    constructor
    · intro h
      cases h
    · rintro ⟨k, hk, -⟩
      cases hk
  | some k =>
    by_cases hdown : m.keypad.isDown k = true
    · rw [m.waitRound_of_down r hdown, haw]
      constructor
      · intro h
        cases h
      · rintro ⟨j, hj, hup⟩
        cases hj
        rw [hdown] at hup
        cases hup
    · rw [m.waitRound_of_up r hdown]
      exact ⟨fun _ => ⟨k, rfl, Bool.eq_false_iff.mpr hdown⟩, fun _ => rfl⟩

namespace AtWait

theorem op (h : m.AtWait) : m.current.op = .awaitKey :=
  Instruction.op_of_fits rfl ⟨h.family, h.byte⟩

theorem fetch (h : m.AtWait) : m.fetch = .ok (m.current, { m with pc := m.pc + 2 }) :=
  (fetch_eq_ok_iff h.inside.1).mpr ⟨h.inside.2, rfl, rfl⟩

/-- Going back takes the fetched machine to where it was. -/
theorem back (h : m.AtWait) : (m.pc + 2 + -2) % 65536 = m.pc := by
  have hinside := h.inside
  omega

theorem apply_of_no_candidate (h : m.AtWait) (hc : m.awaitingKey = true → m.pendingKey = none)
    (variant : Variant) (byte : UInt8) :
    { m with pc := m.pc + 2 }.apply variant byte m.current =
      .ok (m.waitRound m.current.x none) := by
  have hround := awaitKey_of_no_candidate (m := { m with pc := m.pc + 2 }) m.current.x hc
  unfold apply
  rw [h.op]
  show awaitKey _ m.current.x = _
  rw [hround]
  simp only [advance, h.back, waitRound, candidate?]

theorem apply_of_candidate (h : m.AtWait) {k : Key} (haw : m.awaitingKey = true)
    (hk : m.pendingKey = some (k.val : Int)) (variant : Variant) (byte : UInt8) :
    { m with pc := m.pc + 2 }.apply variant byte m.current =
      .ok (m.waitRound m.current.x (some k)) := by
  have hround := awaitKey_of_candidate (m := { m with pc := m.pc + 2 }) m.current.x haw hk
  unfold apply
  rw [h.op]
  show awaitKey _ m.current.x = _
  rw [hround]
  by_cases hdown : m.keypad.isDown k = true
  · rw [if_pos hdown, m.waitRound_of_down _ hdown]
    simp only [advance, h.back]
  · rw [if_neg hdown, m.waitRound_of_up _ hdown]
    rfl

end AtWait

/-! ## Machines that wait -/

/-- If the machine waits, it stands at the instruction that waits. -/
def WaitsInPlace (m : Machine) : Prop :=
  m.awaitingKey = true → m.AtWait

/-- What the host does between cycles leaves a waiting machine in its place. -/
theorem WaitsInPlace.handled (h : m.WaitsInPlace) {n : Machine} (hn : m.Handled n) :
    n.WaitsInPlace := by
  cases hn with
  | same => exact h
  | ticked =>
    unfold tick
    split
    · exact fun haw => { h haw with }
    · exact h
  | runState r => exact fun haw => { h haw with }
  | keypad p => exact fun haw => { h haw with }

theorem waitsInPlace_boot {image : List UInt8} (h : boot? image = some m) : m.WaitsInPlace := by
  unfold boot? at h
  split at h
  · cases h
  · cases h
    exact nofun

/-- A round of a wait leaves the machine in its place, or it ends the wait. -/
theorem AtWait.waitsInPlace_waitRound (h : m.AtWait) (r : Register) (candidate : Option Key) :
    (m.waitRound r candidate).WaitsInPlace := by
  cases candidate with
  | none => exact fun _ => { h with }
  | some k =>
    by_cases hdown : m.keypad.isDown k = true
    · rw [m.waitRound_of_down r hdown]
      exact fun _ => h
    · rw [m.waitRound_of_up r hdown]
      exact nofun

end Machine

namespace Session

/-- A cycle at a key wait is one round of it. -/
theorem step_of_atWait {s : Session} (hr : s.machine.runState = .running)
    (h : s.machine.AtWait) {candidate : Option Key}
    (hc : candidate = none ∧ (s.machine.awaitingKey = true → s.machine.pendingKey = none) ∨
      ∃ k : Key, candidate = some k ∧ s.machine.awaitingKey = true ∧
        s.machine.pendingKey = some (k.val : Int)) :
    s.step.result = .ok s.machine.current ∧
      s.step.session.machine = s.machine.waitRound s.machine.current.x candidate := by
  have hknown : s.machine.current.op ≠ .unknown := by
    rw [h.op]
    decide
  have hx : { s.machine with pc := s.machine.pc + 2 }.apply s.setup.variant
      (s.source.drawFor s.machine.current).1 s.machine.current =
        .ok (s.machine.waitRound s.machine.current.x candidate) := by
    rcases hc with ⟨rfl, hp⟩ | ⟨k, rfl, haw, hp⟩
    · exact h.apply_of_no_candidate hp _ _
    · exact h.apply_of_candidate haw hp _ _
  obtain ⟨hresult, journal, hs⟩ := (step_ends hr).of_apply h.fetch hknown hx
  refine ⟨hresult, ?_⟩
  rw [hs]
  rfl

/-- A cycle that does not begin at a key wait leaves a machine not waiting that was not. -/
theorem StepEnds.awaitingKey_eq {s t : Session} {result : Except SessionError Instruction}
    (h : s.machine.InRange) (hw : ¬ s.machine.AtWait) (ht : s.StepEnds t result) :
    t.machine.awaitingKey = s.machine.awaitingKey := by
  have hfetched : ∀ {i m}, s.machine.fetch = .ok (i, m) →
      m.awaitingKey = s.machine.awaitingKey := by
    intro i m hf
    obtain ⟨-, -, rfl⟩ := (Machine.fetch_eq_ok_iff h.pc.1).mp hf
    rfl
  cases ht with
  | unfetched journal hf => rfl
  | hookFaulted journal hf hi hh | brokenOff journal hf hi hh | passed journal hf hi hh =>
    have hm := hfetched hf
    exact hm
  | faulted journal hf hi hx | misfit journal hf hi hx =>
    have hm := hfetched hf
    exact hm
  | executed journal hf hi hx =>
    obtain ⟨hend, rfl, -⟩ := (Machine.fetch_eq_ok_iff h.pc.1).mp hf
    have hop : s.machine.current.op ≠ .awaitKey := by
      intro hop
      obtain ⟨hfamily, hbyte⟩ := (Instruction.op_eq_iff rfl).mp hop
      exact hw ⟨⟨h.pc.1, hend⟩, hfamily, hbyte⟩
    exact (Machine.awaitingKey_of_apply hop hx).trans (hfetched hf)

/-- A cycle leaves a waiting machine in its place. -/
theorem waitsInPlace_step {s : Session} (h : s.machine.InRange) (hw : s.machine.WaitsInPlace) :
    s.step.session.machine.WaitsInPlace := by
  by_cases hr : s.machine.runState = .running
  · by_cases hat : s.machine.AtWait
    · rcases h.wait_cases with hc | ⟨haw, k, hk⟩
      · rw [(step_of_atWait hr hat (Or.inl ⟨rfl, hc⟩)).2]
        exact hat.waitsInPlace_waitRound _ _
      · rw [(step_of_atWait hr hat (Or.inr ⟨k, rfl, haw, hk⟩)).2]
        exact hat.waitsInPlace_waitRound _ _
    · -- elsewhere a cycle cannot begin a wait, and by assumption none is in progress
      intro haw
      rw [(step_ends hr).awaitingKey_eq h hat] at haw
      exact (hat (hw haw)).elim
  · rw [step_of_not_running hr]
    exact hw

/-- However a single call but a fetch outside any cycle ends, a waiting machine stays in its place. -/
theorem CallEnds.waitsInPlace {s t : Session} {c : Command} (hc : c.IsDriving)
    (h : s.machine.InRange) (hw : s.machine.WaitsInPlace) (ht : s.CallEnds c t) :
    t.machine.WaitsInPlace := by
  cases ht with
  | handled journal hm => exact hw.handled hm
  | booted journal _ hm => exact Machine.waitsInPlace_boot hm
  | fetched hfetch _ =>
    subst hfetch
    exact hc.elim
  | stepped _ => exact waitsInPlace_step h hw

/-- Driven by whole cycles, a machine that waits stands at the instruction that waits. -/
theorem ReachableBy.waitsInPlace {s : Session} (h : s.ReachableBy Command.IsDriving) :
    s.machine.InRange ∧ s.machine.WaitsInPlace := by
  refine ReachableBy.induct (P := fun t => t.machine.InRange ∧ t.machine.WaitsInPlace)
    trivial trivial ?_ ?_ h
  · intro setup threshold source
    exact ⟨Machine.inRange_boot Machine.boot?_nil, Machine.waitsInPlace_boot Machine.boot?_nil⟩
  · intro t patience c hc hsingle ⟨ht, hw⟩
    have hends := call_ends patience t hc.isHostCall hsingle
    exact ⟨hends.inRange ht, hends.waitsInPlace hc ht hw⟩

end Session

/-! ## One wait from its first round on -/

/-- A machine in the midst of the wait that began on the machine `start`, after rounds that saw the
given keypads: the keys, the timer and the run state are the host's, and all else is as it was. -/
structure Machine.Waits (start : Machine) (seen : List Keypad) (m : Machine) : Prop where
  memory : m.memory = start.memory
  registers : m.registers = start.registers
  index : m.index = start.index
  pc : m.pc = start.pc
  stack : m.stack = start.stack
  screen : m.screen = start.screen
  awaitingKey : m.awaitingKey = true
  pendingKey : m.pendingKey = (Wait.candidate seen).map fun k => (k.val : Int)

namespace Machine.Waits

variable {start m n : Machine} {seen : List Keypad}

theorem current_eq (h : start.Waits seen m) : m.current = start.current := by
  unfold current instructionAt
  rw [h.memory, h.pc]

theorem atWait (h : start.Waits seen m) (hstart : start.AtWait) : m.AtWait where
  inside := by
    rw [h.pc]
    exact hstart.inside
  family := by
    rw [h.current_eq]
    exact hstart.family
  byte := by
    rw [h.current_eq]
    exact hstart.byte

theorem handled (h : start.Waits seen m) (hn : m.Handled n) : start.Waits seen n := by
  cases hn with
  | same => exact h
  | ticked =>
    unfold tick
    split
    · exact { h with }
    · exact h
  | runState r => exact { h with }
  | keypad p => exact { h with }

/-- A round extends the wait by the keypad that it saw, unless it ends the wait. -/
theorem waitRound (h : start.Waits seen m) (hover : Wait.isOver (seen ++ [m.keypad]) = false)
    (r : Register) :
    start.Waits (seen ++ [m.keypad]) (m.waitRound r (Wait.candidate seen)) := by
  have hcandidate := Wait.candidate_append seen [m.keypad]
  rw [Wait.candidate_singleton] at hcandidate
  cases hk : Wait.candidate seen with
  | none =>
    rw [hk, Option.none_or] at hcandidate
    refine { h with awaitingKey := rfl, pendingKey := ?_ }
    rw [hcandidate]
    rfl
  | some k =>
    rw [hk, Option.some_or] at hcandidate
    have hseen := Wait.isOver_eq_false_of_append hover
    have hdown : m.keypad.isDown k = true := by
      rw [← Bool.not_eq_false]
      intro hup
      rw [(Wait.isOver_append_singleton hseen m.keypad).mpr ⟨k, hk, hup⟩] at hover
      cases hover
    rw [m.waitRound_of_down r hdown]
    refine { h with pendingKey := ?_ }
    rw [hcandidate, ← hk]
    exact h.pendingKey

end Machine.Waits

namespace Session

/-- The keypad that a call lets a round see: a cycle of a running machine sees the keypad as it is. -/
def keypadSeen (s : Session) (c : Command) : List Keypad :=
  if c = .step ∧ s.machine.runState = .running then [s.machine.keypad] else []

/-- The keypads that the cycles of a list of calls see. -/
def keypadsSeen (patience : Nat) (s : Session) : List Command → List Keypad
  | [] => []
  | c :: cs => s.keypadSeen c ++ keypadsSeen patience (s.perform patience c).session cs

/-- A cycle in the midst of a wait executes the instruction of the wait; it is the round that the
keypads seen so far make it. -/
theorem step_of_waits {start : Machine} {seen : List Keypad} {s : Session}
    (hstart : start.AtWait) (h : start.Waits seen s.machine)
    (hr : s.machine.runState = .running) :
    s.step.result = .ok start.current ∧
      s.step.session.machine = s.machine.waitRound start.current.x (Wait.candidate seen) := by
  rw [← h.current_eq]
  apply step_of_atWait hr (h.atWait hstart)
  have hp := h.pendingKey
  cases hk : Wait.candidate seen with
  | none =>
    rw [hk] at hp
    exact Or.inl ⟨rfl, fun _ => hp⟩
  | some k =>
    rw [hk] at hp
    exact Or.inr ⟨k, rfl, h.awaitingKey, hp⟩

/-- An event in the midst of a wait leaves it in progress, unless it is a round that ends it. -/
theorem waits_perform {start : Machine} {seen : List Keypad} {s : Session}
    (hstart : start.AtWait) (h : start.Waits seen s.machine) (patience : Nat) {c : Command}
    (hc : c.IsEvent) (hover : Wait.isOver (seen ++ s.keypadSeen c) = false) :
    start.Waits (seen ++ s.keypadSeen c) (s.perform patience c).session.machine := by
  unfold keypadSeen at hover ⊢
  obtain ⟨hdriving, hsingle, hboots⟩ := hc
  by_cases hstep : c = .step
  · subst hstep
    show start.Waits _ s.step.session.machine
    by_cases hr : s.machine.runState = .running
    · rw [if_pos ⟨rfl, hr⟩] at hover ⊢
      rw [(step_of_waits hstart h hr).2]
      exact h.waitRound hover _
    · rw [if_neg fun hboth => hr hboth.2, List.append_nil, step_of_not_running hr]
      exact h
  · rw [if_neg fun hboth => hstep hboth.1, List.append_nil]
    have hends := call_ends patience s hdriving.isHostCall hsingle
    generalize (s.perform patience c).session = t at hends ⊢
    cases hends with
    | handled journal hm => exact h.handled hm
    | booted journal hb _ => exact (hboots hb).elim
    | fetched hfetch _ =>
      subst hfetch
      exact hdriving.elim
    | stepped hc => exact (hstep hc).elim

/-- Any number of events in the midst of a wait leave it in progress, until a round ends it. -/
theorem waits_performAll {start : Machine} (hstart : start.AtWait) (patience : Nat)
    {es : List Command} (hes : ∀ c ∈ es, c.IsEvent) {seen : List Keypad} {s : Session}
    (h : start.Waits seen s.machine)
    (hover : Wait.isOver (seen ++ s.keypadsSeen patience es) = false) :
    start.Waits (seen ++ s.keypadsSeen patience es) (s.performAll patience es).1.machine := by
  induction es generalizing seen s with
  | nil =>
    unfold keypadsSeen at hover ⊢
    rw [List.append_nil]
    exact h
  | cons c cs ih =>
    -- what the first call lets be seen joins what has been seen before
    unfold keypadsSeen at hover ⊢
    rw [← List.append_assoc] at hover ⊢
    rw [performAll_cons]
    have hfirst := Wait.isOver_eq_false_of_append hover
    have hc := waits_perform hstart h patience (hes c List.mem_cons_self) hfirst
    exact ih (fun d hd => hes d (List.mem_cons_of_mem c hd)) hc hover

/-! ## The protocol -/

/-- **The protocol of the key wait.**  In a session driven by whole cycles, a machine that waits stands
at an instruction `FX0A`.

When such an instruction is executed on a machine that does not wait, a wait begins.  Let any events
follow, cycles among them, and let `seen` be the keypads of all its rounds.  As long as the wait is not
over, the machine is the one that the wait began on, with the candidate that `seen` gives; the next
cycle executes the same instruction, is the round that `Machine.waitRound` describes, and ends the wait
exactly if it is the first to see the candidate up.

Driving calls among which no load succeeds come to such events: a run is cycles, and a frame is cycles
and a tick. -/
theorem keyWait_protocol {s : Session} (h : s.ReachableBy Command.IsDriving) (patience : Nat) :
    (s.machine.awaitingKey = true → s.machine.AtWait) ∧
      (s.machine.runState = .running → s.machine.awaitingKey = false → s.machine.AtWait →
        s.step.result = .ok s.machine.current ∧
        s.step.session.machine =
          { s.machine with awaitingKey := true, pendingKey := s.machine.candidate? } ∧
        ∀ es : List Command, (∀ e ∈ es, e.IsEvent) →
          let seen := s.machine.keypad :: s.step.session.keypadsSeen patience es
          let t := (s.step.session.performAll patience es).1
          Wait.isOver seen = false →
            s.machine.Waits seen t.machine ∧
            (t.machine.runState = .running →
              t.step.result = .ok s.machine.current ∧
              t.step.session.machine =
                t.machine.waitRound s.machine.current.x (Wait.candidate seen) ∧
              (t.step.session.machine.awaitingKey = false ↔
                Wait.isOver (seen ++ [t.machine.keypad]) = true))) ∧
      ∀ (t : Session) (cs : List Command), (∀ c ∈ cs, c.IsDriving ∧ ¬ c.Boots) →
        ∃ es : List Command, (∀ e ∈ es, e.IsEvent ∧ (e ∈ cs ∨ e = .step ∨ e = .tick)) ∧
          (t.performAll patience cs).1 = (t.performAll patience es).1 := by
  refine ⟨h.waitsInPlace.2, ?_, fun t cs hcs => exists_events patience t hcs⟩
  intro hr haw hat
  have hfresh : s.machine.awaitingKey = true → s.machine.pendingKey = none := by
    intro hwaits
    rw [haw] at hwaits
    cases hwaits
  obtain ⟨hresult, hmachine⟩ := step_of_atWait hr hat (Or.inl ⟨rfl, hfresh⟩)
  refine ⟨hresult, hmachine, ?_⟩
  intro es hes seen t hover
  -- the round that begins the wait is the first to see a keypad
  have hbegun : s.machine.Waits [s.machine.keypad] s.step.session.machine := by
    rw [hmachine]
    refine ⟨rfl, rfl, rfl, rfl, rfl, rfl, rfl, ?_⟩
    rw [Wait.candidate_singleton]
    rfl
  have hwaits : s.machine.Waits seen t.machine := waits_performAll hat patience hes hbegun hover
  refine ⟨hwaits, ?_⟩
  intro hrt
  obtain ⟨htresult, htmachine⟩ := step_of_waits hat hwaits hrt
  refine ⟨htresult, htmachine, ?_⟩
  rw [htmachine, Wait.isOver_append_singleton hover]
  exact t.machine.awaitingKey_waitRound hwaits.awaitingKey _ _

/-- A wait for `V3` that sees key 5 go down, then key 2, and then key 5 up: it ends with key 5. -/
theorem keyWait_protocol_two_keys :
    ∃ s : Session, s.ReachableBy Command.IsDriving ∧
      let t := (s.step.session.performAll 0 [.pressKey 5, .step, .pressKey 2, .releaseKey 5]).1
      t.machine.awaitingKey = true ∧ t.machine.pendingKey = some 5 ∧
        t.step.session.machine.awaitingKey = false ∧
        t.step.session.machine.register 3 = 5 ∧ t.step.session.machine.pc = 0x202 := by
  have hr : ((Session.start ⟨.standard, .standard, false, none⟩ none (.ofList [])).perform 0
      (.load [0xF3, 0x0A])).session.ReachableBy Command.IsDriving :=
    (ReachableBy.start _ _ _).perform 0 trivial
  obtain ⟨-, hbegins, -⟩ := keyWait_protocol hr 0
  obtain ⟨-, -, hgoes⟩ := hbegins (by decide +kernel) (by decide +kernel)
    ⟨by decide +kernel, by decide +kernel, by decide +kernel⟩
  have hevent : ∀ e ∈ [Command.pressKey 5, .step, .pressKey 2, .releaseKey 5], e.IsEvent := by
    simp only [List.forall_mem_cons]
    exact ⟨⟨trivial, trivial, id⟩, ⟨trivial, trivial, id⟩, ⟨trivial, trivial, id⟩,
      ⟨trivial, trivial, id⟩, nofun⟩
  obtain ⟨hwaits, hround⟩ := hgoes _ hevent (by decide +kernel)
  obtain ⟨-, hmachine, hends⟩ := hround (by decide +kernel)
  refine ⟨_, hr, hwaits.awaitingKey, ?_, hends.mpr (by decide +kernel), ?_, ?_⟩
  · rw [hwaits.pendingKey]
    decide +kernel
  · rw [hmachine]
    decide +kernel
  · rw [hmachine]
    decide +kernel

end Session

end Chip8
