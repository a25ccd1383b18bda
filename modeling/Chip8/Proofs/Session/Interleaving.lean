/-
# Chip8.Proofs.Session.Interleaving — host events between cycles that do not look at them.

A tick moves the timer, and three calls write the keys.  The timer is read and written by two rows of the
opcode table, the keys are read by three (`timerRows`, `keyRows`); every other instruction does the same
to a machine with another timer or other keys (`Twin.apply_machine`).  So behind an event the session
goes on as the twin of what it would be without it, and as long as no cycle fetches one of those rows it
makes no difference behind which cycle the event happens (`events_commute`).
-/
import Chip8.Proofs.Machine.Writes
import Chip8.Proofs.Session.RunState
import Chip8.Proofs.Session.Twin

namespace Chip8

namespace Instruction

/-- The instructions that read or write the timer: `FX07` and `FX15`. -/
def timerRows : List Row :=
  [.byte 0xF 0x07, .byte 0xF 0x15]

/-- The instructions that read the keys: `EX9E`, `EXA1` and `FX0A`. -/
def keyRows : List Row :=
  [.byte 0xE 0x9E, .byte 0xE 0xA1, .byte 0xF 0x0A]

end Instruction

namespace Command

/-- The calls that write the keys. -/
def WritesKeys : Command → Prop
  | pressKey _ | releaseKey _ | setKeys _ => True
  | _ => False

/-- The calls of `n` cycles, with an event behind the first `k` of them. -/
def among (e : Command) (n k : Nat) : List Command :=
  List.replicate k .step ++ e :: List.replicate (n - k) .step

end Command

/-! ## Moves on a machine with other keys and another timer -/

namespace Twin

section Moves

variable (w : Twin) (m : Machine)

@[simp]
theorem write_machine (address : Int) (data : List UInt8) :
    (w.machine m).write address data = mapStates w.machine (m.write address data) := by
  unfold Machine.write
  cases Memory.check address data.length <;> rfl

@[simp]
theorem skipIf_machine (condition : Bool) :
    (w.machine m).skipIf condition = w.machine (m.skipIf condition) := by
  unfold Machine.skipIf
  split <;> rfl

@[simp]
theorem returnFrom_machine : (w.machine m).returnFrom = mapStates w.machine m.returnFrom := by
  unfold Machine.returnFrom Machine.pop
  simp only [machine_stack]
  cases m.stack <;> rfl

@[simp]
theorem callTo_machine (a : Int) : (w.machine m).callTo a = mapStates w.machine (m.callTo a) := by
  unfold Machine.callTo Machine.push
  by_cases h : m.stack.length ≥ stackCapacity
  · simp only [machine_stack, h, reduceIte]
    rfl
  · simp only [machine_stack, h, reduceIte]
    rfl

@[simp]
theorem setBitwise_machine (variant : Variant) (r : Register) (v : Int) :
    Machine.setBitwise variant (w.machine m) r v = w.machine (Machine.setBitwise variant m r v) := by
  unfold Machine.setBitwise
  split <;> rfl

@[simp]
theorem passBlock_machine (variant : Variant) (count : Nat) :
    (w.machine m).passBlock variant count = w.machine (m.passBlock variant count) := by
  unfold Machine.passBlock
  split <;> rfl

@[simp]
theorem store_machine (values : List Int) :
    (w.machine m).store values = mapStates w.machine (m.store values) := by
  unfold Machine.store
  simp only [machine_index, write_machine]
  cases Byte.ofInts? values with
  | none => rfl
  | some bytes =>
    simp only
    cases m.write m.index bytes <;> rfl

@[simp]
theorem storeThrough_machine (variant : Variant) (r : Register) :
    (w.machine m).storeThrough variant r = mapStates w.machine (m.storeThrough variant r) := by
  unfold Machine.storeThrough
  simp only [machine_firstRegisters, store_machine]
  cases m.store (m.firstRegisters (r.val + 1)) with
  | error failure => rfl
  | ok n => exact congrArg Except.ok (w.passBlock_machine n variant _)

@[simp]
theorem loadThrough_machine (variant : Variant) (r : Register) :
    (w.machine m).loadThrough variant r = mapStates w.machine (m.loadThrough variant r) := by
  unfold Machine.loadThrough
  simp only [machine_index, machine_read]
  cases m.read m.index (r.val + 1 : Nat) with
  | error cause => rfl
  | ok bytes => exact congrArg Except.ok (w.passBlock_machine (m.setFirstRegisters _) variant _)

@[simp]
theorem drawSprite_machine (x y : Int) (height : Nat) :
    (w.machine m).drawSprite x y height = mapStates w.machine (m.drawSprite x y height) := by
  unfold Machine.drawSprite
  simp only [machine_index, machine_read]
  cases m.read m.index height <;> rfl

/-- A round of a key wait looks at the keys, but not at the timer. -/
theorem awaitKey_machine (h : ∀ p, w.keypad p = p) (r : Register) :
    (w.machine m).awaitKey r = mapStates w.machine (m.awaitKey r) := by
  have hbegin : (w.machine m).beginWait = w.machine m.beginWait := by
    unfold Machine.beginWait
    rw [apply_ite w.machine]
    rfl
  have hkeypad (n : Machine) : (w.machine n).keypad = n.keypad := h n.keypad
  unfold Machine.awaitKey
  rw [hbegin]
  generalize m.beginWait = begun
  simp only [Machine.candidate?, hkeypad, machine_pendingKey]
  cases begun.pendingKey with
  | none => rfl
  | some p =>
    simp only
    cases Position.resolve 16 p with
    | error e => rfl
    | ok k =>
      simp only
      split <;> rfl

end Moves

/-- States are seen through `f` under any name of the reason. -/
theorem mapError_mapStates {σ τ ε δ : Type} (x : Except (Stopped σ ε) σ) (f : σ → τ) (g : ε → δ) :
    (mapStates f x).mapError (.map g) = mapStates f (x.mapError (.map g)) := by
  cases x <;> rfl

/-- An instruction does the same to a machine with other keys and another timer, unless it looks at
something that is different. -/
theorem apply_machine (w : Twin) (variant : Variant) (byte : UInt8) {i : Instruction} (m : Machine)
    (hkeys : i.FitsOneOf Instruction.keyRows → ∀ p, w.keypad p = p)
    (htimer : i.FitsOneOf Instruction.timerRows → ∀ d, w.timer d = d) :
    (w.machine m).apply variant byte i = mapStates w.machine (m.apply variant byte i) := by
  unfold Machine.apply
  -- the row that the word fits where keys or timer are read
  have hrows {op : Op} {row : Row} {rows : List Row} (hop : i.op = op) (hrow : op.row? = some row)
      (hmem : row ∈ rows) : i.FitsOneOf rows := Instruction.fitsOneOf_of_op hop hrow hmem
  cases hop : i.op with
  | skipPressed | skipReleased =>
    have hkeypad : (w.machine m).keypad = m.keypad := hkeys (hrows hop rfl (by decide)) m.keypad
    show Except.ok ((w.machine m).skipIf _) = _
    rw [skipIf_machine, hkeypad]
    rfl
  | readTimer =>
    have hread : (w.machine m).delayTimer = m.delayTimer :=
      htimer (hrows hop rfl (by decide)) m.delayTimer
    show Except.ok ((w.machine m).setRegister i.x (w.machine m).delayTimer) = _
    rw [hread]
    rfl
  | setTimer =>
    have hset : w.timer (m.register i.x) = m.register i.x :=
      htimer (hrows hop rfl (by decide)) (m.register i.x)
    show Except.ok _ = Except.ok { m with
      keypad := w.keypad m.keypad, delayTimer := w.timer (m.register i.x) }
    rw [hset]
    rfl
  | awaitKey => exact w.awaitKey_machine m (hkeys (hrows hop rfl (by decide))) i.x
  | ret | call | draw | loadRegs =>
    -- what can fault reports the same fault
    simp only [Op.primitive, returnFrom_machine, callTo_machine, drawSprite_machine,
      loadThrough_machine, machine_register, mapError_mapStates]
  | skipEqByte | skipNeByte | skipEqReg | skipNeReg =>
    exact congrArg Except.ok (w.skipIf_machine m _)
  | bitOr | bitAnd | bitXor => exact congrArg Except.ok (w.setBitwise_machine m variant i.x _)
  | storeDecimal => exact w.store_machine m _
  | storeRegs => exact w.storeThrough_machine m variant i.x
  | _ => rfl

/-! ## Cycles behind an event -/

section Events

variable {w : Twin} {s : Session} {patience n k : Nat} {e : Command}

/-- Cycles come to the same on both sessions, as long as the instructions that they fetch do. -/
theorem Faithful.answers_steps (hw : w.Faithful) {t : Session} (h : w.Rel s t)
    (ha : ∀ u ∈ s.cyclesAll patience (List.replicate n .step), w.Agrees u) :
    w.Rel (s.performAll patience (List.replicate n .step)).1
        (t.performAll patience (List.replicate n .step)).1 ∧
      (t.performAll patience (List.replicate n .step)).2 =
        (s.performAll patience (List.replicate n .step)).2 := by
  apply performAll_of_answers h
  rintro ⟨u, c⟩ hu v hv
  obtain rfl : c = .step := List.eq_of_mem_replicate (Session.mem_of_mem_calls hu)
  refine (hw.answers_step hv fun hr => ha u ?_).map _
  exact Session.mem_cyclesAll hu (Session.mem_cyclesOf_step hr)

/-- The session behind some cycles and an event goes on as a twin, so it makes no difference behind which
of the cycles the event happens. -/
theorem Faithful.event (hw : w.Faithful) (he : ∀ t : Session, w.Rel t (t.perform patience e).session)
    (ha : ∀ u ∈ s.cyclesAll patience (List.replicate n .step), w.Agrees u) (hk : k ≤ n) :
    w.Rel (s.performAll patience (List.replicate n .step)).1
        (s.performAll patience (e.among n k)).1 ∧
      (s.performAll patience (e.among n k)).2 =
        (s.performAll patience (List.replicate n .step)).2.take k ++
          ((s.performAll patience (List.replicate k .step)).1.perform patience e).result ::
            (s.performAll patience (List.replicate n .step)).2.drop k := by
  have hsplit : List.replicate n Command.step =
      List.replicate k Command.step ++ List.replicate (n - k) Command.step := by
    rw [List.replicate_append_replicate, Nat.add_sub_cancel' hk]
  rw [hsplit, Session.cyclesAll_append] at ha
  have hlength := Session.length_results patience s (List.replicate k .step)
  rw [List.length_replicate] at hlength
  unfold Command.among
  rw [hsplit, Session.performAll_append, Session.performAll_append, Session.results_append,
    Session.results_append, List.take_left' hlength, List.drop_left' hlength]
  -- behind the event the rest of the cycles goes on as before
  obtain ⟨hrel, hresults⟩ := hw.answers_steps (he _) fun u hu => ha u (List.mem_append_right _ hu)
  exact ⟨hrel, congrArg (_ ++ _ :: ·) hresults⟩

end Events

end Twin

/-! ## Ticks -/

/-- The snapshot without its timer. -/
def Snapshot.untimed (s : Snapshot) : Snapshot :=
  { s with delayTimer := 0 }

/-- The entry without the timers of its snapshots. -/
def TraceEntry.untimed (e : TraceEntry) : TraceEntry :=
  { e with before := e.before.untimed, after := e.after.untimed }

/-- The session without the timers that its trace shows. -/
def Session.untimed (s : Session) : Session :=
  { s with trace := s.trace.map TraceEntry.untimed }

namespace Twin

variable {s t : Session}

/-- The twin that is a tick ahead. -/
def ticked : Twin where
  setup := id
  keypad := id
  timer d := if 0 < d then d - 1 else d
  traces a b := b.map TraceEntry.untimed = a.map TraceEntry.untimed

theorem machine_ticked (m : Machine) : ticked.machine m = m.tick := by
  unfold Machine.tick
  by_cases hd : 0 < m.delayTimer
  · simp only [machine, ticked, hd, if_true]
    rfl
  · simp only [machine, ticked, hd, if_false]
    rfl

theorem faithful_ticked : ticked.Faithful where
  hook _ := rfl
  pacing _ := rfl
  fresh := rfl
  record := by
    intro s trace htrace before i error
    rw [trace_record, trace_record]
    show (if s.setup.isTracing then _ else _ : Array TraceEntry).map _ = _
    split
    · -- the new entries differ in their timers only
      rw [Array.map_push, Array.map_push]
      exact congrArg (Array.push · _) htrace
    · exact htrace

/-- The two sessions are the same but for the timers that their traces show. -/
theorem untimed_of_rel_ticked (h : ticked.Rel s t) : t.untimed = s.tick.untimed := by
  obtain ⟨trace, htrace, rfl⟩ := h
  have htrace' : trace.map TraceEntry.untimed = s.trace.map TraceEntry.untimed := htrace
  unfold Session.untimed Session.tick Session.edit
  rw [← machine_ticked, ← htrace']
  rfl

theorem rel_ticked_tick (s : Session) : ticked.Rel s s.tick := by
  refine ⟨s.trace, rfl, ?_⟩
  unfold Session.tick Session.edit
  rw [← machine_ticked]
  rfl

/-! ## Keys -/

/-- The twin whose keys a call has written. -/
def latched (c : Command) : Twin where
  setup := id
  keypad p := c.latch p
  timer := id
  traces := Eq

theorem faithful_latched (c : Command) : (latched c).Faithful where
  hook _ := rfl
  pacing _ := rfl
  fresh := rfl
  record := by
    rintro s trace rfl before i error
    rw [trace_record, trace_record]
    rfl

theorem rel_latched_iff {c : Command} :
    (latched c).Rel s t ↔ t = s.edit fun m => { m with keypad := c.latch m.keypad } := by
  constructor
  · rintro ⟨trace, rfl, rfl⟩
    rfl
  · rintro rfl
    exact ⟨s.trace, rfl, rfl⟩

end Twin

namespace Session

/-- A call that writes the keys does nothing else. -/
theorem session_of_writesKeys (patience : Nat) (s : Session) {e : Command} (he : e.WritesKeys) :
    (s.perform patience e).session = s.edit fun m => { m with keypad := e.latch m.keypad } := by
  have hc : e ≠ .tick := by
    rintro rfl
    exact he
  refine Eq.trans ?_ (s.rested_latched hc rfl)
  cases e with
  | pressKey key => exact rested_setKey key true hc rfl
  | releaseKey key => exact rested_setKey key false hc rfl
  | setKeys keys => exact rested_setKeys keys
  | _ => exact he.elim

/-- What it answers does not depend on the session. -/
theorem result_of_writesKeys (patience : Nat) (s t : Session) {e : Command} (he : e.WritesKeys) :
    (s.perform patience e).result = (t.perform patience e).result := by
  cases e with
  | pressKey key | releaseKey key =>
    show ((s.setKey key _).map _).result = ((t.setKey key _).map _).result
    unfold setKey
    cases Key.ofInt? key <;> rfl
  | setKeys keys =>
    show ((s.setKeys keys).map _).result = ((t.setKeys keys).map _).result
    unfold setKeys
    cases keysOf keys <;> rfl
  | _ => exact he.elim

/-- **Ticks and key events commute with cycles that do not look at them.**  Take any session and the
cycles that come next, and let a host call one event before, between or behind them.  If none of the
cycles fetches an instruction that looks at the timer, a tick leaves the same wherever it happens: what
the cycles and then the tick leave, but for the timers that the trace shows.  If none of them fetches an
instruction that looks at the keys, a call that writes keys leaves the same wherever it happens, with no
exception.  In both cases every cycle comes to what it comes to without the event, instruction or fault. -/
theorem events_commute (patience n : Nat) (s : Session) :
    let steps := List.replicate n Command.step
    let plain := s.performAll patience steps
    ((∀ u ∈ s.cyclesAll patience steps, ∀ i m, u.machine.fetch = .ok (i, m) →
          ¬ i.FitsOneOf Instruction.timerRows) →
        ∀ k ≤ n, let moved := s.performAll patience (Command.tick.among n k)
          moved.1.machine = plain.1.machine.tick ∧ moved.1.untimed = plain.1.tick.untimed ∧
            moved.2 = plain.2.take k ++ .ok .done :: plain.2.drop k) ∧
      (∀ e : Command, e.WritesKeys →
        (∀ u ∈ s.cyclesAll patience steps, ∀ i m, u.machine.fetch = .ok (i, m) →
          ¬ i.FitsOneOf Instruction.keyRows) →
        ∀ k ≤ n, let moved := s.performAll patience (e.among n k)
          moved.1 = (plain.1.perform patience e).session ∧
            moved.2 = plain.2.take k ++ (plain.1.perform patience e).result :: plain.2.drop k) := by
  intro steps plain
  refine ⟨?_, ?_⟩
  · intro hcycles k hk
    have hagrees : ∀ u ∈ s.cyclesAll patience (List.replicate n .step), Twin.ticked.Agrees u := by
      intro u hu i m hf
      exact Twin.ticked.apply_machine _ _ m (fun _ _ => rfl) fun h => (hcycles u hu i m hf h).elim
    obtain ⟨hrel, hanswers⟩ :=
      Twin.faithful_ticked.event (e := .tick) Twin.rel_ticked_tick hagrees hk
    have huntimed := Twin.untimed_of_rel_ticked hrel
    exact ⟨congrArg Session.machine huntimed, huntimed, hanswers⟩
  · intro e he hcycles k hk
    have hagrees : ∀ u ∈ s.cyclesAll patience (List.replicate n .step),
        (Twin.latched e).Agrees u := by
      intro u hu i m hf
      exact (Twin.latched e).apply_machine _ _ m (fun h => (hcycles u hu i m hf h).elim)
        fun _ _ => rfl
    obtain ⟨hrel, hanswers⟩ := (Twin.faithful_latched e).event (e := e)
      (fun t => Twin.rel_latched_iff.mpr (session_of_writesKeys patience t he)) hagrees hk
    refine ⟨?_, ?_⟩
    · rw [session_of_writesKeys patience _ he]
      exact Twin.rel_latched_iff.mp hrel
    · rw [hanswers, result_of_writesKeys patience _ plain.1 he]

/-- Two cycles, the second of which faults, on a machine whose timer stands at five: a tick and a key
between them leave what they leave behind them. -/
theorem events_commute_fault :
    ∃ s : Session, s.ReachableBy Command.IsHostCall ∧ s.machine.delayTimer = 5 ∧
      (s.performAll 0 [.step, .step]).1.machine.runState = .halted ∧
      (s.performAll 0 [.step, .tick, .step]).1.machine =
        (s.performAll 0 [.step, .step]).1.machine.tick ∧
      (s.performAll 0 [.step, .pressKey 3, .step]).1 =
        ((s.performAll 0 [.step, .step]).1.perform 0 (.pressKey 3)).session := by
  let s := ((Session.start ⟨.standard, .standard, true, none⟩ none (.ofList [])).performAll 0
    [.load [0x60, 0x05, 0xF0, 0x15, 0x70, 0x01, 0x00, 0xEE], .step, .step]).1
  have hreachable : s.ReachableBy Command.IsHostCall := by
    apply (ReachableBy.start _ _ _).performAll
    simp only [List.forall_mem_cons]
    exact ⟨trivial, trivial, trivial, nofun⟩
  have hfetched : ∀ u ∈ s.cyclesAll 0 (List.replicate 2 .step), ∀ p ∈ u.machine.fetch.toOption,
      ¬ p.1.FitsOneOf (Instruction.timerRows ++ Instruction.keyRows) := by
    decide +kernel
  have hblind : ∀ u ∈ s.cyclesAll 0 (List.replicate 2 .step), ∀ i m,
      u.machine.fetch = .ok (i, m) →
        ¬ i.FitsOneOf (Instruction.timerRows ++ Instruction.keyRows) := by
    intro u hu i m hf
    exact hfetched u hu (i, m) (by rw [hf]; rfl)
  obtain ⟨hticks, hkeys⟩ := events_commute 0 2 s
  obtain ⟨hticked, -, -⟩ := hticks (fun u hu i m hf ⟨row, hrow, hfits⟩ =>
    hblind u hu i m hf ⟨row, List.mem_append_left _ hrow, hfits⟩) 1 (by decide)
  obtain ⟨hlatched, -⟩ := hkeys (.pressKey 3) trivial (fun u hu i m hf ⟨row, hrow, hfits⟩ =>
    hblind u hu i m hf ⟨row, List.mem_append_right _ hrow, hfits⟩) 1 (by decide)
  exact ⟨s, hreachable, by decide +kernel, by decide +kernel, hticked, hlatched⟩

end Session

end Chip8
