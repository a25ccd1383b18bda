/-
# Chip8.Proofs.Session.Chance — where the random bytes of a session go.

A random load, `CXNN`, is the only thing that takes a byte from the source.  `Session.drawsAll` lists
the random loads that a list of calls executes, in cycles or by hand, each with the session that it
leaves.  The source of a session has handed out one byte for each of them, and the load with number `k`
has got the byte with number `k` of the stream (`draws_follow_stream`).  Loads, faults, pauses and hooks
do not come into it: a session has one stream for its whole life.

One cycle adds a draw or none (`StepEnds.follows`), and what a cycle carries over is carried over runs
and lists of calls.
-/
import Chip8.Proofs.Session.Calls

namespace Chip8

/-- An executed random load, with the session that it left. -/
structure Draw where
  /-- The instruction. -/
  instruction : Instruction
  /-- The session afterwards. -/
  after : Session

namespace Draw

/-- The random load among instructions that are executed. -/
def ofReply? (r : Reply Instruction) : Option Draw :=
  match r.result with
  | .ok i => if (Row.family 0xC).Fits i then some ⟨i, r.session⟩ else none
  | .error _ => none

/-- What the random load makes of a byte stands in its register. -/
def Takes (d : Draw) (b : UInt8) : Prop :=
  d.after.machine.register d.instruction.x = (b.toNat &&& d.instruction.byte : Nat)

end Draw

namespace Session

/-- The random load that a cycle executes, if it executes one. -/
def drawIn (s : Session) : List Draw :=
  (Draw.ofReply? s.step).toList

/-- The random loads that a call executes, in its cycles or by hand. -/
def drawsOf (patience : Nat) (s : Session) : Command → List Draw
  | .execute i => (Draw.ofReply? ((s.execute i).map fun _ => i)).toList
  | c => (s.cyclesOf patience c).flatMap drawIn

/-- The random loads that a list of calls executes. -/
def drawsAll (patience : Nat) (s : Session) (cs : List Command) : List Draw :=
  (s.calls patience cs).flatMap fun p => p.1.drawsOf patience p.2

variable {b : ByteSource} {s t : Session} {ds : List Draw}

/-! ## One draw -/

/-- The source has handed out a byte for each draw, and the draws have got them in order. -/
structure Follows (b : ByteSource) (s : Session) (ds : List Draw) : Prop where
  source : s.source = b.drop ds.length
  takes : ∀ k (h : k < ds.length), ds[k].Takes (b.stream k)

namespace Follows

theorem nil (s : Session) : Follows s.source s [] where
  source := rfl
  takes _ h := nomatch h

/-- A session with the same source. -/
theorem of_source (h : Follows b s ds) (ht : t.source = s.source) : Follows b t ds :=
  ⟨ht.trans h.source, h.takes⟩

/-- One draw more takes the next byte. -/
theorem draw (h : Follows b s ds) {d : Draw} (ht : t.source = s.source.next.2)
    (hd : d.Takes s.source.next.1) : Follows b t (ds ++ [d]) where
  source := by
    rw [ht, h.source, List.length_append, b.drop_add]
    rfl
  takes := by
    intro k hk
    rw [List.length_append, List.length_singleton] at hk
    by_cases hlt : k < ds.length
    · rw [List.getElem_append_left hlt]
      exact h.takes k hlt
    · obtain rfl : k = ds.length := by omega
      rw [List.getElem_concat_length rfl]
      rw [h.source] at hd
      exact hd

end Follows

/-- A random load that is applied to a machine leaves the masked byte in its register. -/
theorem register_of_random {variant : Variant} {byte : UInt8} {i : Instruction} {m n : Machine}
    (hop : i.op = .random) (hx : m.apply variant byte i = .ok n) :
    n.register i.x = (byte.toNat &&& i.byte : Nat) := by
  unfold Machine.apply at hx
  rw [hop] at hx
  cases hx
  rw [Machine.register_setRegister, if_pos rfl]

/-- An instruction that has been applied takes a byte if it is a random load, and leaves the source
otherwise. -/
theorem Follows.applied (h : Follows b s ds) (variant : Variant) {i : Instruction} {m : Machine}
    (hx : m.apply variant (s.source.drawFor i).1 i = .ok t.machine)
    (ht : t.source = (s.source.drawFor i).2) :
    Follows b t (ds ++ (Draw.ofReply? ⟨t, .ok i⟩).toList) := by
  unfold ByteSource.drawFor at hx ht
  by_cases hop : i.op = .random
  · have hfits : (Row.family 0xC).Fits i := (Instruction.op_eq_iff rfl).mp hop
    rw [if_pos hop] at hx ht
    simp only [Draw.ofReply?, if_pos hfits, Option.toList_some]
    exact h.draw ht (register_of_random hop hx)
  · have hfits : ¬ (Row.family 0xC).Fits i := mt (Instruction.op_eq_iff rfl).mpr hop
    rw [if_neg hop] at ht
    simp only [Draw.ofReply?, if_neg hfits, Option.toList_none, List.append_nil]
    exact h.of_source ht

/-- However a cycle ends, it takes a byte if it has executed a random load, and no byte otherwise. -/
theorem StepEnds.follows (h : Follows b s ds) {result : Except SessionError Instruction}
    (ht : s.StepEnds t result) : Follows b t (ds ++ (Draw.ofReply? ⟨t, result⟩).toList) := by
  cases ht with
  | unfetched | hookFaulted | brokenOff | faulted | misfit =>
    simp only [Draw.ofReply?, Option.toList_none, List.append_nil]
    exact h.of_source rfl
  | passed journal hf hi hh =>
    -- a word outside the instruction set goes through the primitives as well, and does nothing there
    have hsource : s.source.drawFor _ = (0, s.source) := if_neg (by rw [hi]; decide)
    refine h.applied s.setup.variant (apply_unknown hi) ?_
    rw [hsource]
    rfl
  | executed journal hf hi hx => exact h.applied _ hx rfl

theorem Follows.step (h : Follows b s ds) (hr : s.machine.runState = .running) :
    Follows b s.step.session (ds ++ s.drawIn) :=
  (step_ends hr).follows h

/-! ## Calls -/

/-- A cycle behind others draws behind them. -/
theorem Follows.step_behind {us : List Session} (hr : s.machine.runState = .running)
    (h : Follows b s (ds ++ us.flatMap drawIn)) :
    Follows b s.step.session (ds ++ (us ++ [s]).flatMap drawIn) := by
  rw [List.flatMap_append, List.flatMap_singleton, ← List.append_assoc]
  exact h.step hr

/-- A run draws what its cycles draw. -/
theorem Follows.runFrom (h : Follows b s ds) (done n : Nat) :
    Follows b (runFrom done n s).session (ds ++ (s.cyclesFrom n).flatMap drawIn) := by
  have hfirst : Follows b s (ds ++ [].flatMap drawIn) := by simpa using h
  exact carried_runFrom (P := fun t us => Follows b t (ds ++ us.flatMap drawIn))
    Follows.step_behind hfirst done n

/-- A frame draws what its cycles draw; its tick takes no byte. -/
theorem Follows.runFrame (h : Follows b s ds) :
    Follows b s.runFrame.session
      (ds ++ (s.cyclesFrom s.setup.pacing.cyclesPerFrame).flatMap drawIn) := by
  have hfirst : Follows b s (ds ++ [].flatMap drawIn) := by simpa using h
  exact carried_runFrame (P := fun t us => Follows b t (ds ++ us.flatMap drawIn))
    Follows.step_behind (fun ht => ht.of_source rfl) hfirst

/-- An instruction that is executed by hand takes a byte if it is a random load. -/
theorem Follows.execute (h : Follows b s ds) (i : Instruction) :
    Follows b (s.execute i).session
      (ds ++ (Draw.ofReply? ((s.execute i).map fun _ => i)).toList) := by
  rcases s.execute_cases i with ⟨e, hs⟩ | ⟨n, journal, hx, hs⟩ <;> rw [hs]
  · show Follows b s (ds ++ [])
    rwa [List.append_nil]
  · exact h.applied _ hx rfl

/-- Every call draws what it executes. -/
theorem Follows.perform (h : Follows b s ds) (patience : Nat) (c : Command) :
    Follows b (s.perform patience c).session (ds ++ s.drawsOf patience c) := by
  have hleaves := s.idle_leaves (c := c) patience
  cases c with
  | step =>
    show Follows b s.step.session (ds ++ (if _ then [s] else []).flatMap drawIn)
    split
    · next hr => simpa using h.step hr
    · next hr =>
      rw [step_of_not_running hr]
      simpa using h
  | run cycles =>
    show Follows b (s.run patience cycles).session _
    rw [session_run]
    exact h.runFrom 0 _
  | runFrame => exact h.runFrame
  | execute i => exact h.execute i
  | _ =>
    -- the other calls execute nothing, so that they leave the source
    have hidle : Follows b s (ds ++ []) := by simpa using h
    exact hidle.of_source (hleaves trivial).2.1

theorem Follows.performAll (h : Follows b s ds) (patience : Nat) (cs : List Command) :
    Follows b (s.performAll patience cs).1 (ds ++ s.drawsAll patience cs) := by
  induction cs generalizing s ds with
  | nil =>
    show Follows b s (ds ++ [])
    simpa using h
  | cons c cs ih =>
    have hlater := ih (h.perform patience c)
    rwa [List.append_assoc] at hlater

/-! ## Draws and executed instructions -/

theorem map_instruction_ofReply? (r : Reply Instruction) :
    (Draw.ofReply? r).toList.map Draw.instruction =
      r.result.toOption.toList.filter fun i => (Row.family 0xC).Fits i := by
  unfold Draw.ofReply?
  cases r.result with
  | error e => rfl
  | ok i => by_cases hi : (Row.family 0xC).Fits i <;> simp [Except.toOption, hi]

/-- The draws of cycles are the random loads among the instructions that they execute. -/
theorem map_instruction_drawIn (us : List Session) :
    (us.flatMap drawIn).map Draw.instruction =
      ((executions us).map (·.2)).filter fun i => (Row.family 0xC).Fits i := by
  induction us with
  | nil => rfl
  | cons u us ih =>
    have hfirst : (executions (u :: us)).map (·.2) =
        u.step.result.toOption.toList ++ (executions us).map (·.2) := by
      unfold executions
      rw [List.filterMap_cons]
      cases u.step.result.toOption <;> rfl
    rw [List.flatMap_cons, List.map_append, ih, hfirst, List.filter_append]
    congr 1
    exact map_instruction_ofReply? u.step

/-- The draws of a call are the random loads among the instructions that it executes. -/
theorem map_instruction_drawsOf (patience : Nat) (s : Session) (c : Command) :
    (s.drawsOf patience c).map Draw.instruction =
      ((s.executedBy patience c).map (·.2)).filter fun i => (Row.family 0xC).Fits i := by
  cases c with
  | execute i =>
    have hexecuted : (s.executedBy patience (.execute i)).map (·.2) =
        ((s.execute i).map fun _ => i).result.toOption.toList := by
      simp only [executedBy, Reply.map]
      cases (s.execute i).result <;> rfl
    rw [hexecuted]
    exact map_instruction_ofReply? _
  | _ => exact map_instruction_drawIn _

theorem map_instruction_drawsAll (patience : Nat) (s : Session) (cs : List Command) :
    (s.drawsAll patience cs).map Draw.instruction =
      ((s.executedAll patience cs).map (·.2)).filter fun i => (Row.family 0xC).Fits i := by
  unfold drawsAll executedAll
  simp only [List.map_flatMap, List.filter_flatMap, map_instruction_drawsOf]

/-! ## The whole life of a session -/

/-- **The stream of a session.**  Let a host do what it likes with a session from the moment it is set
up: load and load anew, run, fault, pause, execute by hand.  The source has handed out as many bytes as
random loads have been executed, whatever their mask, and the load with number `k` has got the byte with
number `k` of the stream.  On a list that is long enough the place of the next byte tells how many have
been handed out.  A call that executes no random load takes no byte, and a load, whether it succeeds or
not, neither takes one nor goes back. -/
theorem draws_follow_stream (patience : Nat) (setup : Setup) (threshold : Option Level)
    (source : ByteSource) (cs : List Command) :
    let s := Session.start setup threshold source
    let t := (s.performAll patience cs).1
    let draws := s.drawsAll patience cs
    draws.map Draw.instruction =
        ((s.executedAll patience cs).map (·.2)).filter (fun i => (Row.family 0xC).Fits i) ∧
      t.source = source.drop draws.length ∧
      (∀ k (_ : k < draws.length), draws[k].Takes (source.stream k)) ∧
      (∀ bytes : List UInt8, source = .ofList bytes → draws.length < bytes.length →
        t.source = .circle bytes.toArray draws.length ∧
          ∀ k (_ : k < draws.length) (_ : k < bytes.length), draws[k].Takes bytes[k]) ∧
      (∀ (u : Session) (c : Command), u.drawsOf patience c = [] →
        (u.perform patience c).session.source = u.source) ∧
      ∀ u : Session, (∀ image, (u.load image).session.source = u.source) ∧
        ∀ path file, (u.loadFile path file).session.source = u.source := by
  intro s t draws
  have hfollows : Follows source t draws := (Follows.nil s).performAll patience cs
  have hidle {u : Session} {c : Command} (hnone : u.drawsOf patience c = []) :
      (u.perform patience c).session.source = u.source := by
    have hnext := ((Follows.nil u).perform patience c).source
    rw [hnone] at hnext
    exact hnext
  refine ⟨map_instruction_drawsAll patience s cs, hfollows.source, hfollows.takes, ?_,
    fun u c hnone => hidle hnone, ?_⟩
  · rintro bytes rfl hlen
    refine ⟨?_, ?_⟩
    · rw [hfollows.source, ByteSource.ofList, ByteSource.drop_circle (by simpa using hlen),
        Nat.zero_add]
    · intro k hk hkb
      rw [← ByteSource.stream_ofList hkb]
      exact hfollows.takes k hk
  · intro u
    exact ⟨fun image => hidle (c := .load image) rfl,
      fun path file => hidle (c := .loadFile path file) rfl⟩

/-- A program with two random loads, one of them with an empty mask, is run; a second program is loaded
and faults behind its random load.  Three bytes out of four are gone, and the last load has got the
third. -/
theorem draws_follow_stream_reloaded :
    let bytes : List UInt8 := [0x11, 0x22, 0x33, 0x44]
    let s := Session.start ⟨.standard, .standard, true, none⟩ none (.ofList bytes)
    let cs : List Command := [.load [0xC0, 0x00, 0xC1, 0x0F, 0x12, 0x00], .run (some 2), .pause,
      .load [0xC2, 0xFF, 0x00, 0xEE], .runFrame]
    let t := (s.performAll 0 cs).1
    let draws := s.drawsAll 0 cs
    t.source = .circle bytes.toArray 3 ∧ t.machine.runState = .halted ∧
      draws.map (fun d => d.instruction.word) = [0xC000, 0xC10F, 0xC2FF] ∧
      ∀ k (_ : k < draws.length) (_ : k < bytes.length), draws[k].Takes bytes[k] := by
  intro bytes s cs t draws
  have hrun : t.machine.runState = .halted ∧
      draws.map (fun d => d.instruction.word) = [0xC000, 0xC10F, 0xC2FF] := by decide +kernel
  have hlen : draws.length = 3 := by
    simpa using congrArg List.length hrun.2
  obtain ⟨-, -, -, hlist, -⟩ :=
    draws_follow_stream 0 ⟨.standard, .standard, true, none⟩ none (.ofList bytes) cs
  obtain ⟨hplace, htakes⟩ := hlist bytes rfl (show draws.length < 4 by rw [hlen]; decide)
  have hthree : ByteSource.circle bytes.toArray draws.length = .circle bytes.toArray 3 := by rw [hlen]
  exact ⟨hplace.trans hthree, hrun.1, hrun.2, htakes⟩

end Session

end Chip8
