/-
# Chip8.Proofs.Session.Reload — a load forgets the past.

A load begins anew: it keeps the setup, the source of random bytes and what the hook was told of, and
takes nothing else from the session it is made on.  So two sessions that agree in setup and source, and
whose hooks will react alike from now on, may have come about in any way, even by changes of the machine by
hand.  Once both have loaded the same image, they are the same but for the journal and for what the hook
was told of before, and none of the deeds that follow looks at either.

A hook that looks at the word alone reacts alike behind any past; one that counts its words, or remembers
them, has to have come to the same point.

A `Deed` is a call, or whatever a host does to the machine by hand.
-/
import Chip8.Proofs.Session.CycleLog
import Chip8.Proofs.Session.Retold

namespace Chip8

/-- Something that a host does to a session. -/
inductive Deed where
  /-- A call. -/
  | call (c : Command)
  /-- A change of the machine by hand. -/
  | byHand (change : Machine → Machine)

namespace Session

/-- Carries out a deed. -/
def act (patience : Nat) (s : Session) : Deed → Reply Answer
  | .call c => s.perform patience c
  | .byHand change => ⟨s.edit change, .ok .done⟩

/-- Carries out deeds in order: the session at the end, and what each deed came to. -/
def actAll (patience : Nat) (s : Session) :
    List Deed → Session × List (Except SessionError Answer)
  | [] => (s, [])
  | d :: rest =>
    let r := s.act patience d
    let (t, results) := actAll patience r.session rest
    (t, r.result :: results)

/-- How the hook will react from now on. -/
def hookAhead (s : Session) : Option Hook :=
  Past.ahead ⟨s.setup.hook, s.reported⟩

/-- A program is about to begin: nothing is counted or traced, the machine runs, no key is down, and no
instruction waits for one. -/
structure IsAtStart (s : Session) : Prop where
  cycles : s.cycles = 0
  trace : s.trace = #[]
  runState : s.machine.runState = .running
  keys : ∀ k, s.machine.keypad.isDown k = false
  awaitingKey : s.machine.awaitingKey = false
  pendingKey : s.machine.pendingKey = none
  pc : s.machine.pc = 0x200

/-- A hook that looks at the word alone goes on as it is, whatever it was told of. -/
theorem hookAhead_of_word_alone {s : Session} {hook : Hook} (hhook : s.setup.hook = some hook)
    (hword : ∀ words i, hook.react words i = hook.react #[] i) : s.hookAhead = some hook := by
  have hafter : hook.after s.reported = hook := by
    unfold Hook.after
    congr 1
    funext words i
    rw [hword, ← hword words i]
  show s.setup.hook.map (Hook.after s.reported) = _
  rw [hhook, Option.map_some, hafter]

/-- Two sessions are the same but for the journal and for the words that the hook was told of before. -/
structure SameBut (past past' : Array UInt16) (s t : Session) : Prop where
  setup : s.setup = t.setup
  machine : s.machine = t.machine
  source : s.source = t.source
  cycles : s.cycles = t.cycles
  trace : s.trace = t.trace
  /-- Since then, it was told of the same words. -/
  reported : ∃ words, s.reported = past ++ words ∧ t.reported = past' ++ words

variable {patience : Nat} {s t u : Session} {past past' : Array UInt16}

/-! ## Deeds do not look back -/

theorem retold_act {p : Past} (h : s.setup.hook = p.ahead) (d : Deed) :
    (s.retold p).act patience d = (s.act patience d).retold p := by
  cases d with
  | call c => exact retold_perform h patience c
  | byHand change => rfl

theorem unlogged_act (d : Deed) : s.unlogged.act patience d = (s.act patience d).unlogged := by
  cases d with
  | call c => exact unlogged_perform patience s c
  | byHand change => rfl

theorem setup_act (d : Deed) : (s.act patience d).session.setup = s.setup := by
  cases d with
  | call c => exact setup_perform patience s c
  | byHand change => rfl

/-- A session that differs from another one in its past only goes the way of that one. -/
theorem actAll_of_retold (patience : Nat) {p : Past} (h : s.unlogged = u.retold p)
    (hook : u.setup.hook = p.ahead) (ds : List Deed) :
    (s.actAll patience ds).2 = (u.actAll patience ds).2 ∧
      (s.actAll patience ds).1.unlogged = (u.actAll patience ds).1.retold p := by
  induction ds generalizing s u with
  | nil => exact ⟨rfl, h⟩
  | cons d ds ih =>
    have hact : (s.act patience d).unlogged = (u.act patience d).retold p := by
      rw [← unlogged_act, h, retold_act hook]
    have hresult := congrArg Reply.result hact
    have hkept : (u.act patience d).session.setup.hook = p.ahead := by
      rw [setup_act, hook]
    obtain ⟨hresults, hsession⟩ := ih (congrArg Reply.session hact) hkept
    exact ⟨congrArg₂ List.cons hresult hresults, hsession⟩

/-- So two of them go the same way. -/
theorem SameBut.of_retold {hook : Option Hook} (hs : s.unlogged = u.retold ⟨hook, past⟩)
    (ht : t.unlogged = u.retold ⟨hook, past'⟩) : SameBut past past' s t where
  setup := (congrArg Session.setup hs).trans (congrArg Session.setup ht).symm
  machine := (congrArg Session.machine hs).trans (congrArg Session.machine ht).symm
  source := (congrArg Session.source hs).trans (congrArg Session.source ht).symm
  cycles := (congrArg Session.cycles hs).trans (congrArg Session.cycles ht).symm
  trace := (congrArg Session.trace hs).trans (congrArg Session.trace ht).symm
  reported := ⟨u.reported, congrArg Session.reported hs, congrArg Session.reported ht⟩

/-! ## The load -/

/-- The session that a load leaves, but for its past: it depends on setup, source and image, and on how
the hook goes on. -/
def begun (setup : Setup) (hook : Option Hook) (source : ByteSource) (m : Machine) : Session where
  setup := { setup with hook }
  machine := m
  source := source
  cycles := 0
  trace := #[]
  reported := #[]
  journal := .start none

theorem isAtStart_of_boot {image : List UInt8} {m : Machine} (hm : Machine.boot? image = some m)
    (hs : s.machine = m) (hcycles : s.cycles = 0) (htrace : s.trace = #[]) : s.IsAtStart := by
  obtain ⟨memory, rfl⟩ := Machine.exists_memory_of_boot hm
  refine ⟨hcycles, htrace, ?_, ?_, ?_, ?_, ?_⟩ <;> rw [hs]
  · rfl
  · intro k
    show Keypad.released.isDown k = false
    simp only [Keypad.released, Keypad.isDown, Fin.getElem_fin, Vector.getElem_replicate]
  · rfl
  · rfl
  · rfl

/-- A load leaves a program that is about to begin, behind the words that the hook was told of. -/
theorem load_eq_begun (s : Session) {image : List UInt8} {m : Machine}
    (hm : Machine.boot? image = some m) :
    ∃ t, s.load image = ⟨t, .ok ()⟩ ∧ t.IsAtStart ∧
      t.unlogged =
        (begun s.setup s.hookAhead s.source m).retold ⟨s.setup.hook, s.reported⟩ := by
  obtain ⟨journal, hload⟩ := s.load_of_boot hm
  refine ⟨_, hload, isAtStart_of_boot hm rfl rfl rfl, ?_⟩
  unfold unlogged retold begun
  rw [Array.append_empty]

/-- **A load forgets the past.**  Take two sessions with the same setup and the same source, whose hooks, if
they have any, will react in the same way from now on, whatever else is in them, and let both load an image
of at most 3584 bytes.  Both loads succeed and leave a program that is about to begin, with the source where
it was.  After any deeds, calls that may fail and changes of the machine by hand, every deed has come to the
same in both, and the two sessions are still the same: in machine, source, count and trace, and in the
words that the hook was told of since the load. -/
theorem load_forgets (patience : Nat) (s t : Session) (hsetup : s.setup = t.setup)
    (hhook : s.hookAhead = t.hookAhead) (hsource : s.source = t.source) {image : List UInt8} (himage : image.length ≤ 3584) :
    ∃ a b, s.load image = ⟨a, .ok ()⟩ ∧ t.load image = ⟨b, .ok ()⟩ ∧
      a.IsAtStart ∧ b.IsAtStart ∧ a.source = s.source ∧ b.source = t.source ∧
      ∀ ds : List Deed, (a.actAll patience ds).2 = (b.actAll patience ds).2 ∧
        SameBut s.reported t.reported (a.actAll patience ds).1 (b.actAll patience ds).1 := by
  obtain ⟨m, hm⟩ := exists_boot_of_fits himage
  obtain ⟨a, hsload, ha, hanew⟩ := s.load_eq_begun hm
  obtain ⟨b, htload, hb, hbnew⟩ := t.load_eq_begun hm
  have hasource : a.unlogged.source = s.source := by
    rw [hanew]
    rfl
  have hbsource : b.unlogged.source = t.source := by
    rw [hbnew]
    rfl
  refine ⟨a, b, hsload, htload, ha, hb, hasource, hbsource, fun ds => ?_⟩
  have hahead : t.hookAhead = Past.ahead ⟨s.setup.hook, t.reported⟩ := by
    unfold hookAhead
    rw [hsetup]
  rw [← hsetup, ← hhook, ← hsource] at hbnew
  rw [← hhook] at hahead
  obtain ⟨hresults, hsame⟩ := actAll_of_retold patience hanew rfl ds
  obtain ⟨hresults', hsame'⟩ := actAll_of_retold patience hbnew hahead ds
  exact ⟨hresults.trans hresults'.symm, .of_retold hsame hsame'⟩

/-- A program that a fault has halted behind an unknown word, and one that waits for the release of a key,
under a hook that looks at the word alone: both load a program that waits itself, and its host sets a
register by hand. -/
theorem load_forgets_fault_and_wait :
    ∃ s t : Session, s.machine.runState = .halted ∧ s.reported = #[0x0001] ∧
      t.machine.pendingKey = some 5 ∧ t.machine.keypad.isDown 5 = true ∧
      ∃ a b, s.load [0xF1, 0x0A] = ⟨a, .ok ()⟩ ∧ t.load [0xF1, 0x0A] = ⟨b, .ok ()⟩ ∧
        SameBut s.reported t.reported
          (a.actAll 0 [.call .step, .byHand fun m => m.setRegister 3 7, .call .runFrame]).1
          (b.actAll 0 [.call .step, .byHand fun m => m.setRegister 3 7, .call .runFrame]).1 := by
  let hook : Hook := ⟨fun _ i => if i.word = 0x0001 then .ignore else .pause⟩
  let fresh := Session.start ⟨.standard, .standard, true, some hook⟩ none (.ofList [])
  let s := (fresh.performAll 0 [.load [0x00, 0x01, 0x00, 0xEE], .run (some 2)]).1
  let t := (fresh.performAll 0 [.load [0xF0, 0x0A], .pressKey 5, .step, .step]).1
  have hs : s.setup = fresh.setup := setup_performAll ..
  have ht : t.setup = fresh.setup := setup_performAll ..
  have hhook : s.hookAhead = t.hookAhead :=
    (hookAhead_of_word_alone (congrArg Setup.hook hs) fun _ _ => rfl).trans
      (hookAhead_of_word_alone (congrArg Setup.hook ht) fun _ _ => rfl).symm
  have hfacts : s.source = t.source ∧ s.machine.runState = .halted ∧ s.reported = #[0x0001] ∧
      t.machine.pendingKey = some 5 ∧ t.machine.keypad.isDown 5 = true := by
    decide +kernel
  obtain ⟨hsource, hhalted, hreported, hpending, hdown⟩ := hfacts
  have hfits : ([0xF1, 0x0A] : List UInt8).length ≤ 3584 := by decide
  obtain ⟨a, b, hload, hload', -, -, -, -, hsame⟩ :=
    load_forgets 0 s t (hs.trans ht.symm) hhook hsource hfits
  exact ⟨s, t, hhalted, hreported, hpending, hdown, a, b, hload, hload', (hsame _).2⟩

end Session

end Chip8
