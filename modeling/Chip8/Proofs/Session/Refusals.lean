/-
# Chip8.Proofs.Session.Refusals — a call that is refused changes nothing.

Loads, fetches, the keys, memory windows and the stack are checked before anything is written, and a
cycle is refused before it begins.  `Session.Declines` says of each call, by its arguments and by the
session, when that check fails; `Session.RefusalOf` says with which errors.  A call that is declined
leaves the whole session as it was, journal included (`perform_of_declines`), and one that only has to
pass its check succeeds when it does (`exists_ok_of_not_declines`).

A cycle can also fail after it has begun.  Such a failure is never told as a refusal.

A fetch is the read of a window like any other, so it is declined below memory as well.  The program
counter gets there only if the host has pushed a negative number by hand (`pc_nonneg`).
-/
import Chip8.Proofs.Session.Addresses
import Chip8.Proofs.Session.Budget
import Chip8.Proofs.Session.CycleLog
import Chip8.Proofs.Session.Keys

namespace Chip8

/-- The calls that fail at their check or not at all. -/
def Command.ChecksFirst : Command → Prop
  | load _ | loadFile .. | fetch | pressKey _ | releaseKey _ | setKeys _ | read .. | write .. | push _
  | pop => True
  | _ => False

namespace Session

/-- The check of a call fails. -/
def Declines (s : Session) : Command → Prop
  | .load image => 3584 < image.length
  | .loadFile _ file => ∀ image, file = .regular image → 3584 < image.length
  | .step => s.machine.runState ≠ .running
  | .fetch => s.machine.pc < 0 ∨ 4096 < s.machine.pc + 2
  | .pressKey key | .releaseKey key => ¬ (0 ≤ key ∧ key ≤ 15)
  | .setKeys keys => ∃ key ∈ keys, ¬ (0 ≤ key ∧ key ≤ 15)
  | .read address count => address < 0 ∨ 4096 < address + count
  | .write address data => address < 0 ∨ 4096 < address + data.length
  | .push _ => s.machine.stack.length = 12
  | .pop => s.machine.stack = []
  | _ => False

/-- The errors that tell of a failed check. -/
inductive RefusalOf (s : Session) : Command → SessionError → Prop where
  | image (image : List UInt8) : RefusalOf s (.load image) (.imageTooLarge image.length)
  | contents (path : String) (image : List UInt8) :
      RefusalOf s (.loadFile path (.regular image)) (.imageTooLarge image.length)
  | path {path : String} {file : HostFile} {e : FileError}
      (h : file.contents (HostPath.clean path) = .error e) :
      RefusalOf s (.loadFile path file) (.file e)
  | notRunning : RefusalOf s .step (.notRunning s.machine.runState)
  | fetch : RefusalOf s .fetch (.fault ⟨.outOfBounds ⟨s.machine.pc, 2⟩, none⟩)
  | pressKey (key : Int) : RefusalOf s (.pressKey key) (.invalidKey key)
  | releaseKey (key : Int) : RefusalOf s (.releaseKey key) (.invalidKey key)
  | setKeys {keys : List Int} {key : Int} (hmem : key ∈ keys) (hout : ¬ (0 ≤ key ∧ key ≤ 15)) :
      RefusalOf s (.setKeys keys) (.invalidKey key)
  | read (address count : Int) :
      RefusalOf s (.read address count) (.fault ⟨.outOfBounds ⟨address, count⟩, none⟩)
  | write (address : Int) (data : List UInt8) :
      RefusalOf s (.write address data) (.fault ⟨.outOfBounds ⟨address, data.length⟩, none⟩)
  | push (address : Int) : RefusalOf s (.push address) (.fault ⟨.stackOverflow, none⟩)
  | pop : RefusalOf s .pop (.fault ⟨.stackUnderflow, none⟩)

variable {s : Session} {c : Command} {patience : Nat} {e : SessionError}

/-! ## The checks -/

theorem setKey_of_invalid {key : Int} (h : ¬ (0 ≤ key ∧ key ≤ 15)) (isDown : Bool) :
    s.setKey key isDown = ⟨s, .error (.invalidKey key)⟩ := by
  have hkey : Key.ofInt? key = none := Key.ofInt?_eq_none_iff.mpr (by omega)
  rw [setKey, hkey]

theorem exists_ok_of_setKey {key : Int} (h : 0 ≤ key ∧ key ≤ 15) (isDown : Bool) :
    (s.setKey key isDown).result = .ok () := by
  unfold setKey
  cases hkey : Key.ofInt? key with
  | none => exact absurd (by omega) (Key.ofInt?_eq_none_iff.mp hkey)
  | some k => rfl

/-- A call that is declined answers with a refusal and leaves the session. -/
theorem perform_of_declines (patience : Nat) (h : s.Declines c) :
    ∃ e, s.RefusalOf c e ∧ s.perform patience c = ⟨s, .error e⟩ := by
  cases c with
  | load image =>
    refine ⟨_, .image image, ?_⟩
    show (s.load image).map _ = _
    rw [s.load_of_large h]
    rfl
  | loadFile path file =>
    cases file with
    | regular image =>
      refine ⟨_, .contents path image, ?_⟩
      show (s.load image).map _ = _
      rw [s.load_of_large (h image rfl)]
      rfl
    | _ => exact ⟨_, .path rfl, rfl⟩
  | step =>
    refine ⟨_, .notRunning, ?_⟩
    rw [perform_of_step patience (step_of_not_running h)]
    rfl
  | fetch =>
    have hrefuses : Memory.Refuses s.machine.pc 2 := h
    refine ⟨_, .fetch, ?_⟩
    show (s.settle s.machine.fetch).map _ = _
    rw [Machine.fetch, s.machine.read_of_refuses hrefuses]
    rfl
  | pressKey key =>
    refine ⟨_, .pressKey key, ?_⟩
    show (s.setKey key true).map _ = _
    rw [setKey_of_invalid h]
    rfl
  | releaseKey key =>
    refine ⟨_, .releaseKey key, ?_⟩
    show (s.setKey key false).map _ = _
    rw [setKey_of_invalid h]
    rfl
  | setKeys keys =>
    obtain ⟨key, hmem, hout⟩ := h
    obtain ⟨first, hfirst⟩ := keysOf_eq_error_iff.mpr ⟨key, hmem, by omega⟩
    obtain ⟨hmem, hout⟩ := keysOf_eq_error hfirst
    refine ⟨_, .setKeys hmem (by omega), ?_⟩
    show (s.setKeys keys).map _ = _
    rw [Session.setKeys, hfirst]
    rfl
  | read address count =>
    have hrefuses : Memory.Refuses address count := h
    refine ⟨_, .read address count, ?_⟩
    show (s.read address count).map _ = _
    rw [Session.read, s.machine.read_of_refuses hrefuses]
    rfl
  | write address data =>
    have hrefuses : Memory.Refuses address data.length := h
    refine ⟨_, .write address data, ?_⟩
    show (s.settle ((s.machine.write address data).map _)).map _ = _
    rw [s.machine.write_of_refuses hrefuses]
    rfl
  | push address =>
    have hfull : s.machine.stack.length ≥ stackCapacity := Nat.le_of_eq h.symm
    refine ⟨_, .push address, ?_⟩
    show (s.settle ((s.machine.push address).map _)).map _ = _
    rw [Machine.push, if_pos hfull]
    rfl
  | pop =>
    have hempty : s.machine.stack = [] := h
    refine ⟨_, .pop, ?_⟩
    show (s.settle s.machine.pop).map _ = _
    rw [Machine.pop, hempty]
    rfl
  | _ => exact h.elim

/-- A call whose only failure is its check succeeds when it is not declined. -/
theorem exists_ok_of_not_declines (hdepth : s.machine.stack.length ≤ stackCapacity)
    (patience : Nat) (hc : c.ChecksFirst) (h : ¬ s.Declines c) :
    ∃ a, (s.perform patience c).result = .ok a := by
  cases c with
  | load image =>
    obtain ⟨_, _, _, -, hs⟩ := perform_of_boots patience s (c := .load image) (Nat.le_of_not_lt h)
    exact ⟨_, congrArg Reply.result hs⟩
  | loadFile path file =>
    cases file with
    | regular image =>
      have hfits : image.length ≤ maxImageSize := by
        refine Nat.le_of_not_lt fun hlarge => h ?_
        rintro _ ⟨⟩
        exact hlarge
      obtain ⟨_, _, _, -, hs⟩ :=
        perform_of_boots patience s (c := .loadFile path (.regular image)) ⟨image, rfl, hfits⟩
      exact ⟨_, congrArg Reply.result hs⟩
    | _ => exact (h nofun).elim
  | fetch =>
    have hrefuses : ¬ Memory.Refuses s.machine.pc 2 := h
    obtain ⟨hpc, hend⟩ := Memory.not_refuses_iff.mp hrefuses
    have hf := (Machine.fetch_eq_ok_iff hpc).mpr ⟨hend, rfl, rfl⟩
    refine ⟨.fetched s.machine.current, ?_⟩
    show ((s.settle s.machine.fetch).map _).result = _
    rw [hf]
    rfl
  | pressKey key =>
    exact ⟨.done, congrArg (Except.map _) (exists_ok_of_setKey (Decidable.not_not.mp h) true)⟩
  | releaseKey key =>
    exact ⟨.done, congrArg (Except.map _) (exists_ok_of_setKey (Decidable.not_not.mp h) false)⟩
  | setKeys keys =>
    refine ⟨.done, ?_⟩
    show ((s.setKeys keys).map _).result = _
    cases hkeys : keysOf keys with
    | error key =>
      obtain ⟨hmem, hout⟩ := keysOf_eq_error hkeys
      exact (h ⟨key, hmem, by omega⟩).elim
    | ok ks =>
      rw [Session.setKeys, hkeys]
      rfl
  | read address count =>
    have hrefuses : ¬ Memory.Refuses address count := h
    refine ⟨.bytes (s.machine.memory.slice address.toNat (Memory.windowEnd address count)), ?_⟩
    show ((s.read address count).map _).result = _
    rw [Session.read, s.machine.read_of_not_refuses hrefuses]
    rfl
  | write address data =>
    have hrefuses : ¬ Memory.Refuses address data.length := h
    refine ⟨.done, ?_⟩
    show ((s.settle ((s.machine.write address data).map _)).map _).result = _
    rw [s.machine.write_of_not_refuses hrefuses]
    rfl
  | push address =>
    have hroom : ¬ s.machine.stack.length ≥ stackCapacity := by
      unfold stackCapacity at hdepth ⊢
      have hne : s.machine.stack.length ≠ 12 := h
      omega
    refine ⟨.done, ?_⟩
    show ((s.settle ((s.machine.push address).map _)).map _).result = _
    rw [Machine.push, if_neg hroom]
    rfl
  | pop =>
    cases hs : s.machine.stack with
    | nil => exact (h hs).elim
    | cons a rest =>
      refine ⟨.address a, ?_⟩
      show ((s.settle s.machine.pop).map _).result = _
      rw [Machine.pop, hs]
      rfl
  | _ => exact hc.elim

/-- Only a machine that is not running answers so to a cycle. -/
theorem not_running_of_step {r : RunState}
    (h : (s.perform patience .step).result = .error (.notRunning r)) :
    s.machine.runState ≠ .running := by
  intro hr
  have hends := step_ends hr
  rcases hs : s.step with ⟨t, result⟩
  rw [hs] at hends
  rw [perform_of_step patience hs] at h
  cases result with
  | ok i => cases h
  | error e =>
    obtain rfl : e = .notRunning r := Except.error.inj h
    exact hends.ne_notRunning r rfl

/-- A call that answers with a refusal was declined. -/
theorem declines_of_refusal (hdepth : s.machine.stack.length ≤ stackCapacity)
    (he : s.RefusalOf c e) (h : (s.perform patience c).result = .error e) : s.Declines c := by
  by_cases hc : c.ChecksFirst
  · by_cases hd : s.Declines c
    · exact hd
    · obtain ⟨a, ha⟩ := exists_ok_of_not_declines hdepth patience hc hd
      rw [ha] at h
      cases h
  · cases he with
    | notRunning => exact not_running_of_step h
    | _ => exact (hc trivial).elim

/-! ## Sessions that calls have brought about -/

/-- However far a host reaches, the stack holds no more than it can. -/
theorem ReachableBy.depth (h : s.ReachableBy fun _ => True) :
    s.machine.stack.length ≤ stackCapacity := by
  have hany : s.ReachableBy (Command.PushesOnly fun _ => True) := by
    apply h.mono
    intro c _
    cases c <;> trivial
  exact (hany.addressesIn fun _ _ => trivial).depth

/-- Where no negative number is pushed by hand, the program counter is not negative. -/
theorem ReachableBy.pc_nonneg (h : s.ReachableBy (Command.PushesOnly (0 ≤ ·))) :
    0 ≤ s.machine.pc :=
  (h.addressesIn fun _ ha => ha).pc

/-- **Calls that are refused change nothing.**  In every session that any calls have brought about, a
call is refused exactly when it is declined: when an image has more than 3584 bytes or its path leads to
no file, when a cycle is asked of a machine that is not running, when a key, or one of several, is not from
0 to 15, when the window of a fetch, a read or a write does not lie in memory, when the stack is full for a
push or empty for a pop.  The whole session is then as it was.  But for a cycle, no such call fails in
another way.  As long as no negative number was pushed by hand, the window of a fetch can only lie beyond
the end of memory.  And when several keys are put down, repetitions allowed, the keys that are down
afterwards are exactly these. -/
theorem refused_calls_change_nothing (h : s.ReachableBy fun _ => True) (patience : Nat) :
    (∀ c, s.Declines c ↔ ∃ e, s.RefusalOf c e ∧ (s.perform patience c).result = .error e) ∧
      (∀ c e, s.RefusalOf c e → (s.perform patience c).result = .error e →
        (s.perform patience c).session = s) ∧
      (∀ c e, c.ChecksFirst → (s.perform patience c).result = .error e → s.RefusalOf c e) ∧
      (s.ReachableBy (Command.PushesOnly (0 ≤ ·)) →
        (s.Declines .fetch ↔ 4096 < s.machine.pc + 2)) ∧
      ∀ keys a, (s.perform patience (.setKeys keys)).result = .ok a → ∀ k : Key,
        (s.perform patience (.setKeys keys)).session.machine.keypad.isDown k = true ↔
          (k.val : Int) ∈ keys := by
  have hdepth : s.machine.stack.length ≤ stackCapacity := h.depth
  refine ⟨?_, ?_, ?_, ?_, ?_⟩
  · intro c
    constructor
    · intro hd
      obtain ⟨e, he, hs⟩ := perform_of_declines patience hd
      exact ⟨e, he, congrArg Reply.result hs⟩
    · rintro ⟨e, he, hs⟩
      exact declines_of_refusal hdepth he hs
  · intro c e he hs
    obtain ⟨_, -, hrefused⟩ := perform_of_declines patience (declines_of_refusal hdepth he hs)
    rw [hrefused]
  · intro c e hc hs
    by_cases hd : s.Declines c
    · obtain ⟨e', he', hrefused⟩ := perform_of_declines patience hd
      rw [hrefused] at hs
      obtain rfl := Except.error.inj hs
      exact he'
    · obtain ⟨a, ha⟩ := exists_ok_of_not_declines hdepth patience hc hd
      rw [ha] at hs
      cases hs
  · intro hnatural
    have hpc : ¬ s.machine.pc < 0 := Int.not_lt.mpr hnatural.pc_nonneg
    exact or_iff_right hpc
  · intro keys a hs k
    apply isDown_setKeys
    obtain ⟨_, hdone, -⟩ := map_eq_ok_iff.mp hs
    exact hdone

/-- A machine that was halted at the end of memory, with a key down and a return address from the host: one
number that is no key has a whole list refused, a cycle and a fetch are refused, and a list with
repetitions replaces the key. -/
theorem refused_calls_change_nothing_halted :
    ∃ s : Session, s.ReachableBy (fun _ => True) ∧ s.ReachableBy (Command.PushesOnly (0 ≤ ·)) ∧
      s.machine.runState = .halted ∧ s.machine.pc = 0xFFF ∧ s.machine.stack = [0x300] ∧
      s.machine.keypad.isDown 1 = true ∧
      (s.perform 0 (.setKeys [3, 16, 3])).session = s ∧ (s.perform 0 .step).session = s ∧
      (s.perform 0 .fetch).session = s ∧
      (s.perform 0 (.setKeys [3, 2, 3])).session.machine.keypad.isDown 3 = true ∧
      ¬ (s.perform 0 (.setKeys [3, 2, 3])).session.machine.keypad.isDown 1 = true := by
  let fresh := Session.start ⟨.standard, .standard, true, none⟩ none (.ofList [])
  let s := (fresh.performAll 0 [.load [0x1F, 0xFF], .step, .push 0x300, .pressKey 1, .halt]).1
  have hr : s.ReachableBy (Command.PushesOnly (0 ≤ ·)) := by
    apply (ReachableBy.start _ _ _).performAll
    intro c hc
    simp only [List.mem_cons, List.not_mem_nil, or_false] at hc
    rcases hc with rfl | rfl | rfl | rfl | rfl
    · trivial
    · trivial
    · exact (by decide : (0 : Int) ≤ 0x300)
    · trivial
    · trivial
  have hfacts : s.machine.runState = .halted ∧ s.machine.pc = 0xFFF ∧
      s.machine.stack = [0x300] ∧ s.machine.keypad.isDown 1 = true := by
    decide +kernel
  obtain ⟨hhalted, hpc, hstack, hdown⟩ := hfacts
  have hall := hr.mono fun _ _ => trivial
  obtain ⟨hdeclined, hsame, -, hfetch, hkeys⟩ := refused_calls_change_nothing hall 0
  obtain ⟨key, hkey, hlist⟩ := (hdeclined (.setKeys [3, 16, 3])).mp ⟨16, by decide, by decide⟩
  have hidle : s.Declines .step := by
    show s.machine.runState ≠ .running
    rw [hhalted]
    decide
  obtain ⟨state, hstate, hcycle⟩ := (hdeclined .step).mp hidle
  have hend : 4096 < s.machine.pc + 2 := by
    rw [hpc]
    decide
  obtain ⟨window, hwindow, hread⟩ := (hdeclined .fetch).mp ((hfetch hr).mpr hend)
  have hdone := hkeys [3, 2, 3] .done rfl
  exact ⟨s, hall, hr, hhalted, hpc, hstack, hdown,
    hsame _ key hkey hlist, hsame _ state hstate hcycle, hsame _ window hwindow hread,
    (hdone 3).mpr (by decide), fun hold => absurd ((hdone 1).mp hold) (by decide)⟩

end Session

end Chip8
