/-
# Chip8.Proofs.Program.Bundled — the bundled programs, for ever.

The three programs that come with the machine are followed on sketches.  The font table comes to rest
after 99 cycles and is computed up to there (`course_fontTable`).  The counter goes round a loop of sixteen
cycles, and a round is told block by block for any number (`counter_round`).  The key echo has an assertion
at each of its places, and each of its cycles leads from one to the next (`Echoes.next`).

`bundled_programs_stay_correct` puts these on the machine, for all schedules of calls but loads.
-/
import Chip8.Program.Bundled
import Chip8.Proofs.Program.Image
import Chip8.Proofs.Session.Sketched

namespace Chip8

/-! ## What there is to see -/

namespace Program

theorem mem_bundled {name : String} {image : List UInt8} :
    (name, image) ∈ bundled ↔
      name = "Font Table" ∧ image = fontTable ∨
      name = "BCD Counter" ∧ image = decimalCounter ∨
      name = "Key Echo" ∧ image = keyEcho := by
  simp [bundled]

/-- All glyphs in two rows. -/
def tableGlyphs : List Glyph :=
  (List.range 8).map (fun i => ⟨i, 2 + 7 * i, 2⟩) ++
    (List.range 8).map (fun i => ⟨8 + i, 2 + 7 * i, 10⟩)

/-- The decimal digits of a number below 1000 in one line. -/
def digitGlyphs (n : Nat) : List Glyph :=
  [⟨n / 100, 16, 12⟩, ⟨n / 10 % 10, 22, 12⟩, ⟨n % 10, 28, 12⟩]

/-- The glyph of a key. -/
def keyGlyph (k : Key) : Glyph :=
  ⟨k.val, 24, 12⟩

end Program

namespace Sketch

open Program (tableGlyphs digitGlyphs keyGlyph)

/-! ## Courses -/

section Courses

variable {image : List UInt8} {σ τ ρ : Sketch} {m n : Nat}

/-- The image of words has the words for its instructions. -/
theorem instruction?_imageOf (ws : List UInt16) (σ : Sketch) :
    σ.instruction? (Program.imageOf ws) = ws[σ.place]?.map Instruction.mk := by
  unfold instruction?
  rw [Program.length_imageOf]
  by_cases h : σ.place < ws.length
  · obtain ⟨hhigh, hlow⟩ := Program.getD_imageOf ws h
    rw [if_pos (by omega), hhigh, hlow, Instruction.ofBytes_word, List.getElem?_eq_getElem h]
    rfl
  · rw [if_neg (by omega), List.getElem?_eq_none (by omega)]
    rfl

/-- An assertion that every cycle leads on from can be made all along the course. -/
theorem course_keeps {P : Sketch → Prop} (hstart : P start)
    (hnext : ∀ σ p, P σ → ∃ τ, σ.next image p = some τ ∧ P τ) (ps : List Keypad) :
    ∃ σ, course image ps = some σ ∧ P σ := by
  induction ps using List.reverseRecOn with
  | nil => exact ⟨start, rfl, hstart⟩
  | append_singleton ps p ih =>
    obtain ⟨σ, hσ, hP⟩ := ih
    obtain ⟨τ, hτ, hP'⟩ := hnext σ p hP
    refine ⟨τ, ?_, hP'⟩
    rw [course_append_singleton, hσ]
    exact hτ

/-- Some number of cycles without a key down. -/
def steps (image : List UInt8) : Nat → Sketch → Option Sketch
  | 0, σ => some σ
  | n + 1, σ => (σ.next image .released).bind (steps image n)

theorem steps_one (image : List UInt8) (σ : Sketch) :
    steps image 1 σ = σ.next image .released :=
  Option.bind_fun_some _

theorem steps_add (image : List UInt8) (m n : Nat) (σ : Sketch) :
    steps image (m + n) σ = (steps image m σ).bind (steps image n) := by
  induction m generalizing σ with
  | zero =>
    rw [Nat.zero_add]
    rfl
  | succ m ih =>
    rw [Nat.succ_add, steps, steps, Option.bind_assoc]
    exact congrArg _ (funext ih)

theorem steps_trans (h : steps image m σ = some τ) (h' : steps image n τ = some ρ) :
    steps image (m + n) σ = some ρ := by
  rw [steps_add, h]
  exact h'

/-- A course can be followed as far as anywhere behind. -/
theorem exists_steps_of_le (h : steps image n σ = some τ) (hm : m ≤ n) :
    ∃ ρ, steps image m σ = some ρ := by
  obtain ⟨k, rfl⟩ := Nat.exists_eq_add_of_le hm
  rw [steps_add] at h
  obtain ⟨ρ, hρ, -⟩ := Option.bind_eq_some_iff.mp h
  exact ⟨ρ, hρ⟩

/-- Where a cycle changes nothing, no number of cycles does. -/
theorem steps_of_rest (h : σ.next image .released = some σ) (n : Nat) :
    steps image n σ = some σ := by
  induction n with
  | zero => rfl
  | succ n ih => rw [steps, h, Option.bind_some, ih]

/-- No word of the program waits for a key. -/
def NeverWaits (image : List UInt8) : Prop :=
  ∀ k < image.length / 2,
    (Instruction.ofBytes (image.getD (2 * k) 0) (image.getD (2 * k + 1) 0)).op ≠ .awaitKey

instance (image : List UInt8) : Decidable (NeverWaits image) :=
  inferInstanceAs (Decidable (∀ k < _, _))

/-- A program that never waits takes no notice of the keys. -/
theorem course_eq_steps (h : NeverWaits image) (ps : List Keypad) :
    course image ps = steps image ps.length start := by
  have hnext (σ : Sketch) (p : Keypad) : σ.next image p = σ.next image .released := by
    unfold next instruction?
    split
    · next hplace => exact execute_of_ne_awaitKey (h σ.place (by omega)) σ p _
    · rfl
  induction ps using List.reverseRecOn with
  | nil => rfl
  | append_singleton ps p ih =>
    rw [course_append_singleton, ih, List.length_append, List.length_singleton, steps_add]
    refine congrArg _ (funext fun σ => ?_)
    rw [hnext σ p, steps_one]

end Courses

/-! ## The font table -/

/-- The font table at rest. -/
def tableDrawn : Sketch where
  place := 17
  registers := #v[16, 58, 10, 0, 0, 0, 0, 0, 0, 0, 0, 0, 0, 0, 0, 0]
  target := .glyph 15
  number := 0
  shown := tableGlyphs
  wait := .start

theorem steps_fontTable : start.steps Program.fontTable 99 = some tableDrawn := by
  decide +kernel

theorem next_tableDrawn : tableDrawn.next Program.fontTable .released = some tableDrawn := by
  decide +kernel

theorem neverWaits_fontTable : NeverWaits Program.fontTable := by
  decide +kernel

/-- After 99 cycles the font table is at rest. -/
theorem course_fontTable {ps : List Keypad} (h : 99 ≤ ps.length) :
    course Program.fontTable ps = some tableDrawn := by
  obtain ⟨k, hk⟩ := Nat.exists_eq_add_of_le h
  rw [course_eq_steps neverWaits_fontTable, hk]
  exact steps_trans steps_fontTable (steps_of_rest next_tableDrawn k)

/-- The font table can be followed for ever. -/
theorem runs_fontTable : Runs Program.fontTable := by
  intro ps
  rcases Nat.le_total 99 ps.length with hrests | hdraws
  · exact ⟨tableDrawn, course_fontTable hrests⟩
  · rw [course_eq_steps neverWaits_fontTable]
    exact exists_steps_of_le steps_fontTable hdraws

/-! ## The counter -/

/-- The counter at some place, with the digits of `n` loaded. -/
def counter (place n next x : Nat) (target : Target) (shown : List Glyph) : Sketch where
  place
  registers := #v[n / 100, n / 10 % 10, n % 10, next, x, 12, 0, 0, 0, 0, 0, 0, 0, 0, 0, 0]
  target
  number := n
  shown
  wait := .start

/-- The counter at the head of its loop, with a number on the screen and the next one to come. -/
def counting (n next : Nat) : Sketch :=
  counter 1 n next 28 (.glyph (n % 10)) (digitGlyphs n)

theorem neverWaits_decimalCounter : NeverWaits Program.decimalCounter := by
  decide +kernel

theorem steps_decimalCounter : start.steps Program.decimalCounter 17 = some (counting 0 1) := by
  decide +kernel

/-- The screen is cleared and the next number's digits are stored. -/
theorem counter_stores {c : Nat} (hc : c < 256) (b : Nat) :
    (counting b c).steps Program.decimalCounter 3 =
      some { counting b c with place := 4, target := .number, number := c, shown := [] } := by
  have hclear : (counting b c).steps Program.decimalCounter 2 =
      some { counting b c with place := 3, target := .number, shown := [] } := by
    simp only [Program.decimalCounter, steps, next, instruction?_imageOf]
    rfl
  refine steps_trans (n := 1) hclear ?_
  -- only a byte is stored, so this cycle has a condition on the number
  simp only [Program.decimalCounter, steps, next, instruction?_imageOf]
  show (store _ _).bind _ = _
  rw [store, if_pos ⟨rfl, hc⟩]
  rfl

/-- The digits are loaded, and the first glyph is pointed at. -/
theorem counter_loads (b c : Nat) :
    { counting b c with place := 4, target := .number, number := c, shown := [] }.steps
      Program.decimalCounter 4 = some (counter 8 c c 16 (.glyph (c / 100)) []) := by
  simp only [Program.decimalCounter, steps, next, instruction?_imageOf]
  rfl

/-- A glyph is drawn beside those that are shown. -/
theorem counter_draws (c : Nat) {x d place : Nat} (gs : List Glyph) (hd : d < 16) (hx : x < 64)
    (hplace : place = 8 ∨ place = 11 ∨ place = 14) (hapart : ∀ g ∈ gs, g.IsApart ⟨d, x, 12⟩) :
    (counter place c c x (.glyph d) gs).steps Program.decimalCounter 1 =
      some (counter (place + 1) c c x (.glyph d) (gs ++ [⟨d, x, 12⟩])) := by
  have hword : (counter place c c x (.glyph d) gs).instruction? Program.decimalCounter =
      some ⟨0xD455⟩ := by
    rw [Program.decimalCounter, instruction?_imageOf]
    rcases hplace with rfl | rfl | rfl <;> rfl
  have hdraw : (counter (place + 1) c c x (.glyph d) gs).draw x 12 5 =
      some (counter (place + 1) c c x (.glyph d) (gs ++ [⟨d, x, 12⟩])) :=
    draw_of_glyph rfl ⟨hd, hx, by decide, hapart⟩
  rw [steps_one, next, hword]
  exact hdraw

/-- The next glyph is pointed at, and the column goes on. -/
theorem counter_points (c x : Nat) (gs : List Glyph) {place d : Nat} {target : Target}
    (hplace : place = 9 ∧ d = c / 10 % 10 ∨ place = 12 ∧ d = c % 10) :
    (counter place c c x target gs).steps Program.decimalCounter 2 =
      some (counter (place + 2) c c ((x + 6) % 256) (.glyph d) gs) := by
  simp only [Program.decimalCounter, steps, next, instruction?_imageOf]
  rcases hplace with ⟨rfl, rfl⟩ | ⟨rfl, rfl⟩
  · rfl
  · rfl

/-- The next number is taken up, back to the head of the loop. -/
theorem counter_counts (c : Nat) :
    (counter 15 c c 28 (.glyph (c % 10)) (digitGlyphs c)).steps Program.decimalCounter 2 =
      some (counting c ((c + 1) % 256)) := by
  simp only [Program.decimalCounter, steps, next, instruction?_imageOf]
  rfl

/-- **One round of the counter.**  Sixteen cycles put the next number on the screen. -/
theorem counter_round {c : Nat} (hc : c < 256) (b : Nat) :
    (counting b c).steps Program.decimalCounter 16 = some (counting c ((c + 1) % 256)) := by
  -- all three glyphs are digits and stand six columns apart
  have hhundreds := counter_draws c (x := 16) (d := c / 100) [] (by omega) (by omega) (.inl rfl)
    (List.forall_mem_nil _)
  have htens := counter_draws c (x := 22) (d := c / 10 % 10) [⟨c / 100, 16, 12⟩] (by omega)
    (by omega) (.inr (.inl rfl)) (by simp [Glyph.IsApart])
  have hones := counter_draws c (x := 28) (d := c % 10) [⟨c / 100, 16, 12⟩, ⟨c / 10 % 10, 22, 12⟩]
    (by omega) (by omega) (.inr (.inr rfl)) (by simp [Glyph.IsApart])
  have hdrawn := steps_trans hhundreds <|
    steps_trans (counter_points c 16 _ (.inl ⟨rfl, rfl⟩)) <|
    steps_trans htens <|
    steps_trans (counter_points c 22 _ (.inr ⟨rfl, rfl⟩)) hones
  exact steps_trans (counter_stores hc b) <|
    steps_trans (counter_loads b c) <|
    steps_trans hdrawn (counter_counts c)

/-- Every sixteen cycles the counter is at the head of its loop, round by round. -/
theorem counter_counting (k : Nat) :
    start.steps Program.decimalCounter (1 + 16 * (k + 1)) =
      some (counting (k % 256) ((k + 1) % 256)) := by
  induction k with
  | zero => exact steps_decimalCounter
  | succ k ih =>
    have hround := counter_round (c := (k + 1) % 256) (by omega) (k % 256)
    rw [Nat.mod_add_mod] at hround
    exact steps_trans (n := 16) ih hround

/-- The counter can be followed for ever. -/
theorem runs_decimalCounter : Runs Program.decimalCounter := by
  intro ps
  rw [course_eq_steps neverWaits_decimalCounter]
  exact exists_steps_of_le (counter_counting ps.length) (by omega)

/-! ## The key echo -/

/-- The key of the last wait that has ended is in `V0`. -/
def Keeps (σ : Sketch) (k : Key) : Prop :=
  σ.wait.last = some k ∧ σ.register 0 = k.val

/-- What there is to say of the key echo at each of its places. -/
inductive Echoes (σ : Sketch) : Prop where
  | waiting (hplace : σ.place = 0)
      (h : ∀ k, σ.wait.last = some k → σ.register 0 = k.val ∧ σ.shown = [keyGlyph k])
  | ended (k : Key) (hplace : σ.place = 1) (hkey : σ.Keeps k)
  | cleared (k : Key) (hplace : σ.place = 2) (hkey : σ.Keeps k) (hshown : σ.shown = [])
  | pointed (k : Key) (hplace : σ.place = 3) (hkey : σ.Keeps k) (hshown : σ.shown = [])
      (htarget : σ.target = .glyph k.val)
  | aligned (k : Key) (hplace : σ.place = 4) (hkey : σ.Keeps k) (hshown : σ.shown = [])
      (htarget : σ.target = .glyph k.val) (hx : σ.register 1 = 24)
  | placed (k : Key) (hplace : σ.place = 5) (hkey : σ.Keeps k) (hshown : σ.shown = [])
      (htarget : σ.target = .glyph k.val) (hx : σ.register 1 = 24) (hy : σ.register 2 = 12)
  | drawn (k : Key) (hplace : σ.place = 6) (hkey : σ.Keeps k) (hshown : σ.shown = [keyGlyph k])

theorem Keeps.setRegister {σ : Sketch} {k : Key} (h : σ.Keeps k) {r : Nat} (hr : r < 16)
    (hne : r ≠ 0) (v : Nat) : (σ.setRegister r v).Keeps k := by
  refine ⟨h.1, ?_⟩
  rw [register_setRegister _ hr, if_neg hne]
  exact h.2

/-- A cycle of the key echo executes the word at its place. -/
theorem next_keyEcho {σ : Sketch} {w : UInt16}
    (hw : [0xF00A, 0x00E0, 0xF029, 0x6118, 0x620C, 0xD125, 0x1200][σ.place]? = some w) (p : Keypad) :
    σ.next Program.keyEcho p = σ.execute ⟨w⟩ p := by
  rw [next, Program.keyEcho, instruction?_imageOf, hw]
  rfl

/-- A round of the wait stays at the wait, or it ends the wait with the candidate. -/
theorem Echoes.awaitKey {σ : Sketch} (hplace : σ.place = 0)
    (h : ∀ k, σ.wait.last = some k → σ.register 0 = k.val ∧ σ.shown = [keyGlyph k]) (p : Keypad) :
    (σ.awaitKey 0 p).Echoes := by
  unfold Sketch.awaitKey
  cases hk : σ.wait.candidate with
  | none =>
    refine .waiting hplace fun k hlast => h k ?_
    rwa [see, Wait.Status.see, hk] at hlast
  | some k =>
    cases hdown : p.isDown k with
    | true =>
      have hsee : σ.see p = σ := by simp only [see, Wait.Status.see, hk, hdown, if_true]
      simp only [hdown, if_true, hsee]
      exact .waiting hplace h
    | false =>
      simp only [hdown, Bool.false_eq_true, if_false]
      refine .ended k (congrArg (· + 1) hplace) ⟨?_, register_setRegister _ (by decide) 0 k.val⟩
      show (σ.wait.see p).last = some k
      simp only [Wait.Status.see, hk, hdown]
      rfl

/-- **One cycle of the key echo.**  What is said at one place leads to what is said at the next. -/
theorem Echoes.next {σ : Sketch} (h : σ.Echoes) (p : Keypad) :
    ∃ τ, σ.next Program.keyEcho p = some τ ∧ τ.Echoes := by
  cases h with
  | waiting hplace h =>
    exact ⟨σ.awaitKey 0 p, next_keyEcho (by rw [hplace]; rfl) p, .awaitKey hplace h p⟩
  | ended k hplace hkey =>
    refine ⟨{ σ.pass with shown := [] }, next_keyEcho (by rw [hplace]; rfl) p, ?_⟩
    exact .cleared k (congrArg (· + 1) hplace) hkey rfl
  | cleared k hplace hkey hshown =>
    refine ⟨σ.pass.point (.glyph (σ.register 0)), next_keyEcho (by rw [hplace]; rfl) p, ?_⟩
    exact .pointed k (congrArg (· + 1) hplace) hkey hshown (congrArg _ hkey.2)
  | pointed k hplace hkey hshown htarget =>
    refine ⟨σ.pass.setRegister 1 24, next_keyEcho (by rw [hplace]; rfl) p, ?_⟩
    refine .aligned k (congrArg (· + 1) hplace) ?_ hshown htarget ?_
    · exact Keeps.setRegister hkey (by decide) (by decide) 24
    · exact register_setRegister _ (by decide) 1 24
  | aligned k hplace hkey hshown htarget hx =>
    refine ⟨σ.pass.setRegister 2 12, next_keyEcho (by rw [hplace]; rfl) p, ?_⟩
    refine .placed k (congrArg (· + 1) hplace) ?_ hshown htarget ?_ ?_
    · exact Keeps.setRegister hkey (by decide) (by decide) 12
    · exact (register_setRegister _ (by decide) 1 12).trans hx
    · exact register_setRegister _ (by decide) 2 12
  | placed k hplace hkey hshown htarget hx hy =>
    have hdraw : σ.pass.draw (σ.register 1) (σ.register 2) 5 =
        some ((σ.pass.add (keyGlyph k)).setRegister flagRegister 0) := by
      rw [hx, hy]
      refine draw_of_glyph htarget ⟨k.isLt, by decide, by decide, ?_⟩
      show ∀ g ∈ σ.shown, _
      rw [hshown]
      exact List.forall_mem_nil _
    refine ⟨_, (next_keyEcho (w := 0xD125) (by rw [hplace]; rfl) p).trans hdraw, ?_⟩
    refine .drawn k (congrArg (· + 1) hplace) ?_ (congrArg (· ++ [_]) hshown)
    exact Keeps.setRegister hkey (by decide) (by decide) 0
  | drawn k hplace hkey hshown =>
    refine ⟨{ σ with place := 0 }, next_keyEcho (by rw [hplace]; rfl) p, ?_⟩
    refine .waiting rfl fun q hlast => ?_
    obtain rfl : k = q := Option.some.inj (hkey.1.symm.trans hlast)
    exact ⟨hkey.2, hshown⟩

theorem Echoes.at_head {σ : Sketch} (h : σ.Echoes) (hplace : σ.place = 0) {k : Key}
    (hlast : σ.wait.last = some k) : σ.register 0 = k.val ∧ σ.shown = [keyGlyph k] := by
  cases h with
  | waiting _ h => exact h k hlast
  | _ _ hother => omega

/-- The key echo can be followed for ever, and what is said at its places holds. -/
theorem course_keyEcho (ps : List Keypad) :
    ∃ σ, course Program.keyEcho ps = some σ ∧ σ.Echoes :=
  course_keeps (.waiting rfl nofun) (fun _ p h => h.next p) ps

/-- The key echo can be followed for ever. -/
theorem runs_keyEcho : Runs Program.keyEcho := fun ps =>
  let ⟨σ, hσ, _⟩ := course_keyEcho ps
  ⟨σ, hσ⟩

/-- Each bundled program can be followed for ever, and it is small. -/
theorem runs_of_mem_bundled {name : String} {image : List UInt8}
    (h : (name, image) ∈ Program.bundled) : Runs image ∧ image.length ≤ 0x100 := by
  rcases Program.mem_bundled.mp h with ⟨-, rfl⟩ | ⟨-, rfl⟩ | ⟨-, rfl⟩
  · exact ⟨runs_fontTable, by decide⟩
  · exact ⟨runs_decimalCounter, by decide⟩
  · exact ⟨runs_keyEcho, by decide⟩

end Sketch

/-! ## On the machine -/

namespace Session

open Program (tableGlyphs digitGlyphs keyGlyph)

variable {origin : Memory} {u : Session} {us : List Session}

namespace IsSketched

/-- From cycle 99 on the font table spins, with both rows on the screen. -/
theorem fontTable_spins (h : u.IsSketched Program.fontTable origin us) (hcycles : 99 ≤ u.cycles) :
    u.machine.pc = 0x222 ∧ u.machine.screen.Shows tableGlyphs := by
  obtain ⟨σ, hcourse, hσ, -⟩ := h.depicts
  have hlong : 99 ≤ (us.map (·.machine.keypad)).length := by
    rw [List.length_map, ← h.cycles]
    exact hcycles
  rw [Sketch.course_fontTable hlong] at hcourse
  obtain rfl := Option.some.inj hcourse
  exact ⟨hσ.pc, hσ.screen⟩

/-- Behind its first cycle and every sixteen cycles from there on, the counter is at the head of its loop;
it has counted its rounds modulo 256, and the screen shows the number of the last one. -/
theorem decimalCounter_counts (h : u.IsSketched Program.decimalCounter origin us) {k : Nat}
    (hcycles : u.cycles = 1 + 16 * k) :
    u.machine.pc = 0x202 ∧ u.machine.register 3 = (k % 256 : Nat) ∧
      (1 ≤ k → u.machine.screen.Shows (digitGlyphs ((k - 1) % 256))) := by
  obtain ⟨σ, hcourse, hσ, -⟩ := h.depicts
  rw [Sketch.course_eq_steps Sketch.neverWaits_decimalCounter, List.length_map, ← h.cycles,
    hcycles] at hcourse
  cases k with
  | zero =>
    obtain rfl := Option.some.inj hcourse
    exact ⟨hσ.pc, hσ.register 3, nofun⟩
  | succ k =>
    rw [Sketch.counter_counting] at hcourse
    obtain rfl := Option.some.inj hcourse
    exact ⟨hσ.pc, hσ.register 3, fun _ => hσ.screen⟩

/-- Whenever the key echo is at its wait and some wait has ended, `V0` has the key of the last one, and the
screen shows its glyph. -/
theorem keyEcho_echoes (h : u.IsSketched Program.keyEcho origin us) (hpc : u.machine.pc = 0x200)
    {k : Key} (hlast : Wait.LastEnds (roundsOf us) (some k)) :
    u.machine.register 0 = (k.val : Int) ∧ u.machine.screen.Shows [keyGlyph k] := by
  obtain ⟨σ, hcourse, hσ, hwait⟩ := h.depicts
  obtain ⟨τ, hcourse', hechoes⟩ := Sketch.course_keyEcho (us.map (·.machine.keypad))
  obtain rfl := Option.some.inj (hcourse.symm.trans hcourse')
  have hhead : σ.place = 0 := by
    have hplace := hσ.pc
    omega
  have hkey : σ.wait.last = some k := by rw [hwait, hlast.last_eq]
  obtain ⟨hregister, hshown⟩ := hechoes.at_head hhead hkey
  refine ⟨(hσ.register 0).trans ?_, ?_⟩
  · exact congrArg Nat.cast hregister
  · rw [← hshown]
    exact hσ.screen

end IsSketched

/-- **The bundled programs stay correct.**  A bundled program that is loaded into any session, of either
variant, is followed through any calls but loads and fetches outside any cycle.  All its cycles go well, and
neither has it called anything by then nor changed memory but where numbers are stored.  From cycle 99 on
the font table spins with both rows on the screen.  At the head of its loop the counter has counted its
rounds, and shows the number of the last one.  And at its wait the key echo shows the key with which the
last wait has ended. -/
theorem bundled_programs_stay_correct (s : Session) (patience : Nat) {cs : List Command}
    (hcs : ∀ c ∈ cs, c.IsDriving ∧ ¬ c.Boots) {name : String} {image : List UInt8}
    (hname : (name, image) ∈ Program.bundled) :
    ∃ t u us, s.load image = ⟨t, .ok ()⟩ ∧
      u = (t.performAll patience cs).1 ∧ us = t.cyclesAll patience cs ∧ u.cycles = us.length ∧
      (∀ v ∈ us, v.GoesWell t.machine.memory) ∧
      u.machine.stack = [] ∧ t.machine.memory.SameOutside u.machine.memory 0x300 3 ∧
      (name = "Font Table" → 99 ≤ u.cycles →
        u.machine.pc = 0x222 ∧ u.machine.screen.Shows tableGlyphs) ∧
      (name = "BCD Counter" → ∀ k, u.cycles = 1 + 16 * k →
        u.machine.pc = 0x202 ∧ u.machine.register 3 = (k % 256 : Nat) ∧
          (1 ≤ k → u.machine.screen.Shows (digitGlyphs ((k - 1) % 256)))) ∧
      (name = "Key Echo" → u.machine.pc = 0x200 →
        ∀ k, Wait.LastEnds (roundsOf us) (some k) →
          u.machine.register 0 = (k.val : Int) ∧ u.machine.screen.Shows [keyGlyph k]) := by
  obtain ⟨hruns, hfits⟩ := Sketch.runs_of_mem_bundled hname
  obtain ⟨t, hload, -, h⟩ := sketched_of_load hruns hfits s patience hcs
  obtain ⟨σ, -, hσ, -⟩ := h.depicts
  refine ⟨t, _, _, hload, rfl, rfl, h.cycles, h.well, hσ.stack, hσ.memory, ?_⟩
  rcases Program.mem_bundled.mp hname with ⟨rfl, rfl⟩ | ⟨rfl, rfl⟩ | ⟨rfl, rfl⟩
  · exact ⟨fun _ => h.fontTable_spins, nofun, nofun⟩
  · exact ⟨nofun, fun _ _ => h.decimalCounter_counts, nofun⟩
  · exact ⟨nofun, nofun, fun _ hpc _ => h.keyEcho_echoes hpc⟩

/-- A key echo that sees key 5 go down and up is back at its wait with a five on the screen. -/
theorem bundled_programs_echo_five :
    ∃ t, (Session.start ⟨.standard, .standard, false, none⟩ none (.ofList [])).load
        Program.keyEcho = ⟨t, .ok ()⟩ ∧
      let u := (t.performAll 0 [.pressKey 5, .step, .releaseKey 5, .run (some 7)]).1
      u.machine.register 0 = 5 ∧ u.machine.screen.Shows [⟨5, 24, 12⟩] := by
  have hdriving : ∀ c ∈ [Command.pressKey 5, .step, .releaseKey 5, .run (some 7)],
      c.IsDriving ∧ ¬ c.Boots := by
    simp only [List.forall_mem_cons]
    exact ⟨⟨trivial, id⟩, ⟨trivial, id⟩, ⟨trivial, id⟩, ⟨trivial, id⟩, nofun⟩
  obtain ⟨t, u, us, hload, hu, hus, -, -, -, -, -, -, hecho⟩ :=
    bundled_programs_stay_correct (.start ⟨.standard, .standard, false, none⟩ none (.ofList [])) 0
      hdriving (Program.mem_bundled.mpr (.inr (.inr ⟨rfl, rfl⟩)))
  obtain rfl : _ = t := congrArg Reply.session hload
  have hhead : u.machine.pc = 0x200 := by
    rw [hu]
    decide +kernel
  have hlast : Wait.LastEnds (roundsOf us) (some 5) := by
    rw [Wait.lastEnds_iff, hus]
    decide +kernel
  refine ⟨_, hload, ?_⟩
  rw [← hu]
  exact hecho rfl hhead 5 hlast

end Session

end Chip8
