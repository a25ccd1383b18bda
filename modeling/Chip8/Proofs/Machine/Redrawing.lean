/-
# Chip8.Proofs.Machine.Redrawing — draws in any order, and draws that are made twice.

A `SpriteDraw` is a word `DXYN` with the values that are set up for it: the index register, the column
and the row.  `Machine.drawAll` makes one draw after the other.  A draw flips a list of cells that depends
on the draw and on memory, but not on the screen, and so a whole list of draws flips the lists of its
draws one after the other (`drawAll_eq`).  Of flips only the parity counts: draws commute, and a draw that
is made twice, with whatever other draws in between, leaves no trace.

The flag does look at the screen.  A draw that is made twice in a row tells of the lit cells under the
sprite the first time, and of the dark ones the second time.
-/
import Chip8.Proofs.Machine.Drawing

namespace Chip8

/-! ## Draws -/

/-- A draw and what is set up for it. -/
structure SpriteDraw where
  /-- The word. -/
  instruction : Instruction
  /-- The value of the index register. -/
  index : Nat
  /-- The value of the first operand. -/
  column : Int
  /-- The value of the second operand. -/
  row : Int
  isDraw : (Row.family 0xD).Fits instruction
  /-- The flag register is no operand. -/
  spared : instruction.x ≠ flagRegister ∧ instruction.y ≠ flagRegister
  /-- One register has one value. -/
  agrees : instruction.x = instruction.y → column = row
  /-- The sprite lies inside memory. -/
  inside : index + instruction.nibble ≤ 4096

namespace SpriteDraw

/-- The machine with the values for a draw in its registers. -/
def aim (d : SpriteDraw) (m : Machine) : Machine :=
  { (m.setRegister d.instruction.x d.column).setRegister d.instruction.y d.row with index := d.index }

/-- Two draws of as many rows from the same address at the same place; their operands may be other
registers. -/
structure Same (d e : SpriteDraw) : Prop where
  height : e.instruction.nibble = d.instruction.nibble
  index : e.index = d.index
  column : e.column = d.column
  row : e.row = d.row

/-- The sprite of a draw covers some cell of the screen that holds this byte. -/
def Meets (d : SpriteDraw) (m : Machine) (b : UInt8) : Prop :=
  ∃ cx cy, cx < 64 ∧ cy < 32 ∧
    (d.aim m).SpriteCovers d.instruction.nibble (d.column % 64).toNat (d.row % 32).toNat cx cy ∧
    m.screen.cell cx cy = b

/-- The rows of the sprite. -/
def sprite (memory : Memory) (d : SpriteDraw) : List UInt8 :=
  memory.slice d.index (d.index + d.instruction.nibble)

/-- The cells that a draw flips. -/
def cells (memory : Memory) (d : SpriteDraw) : List Nat :=
  Sprite.cells (d.column % 64).toNat (d.row % 32).toNat (d.sprite memory)

theorem lt_of_mem_cells {d : SpriteDraw} {memory : Memory} {k : Nat} (h : k ∈ d.cells memory) :
    k < screenSize :=
  (Sprite.bounds_of_mem_cells h).2

theorem cells_eq_of_same {d e : SpriteDraw} (h : d.Same e) (memory : Memory) :
    e.cells memory = d.cells memory := by
  unfold cells sprite
  rw [h.height, h.index, h.column, h.row]

/-- What a draw leaves of a machine that is set up for it. -/
def drawn (d : SpriteDraw) (m : Machine) : Machine :=
  { m with screen := m.screen.flipAll (d.cells m.memory) }.setFlag
    (m.screen.anyOn (d.cells m.memory))

/-- The machine is set up for the draw. -/
structure Aimed (d : SpriteDraw) (m : Machine) : Prop where
  index : m.index = d.index
  column : m.register d.instruction.x = d.column
  row : m.register d.instruction.y = d.row

variable {d : SpriteDraw} {m : Machine}

theorem aimed_aim (d : SpriteDraw) (m : Machine) : d.Aimed (d.aim m) where
  index := rfl
  column := by
    show ((m.setRegister _ _).setRegister _ _).register _ = _
    rw [Machine.register_setRegister]
    split
    · next hxy => exact (d.agrees hxy.symm).symm
    · rw [Machine.register_setRegister, if_pos rfl]
  row := by
    show ((m.setRegister _ _).setRegister _ _).register _ = _
    rw [Machine.register_setRegister, if_pos rfl]

/-- A draw is executed on every machine that is set up for it. -/
theorem Aimed.execute (h : d.Aimed m) (variant : Variant) (source : ByteSource) :
    m.execute variant d.instruction source = .ok (d.drawn m, source) := by
  have hop : d.instruction.op = .draw := Instruction.op_of_fits rfl d.isDraw
  have hindex := h.index
  have hinside := d.inside
  have hstart : m.index.toNat = d.index := by omega
  have hstop : (m.index + d.instruction.nibble).toNat = d.index + d.instruction.nibble := by omega
  apply (Machine.execute_of_op hop (by decide)).mpr
  apply mapError_eq_ok_iff.mpr
  rw [m.drawSprite_eq (by omega), if_neg (by omega), hstart, hstop, h.column, h.row]
  simp only [Screen.draw_eq]
  rfl

/-- A draw sets no register but the flag, so that it can be made again. -/
theorem Aimed.drawn (h : d.Aimed m) : d.Aimed (d.drawn m) := by
  have hkept : ∀ r, r ≠ flagRegister → (d.drawn m).register r = m.register r := by
    intro r hr
    unfold SpriteDraw.drawn
    rw [Machine.register_setFlag, if_neg hr.symm]
    rfl
  refine ⟨h.index, ?_, ?_⟩
  · rw [hkept _ d.spared.1]
    exact h.column
  · rw [hkept _ d.spared.2]
    exact h.row

end SpriteDraw

namespace Machine

variable {m : Machine} {d : SpriteDraw} {variant : Variant} {source : ByteSource}

/-! ## Draws one after the other -/

/-- Makes draws one after the other, each with its own values set up in front of it. -/
def drawAll (variant : Variant) (m : Machine) (source : ByteSource) :
    List SpriteDraw → Except Failure (Machine × ByteSource)
  | [] => .ok (m, source)
  | d :: ds =>
    match (d.aim m).execute variant d.instruction source with
    | .error failure => .error failure
    | .ok (n, rest) => n.drawAll variant rest ds

/-- A list of draws flips the cells of its draws, whatever the screen shows. -/
theorem drawAll_eq (ds : List SpriteDraw) (m : Machine) (variant : Variant) (source : ByteSource) :
    ∃ n, m.drawAll variant source ds = .ok (n, source) ∧
      n.screen = m.screen.flipAll (ds.flatMap (SpriteDraw.cells m.memory)) := by
  induction ds generalizing m with
  | nil => exact ⟨m, rfl, rfl⟩
  | cons d ds ih =>
    obtain ⟨n, hn, hscreen⟩ := ih (d.drawn (d.aim m))
    refine ⟨n, ?_, ?_⟩
    · unfold drawAll
      rw [(d.aimed_aim m).execute variant source]
      exact hn
    · -- neither the values that are set up nor the draw change memory
      rw [hscreen, List.flatMap_cons]
      exact List.foldl_append.symm

/-- Draws that flip every cell with the same parity leave the same screen. -/
theorem drawAll_congr {ds es : List SpriteDraw} {n : Machine}
    (hn : m.drawAll variant source ds = .ok (n, source))
    (h : ∀ k, (es.flatMap (SpriteDraw.cells m.memory)).count k % 2 =
      (ds.flatMap (SpriteDraw.cells m.memory)).count k % 2) :
    ∃ k, m.drawAll variant source es = .ok (k, source) ∧ k.screen = n.screen := by
  have hbounds : ∀ fs : List SpriteDraw, ∀ k ∈ fs.flatMap (SpriteDraw.cells m.memory),
      k < screenSize := by
    intro fs k hk
    obtain ⟨d, -, hd⟩ := List.mem_flatMap.mp hk
    exact SpriteDraw.lt_of_mem_cells hd
  obtain ⟨n', hn', hscreen⟩ := drawAll_eq ds m variant source
  cases hn.symm.trans hn'
  obtain ⟨k, hk, hscreen'⟩ := drawAll_eq es m variant source
  refine ⟨k, hk, ?_⟩
  rw [hscreen, hscreen', m.screen.flipAll_congr (hbounds es) (hbounds ds) h]

/-- Draws commute. -/
theorem drawAll_perm {ds es : List SpriteDraw} {n : Machine}
    (hn : m.drawAll variant source ds = .ok (n, source)) (h : es.Perm ds) :
    ∃ k, m.drawAll variant source es = .ok (k, source) ∧ k.screen = n.screen := by
  apply drawAll_congr hn
  intro k
  rw [(h.flatMap_right _).count_eq k]

/-- A draw that is made twice leaves no trace, whatever is drawn in front, in between and behind. -/
theorem drawAll_insert_twice {front middle back : List SpriteDraw} {e : SpriteDraw} {n : Machine}
    (hn : m.drawAll variant source (front ++ middle ++ back) = .ok (n, source)) (h : d.Same e) :
    ∃ k, m.drawAll variant source (front ++ d :: middle ++ e :: back) = .ok (k, source) ∧
      k.screen = n.screen := by
  apply drawAll_congr hn
  intro k
  simp only [List.flatMap_append, List.flatMap_cons, List.count_append,
    SpriteDraw.cells_eq_of_same h]
  omega

/-! ## A draw that is made twice in a row -/

/-- A draw is made twice in a row, which leaves the machine first as `a` and then as `b`: the screen
returns, and the flag tells of the lit cells under the sprite and then of the dark ones. -/
structure DrawnTwice (variant : Variant) (source : ByteSource) (m : Machine) (d : SpriteDraw)
    (a b : Machine) : Prop where
  first : (d.aim m).execute variant d.instruction source = .ok (a, source)
  second : a.execute variant d.instruction source = .ok (b, source)
  screen : b.screen = m.screen
  lit : d.Meets m 1 → a.register flagRegister = 1
  noneLit : ¬ d.Meets m 1 → a.register flagRegister = 0
  dark : d.Meets m 0 → b.register flagRegister = 1
  noneDark : ¬ d.Meets m 0 → b.register flagRegister = 0

theorem register_flag_drawn (d : SpriteDraw) (m : Machine) :
    (d.drawn m).register flagRegister = if m.screen.anyOn (d.cells m.memory) then 1 else 0 := by
  unfold SpriteDraw.drawn
  rw [register_setFlag, if_pos rfl]

/-- The sprite that a draw reads covers what the machine that is set up for it says. -/
theorem covers_sprite_iff (d : SpriteDraw) (m : Machine) (x y cx cy : Nat) :
    Sprite.Covers (d.sprite m.memory) x y cx cy ↔
      (d.aim m).SpriteCovers d.instruction.nibble x y cx cy := by
  have hinside : (d.index : Int) + d.instruction.nibble ≤ 4096 := by
    have := d.inside
    omega
  exact covers_slice_iff (m := d.aim m) (Int.natCast_nonneg d.index) hinside x y cx cy

/-- A lit cell is covered if one of the cells of the draw is lit. -/
theorem anyOn_cells_iff_covers (s : Screen) (d : SpriteDraw) (memory : Memory) :
    s.anyOn (d.cells memory) = true ↔
      ∃ cx cy, cx < 64 ∧ cy < 32 ∧
        Sprite.Covers (d.sprite memory) (d.column % 64).toNat (d.row % 32).toNat cx cy ∧
          s.cell cx cy ≠ 0 := by
  have herases := s.draw_erases_iff (d.column % 64).toNat (d.row % 32).toNat (d.sprite memory)
  rwa [Screen.draw_eq] at herases

/-- On a screen of zeros and ones the first of two draws looks for ones. -/
theorem anyOn_cells_iff (hcells : m.screen.IsBinary) :
    m.screen.anyOn (d.cells m.memory) = true ↔ d.Meets m 1 := by
  simp only [anyOn_cells_iff_covers, covers_sprite_iff]
  constructor
  · rintro ⟨cx, cy, hx, hy, hcovers, hon⟩
    exact ⟨cx, cy, hx, hy, hcovers, (hcells _).resolve_left hon⟩
  · rintro ⟨cx, cy, hx, hy, hcovers, hone⟩
    refine ⟨cx, cy, hx, hy, hcovers, ?_⟩
    rw [hone]
    decide

/-- The second one looks for cells that the first one has turned on. -/
theorem anyOn_flipAll_cells_iff (hcells : m.screen.IsBinary) :
    (m.screen.flipAll (d.cells m.memory)).anyOn (d.cells m.memory) = true ↔ d.Meets m 0 := by
  rw [anyOn_cells_iff_covers]
  -- a covered cell is lit after the first draw if it was dark before
  have hflipped {cx cy : Nat} (hx : cx < 64) (hy : cy < 32)
      (hcovers : Sprite.Covers (d.sprite m.memory) (d.column % 64).toNat (d.row % 32).toNat cx cy) :
      (m.screen.flipAll (d.cells m.memory)).cell cx cy = m.screen.cell cx cy ^^^ 1 := by
    have hcell := m.screen.cell_draw (d.column % 64).toNat (d.row % 32).toNat
      (d.sprite m.memory) hx hy
    rwa [if_pos hcovers, Screen.draw_eq] at hcell
  constructor
  · rintro ⟨cx, cy, hx, hy, hcovers, hon⟩
    rw [hflipped hx hy hcovers] at hon
    refine ⟨cx, cy, hx, hy, (covers_sprite_iff d m _ _ _ _).mp hcovers, ?_⟩
    apply (hcells _).resolve_right
    intro hone
    exact hon (congrArg (· ^^^ 1) hone)
  · rintro ⟨cx, cy, hx, hy, hcovers, hzero⟩
    have hcovers' := (covers_sprite_iff d m _ _ _ _).mpr hcovers
    refine ⟨cx, cy, hx, hy, hcovers', ?_⟩
    rw [hflipped hx hy hcovers', hzero]
    decide

/-- On a screen of zeros and ones every draw can be made twice in a row. -/
theorem drawnTwice (hcells : m.screen.IsBinary) (d : SpriteDraw) (variant : Variant)
    (source : ByteSource) :
    DrawnTwice variant source m d (d.drawn (d.aim m)) (d.drawn (d.drawn (d.aim m))) := by
  have haimed := d.aimed_aim m
  have hone : m.screen.anyOn (d.cells m.memory) = true ↔ _ := anyOn_cells_iff hcells
  have hzero : _ ↔ d.Meets m 0 := anyOn_flipAll_cells_iff hcells
  have hfirst : (d.drawn (d.aim m)).register flagRegister =
      if m.screen.anyOn (d.cells m.memory) then 1 else 0 := register_flag_drawn d (d.aim m)
  have hsecond : (d.drawn (d.drawn (d.aim m))).register flagRegister =
      if (m.screen.flipAll (d.cells m.memory)).anyOn (d.cells m.memory) then 1 else 0 :=
    register_flag_drawn d (d.drawn (d.aim m))
  refine ⟨haimed.execute variant source, haimed.drawn.execute variant source, ?_, ?_, ?_, ?_, ?_⟩
  · exact m.screen.flipAll_flipAll fun _ => SpriteDraw.lt_of_mem_cells
  · intro hmeets
    rw [hfirst, if_pos (hone.mpr hmeets)]
  · intro hmisses
    rw [hfirst, if_neg (mt hone.mp hmisses)]
  · intro hmeets
    rw [hsecond, if_pos (hzero.mpr hmeets)]
  · intro hmisses
    rw [hsecond, if_neg (mt hzero.mp hmisses)]

/-! ## Draws as a whole -/

/-- **Draws commute and cancel.** On a screen of zeros and ones any list of draws can be made, and made
in any other order it leaves the same screen.  So it does with one more draw that is made twice, at any
two places.  A draw that is made twice in a row gives the screen back, and its flag tells of the lit cells
under the sprite and then of the dark ones. -/
theorem draws_commute_and_cancel (hcells : m.screen.IsBinary) (variant : Variant)
    (source : ByteSource) (ds : List SpriteDraw) :
    ∃ n, m.drawAll variant source ds = .ok (n, source) ∧
      (∀ es : List SpriteDraw, es.Perm ds →
        ∃ k, m.drawAll variant source es = .ok (k, source) ∧ k.screen = n.screen) ∧
      (∀ (front middle back : List SpriteDraw) (d e : SpriteDraw),
        ds = front ++ middle ++ back → d.Same e →
        ∃ k, m.drawAll variant source (front ++ d :: middle ++ e :: back) = .ok (k, source) ∧
          k.screen = n.screen) ∧
      ∀ d : SpriteDraw, ∃ a b, DrawnTwice variant source m d a b := by
  obtain ⟨n, hn, -⟩ := drawAll_eq ds m variant source
  refine ⟨n, hn, fun es hperm => drawAll_perm hn hperm, ?_, ?_⟩
  · rintro front middle back d e rfl hsame
    exact drawAll_insert_twice hn hsame
  · intro d
    exact ⟨_, _, drawnTwice hcells d variant source⟩

/-- Two draws that overlap in the lower right corner, one of them by other registers and with its column
beyond the screen, on a screen with one lit cell: they may be swapped, and the first of them, made
twice, turns the lit cell off and on again. -/
theorem draws_commute_and_cancel_corner :
    ∃ (m n k a b : Machine) (d e : SpriteDraw), m.screen.cell 62 31 = 1 ∧
      d.instruction = ⟨0xD012⟩ ∧ e.instruction = ⟨0xD343⟩ ∧ e.column = 124 ∧
      m.drawAll .standard (.ofList []) [d, e] = .ok (n, .ofList []) ∧
      m.drawAll .standard (.ofList []) [e, d] = .ok (k, .ofList []) ∧ k.screen = n.screen ∧
      DrawnTwice .standard (.ofList []) m d a b ∧ a.register flagRegister = 1 := by
  let m : Machine := { blank with
    memory := Memory.zeros.put 0x300 [0xFF, 0x81, 0x7E]
    screen := Screen.dark.flip (64 * 31 + 62) }
  let d : SpriteDraw := ⟨⟨0xD012⟩, 0x300, 62, 31, by decide, by decide, by decide, by decide⟩
  let e : SpriteDraw := ⟨⟨0xD343⟩, 0x301, 124, 30, by decide, by decide, by decide, by decide⟩
  have hbinary : m.screen.IsBinary := Screen.isBinary_flip Screen.isBinary_dark _
  obtain ⟨n, hn, hperm, -, htwice⟩ :=
    draws_commute_and_cancel hbinary .standard (.ofList []) [d, e]
  obtain ⟨k, hk, hscreen⟩ := hperm [e, d] (.swap d e [])
  obtain ⟨a, b, hab⟩ := htwice d
  have hmeets : d.Meets m 1 :=
    ⟨62, 31, by decide, by decide, by decide +kernel, by decide +kernel⟩
  exact ⟨m, n, k, a, b, d, e, by decide +kernel, rfl, rfl, rfl, hn, hk, hscreen, hab,
    hab.lit hmeets⟩

end Machine

end Chip8
