/-
# Chip8.Proofs.Screen.Picture — the screen can be read off its picture.

A picture is taken apart at its line ends (`Text.linesOf`).  With one character for each kind of cell it
then has a line for each row and a character for each cell (`linesOf_picture`), so a cell is on exactly
where the character for "on" stands; a screen of zeros and ones is known from its picture, and its
lit cells are counted in it.  A frame adds one line on two sides and one character on the other two, and
whatever the characters are, it comes off again (`unframed_picture`).
-/
import Chip8.Machine.Access
import Chip8.Proofs.Machine.Dump
import Chip8.Proofs.Screen.Sprite
import Chip8.Screen.Picture
import Mathlib.Algebra.GroupWithZero.Nat

namespace Chip8

/-! ## Lines of a text -/

namespace Text

/-- The lines of a text: what stands between its line ends. -/
def linesOf (text : String) : List (List Char) :=
  text.toList.splitOn '\n'

/-- The character in column `x` of line `y`. -/
def charAt? (text : String) (x y : Nat) : Option Char :=
  (linesOf text)[y]?.bind fun l => l[x]?

/-- A text without its first and last line, and each line without its first and last character. -/
def unframed (text : String) : String :=
  joinLines ((linesOf text).tail.dropLast.map fun l => String.ofList l.tail.dropLast)

/-- Lines that are joined come apart again, if none of them has a line end in it. -/
theorem linesOf_joinLines {ls : List String} (hne : ls ≠ []) (h : ∀ l ∈ ls, '\n' ∉ l.toList) :
    linesOf (joinLines ls) = ls.map String.toList := by
  have hjoin : (joinLines ls).toList = ['\n'].intercalate (ls.map String.toList) :=
    String.toList_intercalate
  rw [linesOf, hjoin]
  refine List.splitOn_intercalate '\n' ?_ (by simpa using hne)
  intro cs hcs
  obtain ⟨l, hl, rfl⟩ := List.mem_map.mp hcs
  exact h l hl

/-- A character that is no line end is counted line by line. -/
theorem count_joinLines {c : Char} (hc : c ≠ '\n') (ls : List String) :
    (joinLines ls).toList.count c = (ls.map fun l => l.toList.count c).sum := by
  have hjoin : (joinLines ls).toList = ['\n'].intercalate (ls.map String.toList) :=
    String.toList_intercalate
  have hend : ['\n'].count c = 0 := by
    simp [Ne.symm hc]
  rw [hjoin]
  clear hjoin
  induction ls with
  | nil => rfl
  | cons l ls ih =>
    cases ls with
    | nil => simp
    | cons l' ls =>
      rw [List.map_cons, List.map_cons, List.intercalate_cons_cons, ← List.map_cons,
        List.count_append, List.count_append, hend, ih]
      rfl

end Text

namespace Screen

/-! ## Rows of cells -/

/-- The cells with consecutive numbers on the screen. -/
theorem slice_eq (s : Screen) {start n : Nat} (h : start + n ≤ screenSize) :
    s.slice start (start + n) = (List.range n).map fun k => s.cellAt (start + k) := by
  have hsize : s.cells.toArray.size = screenSize := s.cells.size_toArray
  apply List.ext_getElem
  · simp only [slice, Array.length_toList, Array.size_extract, List.length_map, List.length_range]
    omega
  · intro k hk hk'
    have hin : start + k < s.cells.toArray.size := by
      rw [List.length_map, List.length_range] at hk'
      omega
    simp only [slice, Array.getElem_toList, Array.getElem_extract, List.getElem_map,
      List.getElem_range, cellAt, Array.getD_eq_getD_getElem?, Array.getElem?_eq_getElem hin,
      Option.getD_some]

/-- Row by row and column by column, the rows say which cells are on. -/
theorem rows_eq (s : Screen) :
    s.rows = (List.range 32).map fun y => (List.range 64).map fun x => s.isOn (64 * y + x) := by
  unfold rows screenHeight screenWidth
  apply List.map_congr_left
  intro y hy
  have hinside : 64 * y + 64 ≤ screenSize := by
    have := List.mem_range.mp hy
    show _ ≤ 2048
    omega
  rw [Nat.mul_succ, s.slice_eq hinside, List.map_map]
  rfl

theorem length_rows (s : Screen) : s.rows.length = 32 := by
  simp [rows_eq]

theorem length_of_mem_rows {s : Screen} {row : List Bool} (h : row ∈ s.rows) :
    row.length = 64 := by
  rw [rows_eq] at h
  obtain ⟨y, -, rfl⟩ := List.mem_map.mp h
  simp

/-- Column `x` of row `y` is the cell with number `64 * y + x`. -/
theorem rows_bind_getElem? (s : Screen) {x y : Nat} (hx : x < 64) (hy : y < 32) :
    (s.rows[y]?.bind fun row => row[x]?) = some (s.isOn (64 * y + x)) := by
  simp [rows_eq, hx, hy]

theorem isOn_eq_true_iff {s : Screen} (h : s.IsBinary) (k : Nat) :
    s.isOn k = true ↔ s.cellAt k = 1 := by
  rcases h k with h0 | h1
  · simp [isOn, h0]
  · simp [isOn, h1]

/-- Numbers up to `m * n` run through `m` rows of `n` columns. -/
theorem range_mul (m n : Nat) :
    List.range (m * n) = (List.range m).flatMap fun y => (List.range n).map fun x => n * y + x := by
  induction m with
  | zero => simp
  | succ m ih =>
    rw [Nat.succ_mul, List.range_add, ih, List.range_succ, List.flatMap_append]
    simp [Nat.mul_comm]

/-- The rows hold the cells one after the other. -/
theorem flatten_rows (s : Screen) : s.rows.flatten = s.toList.map (· != 0) := by
  have hcells : s.toList = (List.range (32 * 64)).map s.cellAt := by
    apply List.ext_getElem
    · rw [List.length_map, List.length_range]
      exact s.cells.length_toList
    · intro k hk _
      have hk' : k < screenSize := by simpa [toList] using hk
      simp [toList, cellAt, Array.getD_eq_getD_getElem?, hk']
  rw [hcells, range_mul, List.map_flatMap, List.map_flatMap]
  simp only [rows_eq, List.flatMap, List.map_map]
  rfl

/-- The sum of zeros and ones counts the ones. -/
theorem sum_eq_count {bs : List UInt8} (h : ∀ b ∈ bs, b = 0 ∨ b = 1) :
    bs.foldr (fun b n => b.toNat + n) 0 = (bs.map (· != 0)).count true := by
  induction bs with
  | nil => rfl
  | cons b bs ih =>
    obtain ⟨hb, hbs⟩ := List.forall_mem_cons.mp h
    rw [List.foldr_cons, ih hbs, List.map_cons, List.count_cons]
    rcases hb with rfl | rfl
    · simp
    · simp [Nat.add_comm]

/-- As many cells are on as there are in all rows. -/
theorem countOn_eq_sum {s : Screen} (h : s.IsBinary) :
    s.countOn = (s.rows.map fun row => row.count true).sum := by
  have hbits : ∀ b ∈ s.toList, b = 0 ∨ b = 1 := fun _ hb => h.mem_toList hb
  rw [countOn, sum_eq_count hbits, ← flatten_rows, List.count_flatten]

/-! ## The lines of a picture -/

section Picture

variable {on off : Char}

/-- The character of a cell. -/
def shownAs (on off : Char) (cell : Bool) : Char :=
  if cell then on else off

theorem shownAs_ne_newline (hon : on ≠ '\n') (hoff : off ≠ '\n') (cell : Bool) :
    shownAs on off cell ≠ '\n' := by
  cases cell
  · exact hoff
  · exact hon

theorem shownAs_eq_on_iff (hne : on ≠ off) (cell : Bool) :
    shownAs on off cell = on ↔ cell = true := by
  cases cell
  · simpa [shownAs] using Ne.symm hne
  · simp [shownAs]

theorem toList_line (row : List Bool) :
    (line (String.singleton on) (String.singleton off) row).toList = row.map (shownAs on off) := by
  rw [line, String.toList_join]
  induction row with
  | nil => rfl
  | cons cell row ih =>
    rw [List.map_cons, List.flatMap_cons, ih]
    cases cell <;> simp [shownAs]

/-- No line of the screen, framed or not, has a line end in it. -/
theorem newline_notMem_line (hon : on ≠ '\n') (hoff : off ≠ '\n') (row : List Bool) :
    '\n' ∉ (line (String.singleton on) (String.singleton off) row).toList := by
  rw [toList_line, List.mem_map]
  rintro ⟨cell, -, hcell⟩
  exact shownAs_ne_newline hon hoff cell hcell

/-- The lines of a picture are the rows of the screen. -/
theorem linesOf_picture (s : Screen) (hon : on ≠ '\n') (hoff : off ≠ '\n') :
    Text.linesOf (s.picture (String.singleton on) (String.singleton off) false) =
      s.rows.map fun row => row.map (shownAs on off) := by
  have hne : s.lines (String.singleton on) (String.singleton off) ≠ [] := by
    rw [lines, Ne, List.map_eq_nil_iff, ← List.length_eq_zero_iff, length_rows]
    decide
  have hlines : ∀ l ∈ s.lines (String.singleton on) (String.singleton off), '\n' ∉ l.toList := by
    intro l hl
    obtain ⟨row, -, rfl⟩ := List.mem_map.mp hl
    exact newline_notMem_line hon hoff row
  show Text.linesOf (Text.joinLines (s.lines (String.singleton on) (String.singleton off))) = _
  rw [Text.linesOf_joinLines hne hlines, lines, List.map_map]
  exact List.map_congr_left fun row _ => toList_line row

/-- The character of a cell stands where the cell is. -/
theorem charAt?_picture (s : Screen) (hon : on ≠ '\n') (hoff : off ≠ '\n') {x y : Nat} (hx : x < 64)
    (hy : y < 32) :
    Text.charAt? (s.picture (String.singleton on) (String.singleton off) false) x y =
      some (shownAs on off (s.isOn (64 * y + x))) := by
  have hcell := s.rows_bind_getElem? hx hy
  rw [Option.bind_eq_some_iff] at hcell
  obtain ⟨row, hrow, hcell⟩ := hcell
  simp [Text.charAt?, s.linesOf_picture hon hoff, hrow, hcell]

/-- The characters for "on" in a picture are as many as the lit cells. -/
theorem count_picture {s : Screen} (h : s.IsBinary) (hne : on ≠ off) (hon : on ≠ '\n') :
    (s.picture (String.singleton on) (String.singleton off) false).toList.count on = s.countOn := by
  have hrow (row : List Bool) :
      (line (String.singleton on) (String.singleton off) row).toList.count on = row.count true := by
    rw [toList_line, List.count_eq_countP, List.count_eq_countP, List.countP_map]
    refine List.countP_congr fun cell _ => ?_
    simpa using shownAs_eq_on_iff hne cell
  show (Text.joinLines (s.lines (String.singleton on) (String.singleton off))).toList.count on = _
  rw [Text.count_joinLines hon, lines, List.map_map, countOn_eq_sum h]
  exact congrArg List.sum (List.map_congr_left fun row _ => hrow row)

/-- A screen of zeros and ones is known from its picture. -/
theorem eq_of_picture_eq {s t : Screen} (hs : s.IsBinary) (ht : t.IsBinary) (hne : on ≠ off)
    (hon : on ≠ '\n') (hoff : off ≠ '\n')
    (h : s.picture (String.singleton on) (String.singleton off) false =
      t.picture (String.singleton on) (String.singleton off) false) : s = t := by
  apply ext_cell
  intro x y hx hy
  have hsame : shownAs on off (s.isOn (64 * y + x)) = shownAs on off (t.isOn (64 * y + x)) :=
    Option.some.inj <| (s.charAt?_picture hon hoff hx hy).symm.trans
      ((congrArg (Text.charAt? · _ _) h).trans (t.charAt?_picture hon hoff hx hy))
  have hiff : s.cell x y = 1 ↔ t.cell x y = 1 := by
    show s.cellAt (64 * y + x) = 1 ↔ t.cellAt (64 * y + x) = 1
    rw [← isOn_eq_true_iff hs, ← isOn_eq_true_iff ht, ← shownAs_eq_on_iff hne, hsame,
      shownAs_eq_on_iff hne]
  rcases hs (64 * y + x) with h0 | h1
  · rcases ht (64 * y + x) with h0' | h1'
    · exact h0.trans h0'.symm
    · exact (hiff.mpr h1').trans h1'.symm
  · exact h1.trans (hiff.mp h1).symm

/-! ## Frames -/

theorem toList_edge : edge.toList = '+' :: (List.replicate 64 '-' ++ ['+']) := by
  simp [edge, Text.rule, screenWidth]

/-- The lines of a framed picture: an edge, the rows between bars, and an edge. -/
theorem linesOf_framed (s : Screen) (hon : on ≠ '\n') (hoff : off ≠ '\n') :
    Text.linesOf (s.picture (String.singleton on) (String.singleton off) true) =
      edge.toList :: ((s.rows.map fun row => '|' :: (row.map (shownAs on off) ++ ['|'])) ++
        [edge.toList]) := by
  have hedge : '\n' ∉ edge.toList := by
    rw [toList_edge]
    simp
  have hframe : ∀ l ∈ frame (s.lines (String.singleton on) (String.singleton off)),
      '\n' ∉ l.toList := by
    intro l hl
    simp only [frame, List.cons_append, List.mem_cons, List.mem_append, List.mem_map,
      List.not_mem_nil, or_false] at hl
    rcases hl with rfl | ⟨inner, hinner, rfl⟩ | rfl
    · exact hedge
    · obtain ⟨row, -, rfl⟩ := List.mem_map.mp hinner
      simpa using newline_notMem_line hon hoff row
    · exact hedge
  show Text.linesOf (Text.joinLines (frame (s.lines _ _))) = _
  rw [Text.linesOf_joinLines (by simp [frame]) hframe]
  simp [frame, lines, toList_line, Function.comp_def]

theorem length_edge : edge.toList.length = 66 := by
  simp [toList_edge]

/-- A frame comes off again. -/
theorem unframed_picture (s : Screen) (hon : on ≠ '\n') (hoff : off ≠ '\n') :
    Text.unframed (s.picture (String.singleton on) (String.singleton off) true) =
      s.picture (String.singleton on) (String.singleton off) false := by
  have hline (row : List Bool) :
      String.ofList (row.map (shownAs on off)) =
        line (String.singleton on) (String.singleton off) row := by
    rw [← toList_line, String.ofList_toList]
  rw [Text.unframed, linesOf_framed s hon hoff]
  simp [Function.comp_def, hline, picture, lines]

end Picture

end Screen

namespace Machine

/-- A place on the screen is found by its column and its row. -/
theorem pixelAt_natCast (m : Machine) {x y : Nat} (hx : x < 64) (hy : y < 32) :
    m.pixelAt x y = .ok (m.screen.isOn (64 * y + x)) := by
  have hk : 64 * y + x < screenSize := by
    show 64 * y + x < 2048
    omega
  have hcast : (y : Int) * (screenWidth : Nat) + x = ((64 * y + x : Nat) : Int) := by
    unfold screenWidth
    omega
  rw [pixelAt, hcast, Position.resolve_natCast hk (by decide)]
  rfl

/-- **A picture shows the screen, all of it and nothing else.**  Take any screen of zeros and ones, and
any two characters that are different and no line ends.  Without a frame the picture has 32 lines of
64 characters, each of them one of the two; the one in column `x` of line `y` is the one for "on"
exactly if the host finds that place of the screen lit, which its rows say as well, and which means that
the cell with number `64 * y + x` is one.  No other such screen has the same picture, and the picture
has the character for "on" as often as there are lit cells.  With a frame the picture has 34 lines of 66
characters, and it is the picture without a frame once the outermost lines and characters are
taken off, also if one of the two characters is one that frames are made of. -/
theorem picture_shows_screen (m : Machine) (hcells : m.screen.IsBinary) {on off : Char}
    (hne : on ≠ off) (hon : on ≠ '\n') (hoff : off ≠ '\n') :
    let picture (s : Screen) := s.picture (String.singleton on) (String.singleton off)
    ((Text.linesOf (picture m.screen false)).length = 32 ∧
      ∀ l ∈ Text.linesOf (picture m.screen false), l.length = 64 ∧ ∀ c ∈ l, c = on ∨ c = off) ∧
    (∀ x y : Nat, x < 64 → y < 32 → ∃ (c : Char) (isLit : Bool),
      Text.charAt? (picture m.screen false) x y = some c ∧
      m.pixelAt x y = .ok isLit ∧
      (m.screen.rows[y]?.bind fun row => row[x]?) = some isLit ∧
      (c = on ↔ isLit = true) ∧
      (isLit = true ↔ m.screen.cellAt (64 * y + x) = 1)) ∧
    (∀ s : Screen, s.IsBinary → picture s false = picture m.screen false → s = m.screen) ∧
    m.screen.countOn = (picture m.screen false).toList.count on ∧
    ((Text.linesOf (picture m.screen true)).length = 34 ∧
      (∀ l ∈ Text.linesOf (picture m.screen true), l.length = 66) ∧
      Text.unframed (picture m.screen true) = picture m.screen false) := by
  intro picture
  have hlines := m.screen.linesOf_picture hon hoff
  have hframed := m.screen.linesOf_framed hon hoff
  refine ⟨⟨?_, ?_⟩, ?_, ?_, (Screen.count_picture hcells hne hon).symm, ?_, ?_,
    m.screen.unframed_picture hon hoff⟩
  · show (Text.linesOf (m.screen.picture _ _ false)).length = 32
    rw [hlines, List.length_map, Screen.length_rows]
  · intro l hl
    rw [hlines] at hl
    obtain ⟨row, hrow, rfl⟩ := List.mem_map.mp hl
    refine ⟨by rw [List.length_map, Screen.length_of_mem_rows hrow], fun c hc => ?_⟩
    obtain ⟨cell, -, rfl⟩ := List.mem_map.mp hc
    cases cell
    · exact Or.inr rfl
    · exact Or.inl rfl
  · intro x y hx hy
    exact ⟨_, _, m.screen.charAt?_picture hon hoff hx hy, m.pixelAt_natCast hx hy,
      m.screen.rows_bind_getElem? hx hy, Screen.shownAs_eq_on_iff hne _,
      Screen.isOn_eq_true_iff hcells _⟩
  · intro s hs hsame
    exact Screen.eq_of_picture_eq hs hcells hne hon hoff hsame
  · show (Text.linesOf (m.screen.picture _ _ true)).length = 34
    rw [hframed, List.length_cons, List.length_append, List.length_map, Screen.length_rows]
    rfl
  · intro l hl
    rw [hframed] at hl
    simp only [List.mem_cons, List.mem_append, List.mem_map, List.not_mem_nil, or_false] at hl
    rcases hl with rfl | ⟨row, hrow, rfl⟩ | rfl
    · exact Screen.length_edge
    · simp [Screen.length_of_mem_rows hrow]
    · exact Screen.length_edge

/-- A screen with one lit cell in its lower right corner, shown with two characters that frames are made
of: the corner of the picture shows it, and the frame comes off. -/
theorem picture_shows_corner :
    ∃ m : Machine, m.screen.IsBinary ∧ '|' ≠ '-' ∧ '|' ≠ '\n' ∧ '-' ≠ '\n' ∧
      m.screen.cellAt 2047 = 1 ∧
      Text.charAt? (m.screen.picture (String.singleton '|') (String.singleton '-') false) 63 31 =
        some '|' ∧
      Text.unframed (m.screen.picture (String.singleton '|') (String.singleton '-') true) =
        m.screen.picture (String.singleton '|') (String.singleton '-') false := by
  let m : Machine := { blank with screen := Screen.dark.flip 2047 }
  have hbinary : m.screen.IsBinary := Screen.isBinary_flip Screen.isBinary_dark _
  have hlit : m.screen.cellAt 2047 = 1 := by
    rw [Screen.cellAt_flip _ _ _ (by decide), if_pos rfl]
    decide +kernel
  obtain ⟨-, hcell, -, -, -, -, hframe⟩ :=
    picture_shows_screen m hbinary (show '|' ≠ '-' by decide) (by decide) (by decide)
  obtain ⟨c, isLit, hc, -, -, hchar, hiff⟩ := hcell 63 31 (by decide) (by decide)
  obtain rfl : c = '|' := hchar.mpr (hiff.mpr hlit)
  exact ⟨m, hbinary, by decide, by decide, by decide, hlit, hc, hframe⟩

end Machine

end Chip8
