/-
# Chip8.Proofs.Screen.Sprite — the cells under a sprite, and what drawing makes of each cell.

`Sprite.cells` lists the cells that a sprite is drawn on, row by row and column by column.
`Sprite.Covers` looks at one cell by its column and its row: the sprite has a set bit over it, when the
distances from the corner of the sprite pick the row and the column of that bit.  The list holds the cells
of the screen that are covered and no others (`mem_cells_iff`), and each of them once (`nodup_cells`).

Drawing goes through rows and columns and stops at the edges; what it touches on its way are the cells of
the list (`drawRows_eq_foldl`).  As no cell comes up again, each of them is found as it was before the
draw, so a draw flips the list and tells whether the screen before had one of its cells on (`draw_eq`).

What flips make of a cell is a matter of how often it is flipped (`cellAt_flipAll`), and so a drawn cell
has changed exactly if it is covered (`cell_draw`).  A lit cell goes off under every set bit, which is
what a draw reports (`draw_erases_iff`).
-/
import Chip8.Screen
import Mathlib.Data.List.Nodup

namespace Chip8

/-! ## The cells of a sprite -/

namespace Sprite

/-- The cells under the set bits of `n` columns of a sprite row from column `c` on, as far as they lie on
the screen, when the row has its left end at `(x, y)`. -/
def columnCells (row : UInt8) (x y c n : Nat) : List Nat :=
  ((List.range' c n).filter fun c => decide (x + c < screenWidth) && rowBit row c).map
    fun c => screenWidth * y + (x + c)

/-- The cells that one sprite row covers with set bits, when its left end is at `(x, y)`. -/
def rowCells (row : UInt8) (x y : Nat) : List Nat :=
  if y < screenHeight then columnCells row x y 0 8 else []

/-- The cells under the set bits of the visible part of a sprite, when its corner is at `(x, y)`. -/
def cells (x y : Nat) : List UInt8 → List Nat
  | [] => []
  | row :: rest => rowCells row x y ++ cells x (y + 1) rest

/-- The sprite with its corner at `(x, y)` has a set bit over the cell in column `cx` of row `cy`. -/
def Covers (sprite : List UInt8) (x y cx cy : Nat) : Prop :=
  (y ≤ cy ∧ cy - y < sprite.length) ∧ (x ≤ cx ∧ cx - x < 8) ∧
    rowBit (sprite.getD (cy - y) 0) (cx - x) = true

instance (sprite : List UInt8) (x y cx cy : Nat) : Decidable (Covers sprite x y cx cy) :=
  inferInstanceAs (Decidable (_ ∧ _))

variable {row : UInt8} {sprite : List UInt8} {x y cx cy k : Nat}

/-- A cell is covered by the first row of a sprite, or by the rows below it. -/
theorem covers_cons :
    Covers (row :: sprite) x y cx cy ↔
      (cy = y ∧ (x ≤ cx ∧ cx - x < 8) ∧ rowBit row (cx - x) = true) ∨
        Covers sprite x (y + 1) cx cy := by
  unfold Covers
  rw [List.length_cons]
  by_cases hy : cy = y
  · subst hy
    have hbelow : ¬ cy + 1 ≤ cy := by omega
    simp only [Nat.le_refl, Nat.sub_self, Nat.succ_pos, List.getD_cons_zero, hbelow, true_and,
      false_and, or_false]
  · by_cases hlt : y + 1 ≤ cy
    · have hle : y ≤ cy := by omega
      rw [show cy - y = cy - (y + 1) + 1 by omega, List.getD_cons_succ]
      simp only [hy, hlt, hle, Nat.add_lt_add_iff_right, true_and, false_and, false_or]
    · have hgt : ¬ y ≤ cy := by omega
      simp only [hy, hlt, hgt, false_and, or_false]

/-- The cells of a row lie in its row of the screen, each under its own column of the row. -/
theorem mem_rowCells_iff :
    k ∈ rowCells row x y ↔
      y < 32 ∧ ∃ c, c < 8 ∧ x + c < 64 ∧ rowBit row c = true ∧ k = 64 * y + (x + c) := by
  unfold rowCells columnCells screenHeight screenWidth
  rw [← List.range_eq_range']
  split
  · next hy =>
    simp only [List.mem_map, List.mem_filter, List.mem_range, Bool.and_eq_true, decide_eq_true_eq]
    constructor
    · rintro ⟨c, ⟨hc, hx, hbit⟩, rfl⟩
      exact ⟨hy, c, hc, hx, hbit, rfl⟩
    · rintro ⟨-, c, hc, hx, hbit, rfl⟩
      exact ⟨c, ⟨hc, hx, hbit⟩, rfl⟩
  · next hy =>
    simp only [List.not_mem_nil, hy, false_and]

/-- The cells of a sprite are cells of the screen, and no row of the sprite goes above its corner. -/
theorem bounds_of_mem_cells (h : k ∈ cells x y sprite) : 64 * y ≤ k ∧ k < screenSize := by
  induction sprite generalizing y with
  | nil => cases h
  | cons row rest ih =>
    rcases List.mem_append.mp h with hrow | hrest
    · obtain ⟨hy, c, -, hx, -, rfl⟩ := mem_rowCells_iff.mp hrow
      show 64 * y ≤ 64 * y + (x + c) ∧ 64 * y + (x + c) < 2048
      omega
    · obtain ⟨hlo, hhi⟩ := ih hrest
      exact ⟨by omega, hhi⟩

/-- The cells of a sprite are those of the screen that it covers: what lies beyond an edge is cut off,
and nothing comes back on the other side. -/
theorem mem_cells_iff (hx : cx < 64) :
    64 * cy + cx ∈ cells x y sprite ↔ cy < 32 ∧ Covers sprite x y cx cy := by
  induction sprite generalizing y with
  | nil => simp [cells, Covers]
  | cons row rest ih =>
    have hrow : 64 * cy + cx ∈ rowCells row x y ↔
        cy < 32 ∧ cy = y ∧ (x ≤ cx ∧ cx - x < 8) ∧ rowBit row (cx - x) = true := by
      rw [mem_rowCells_iff]
      constructor
      · rintro ⟨hy, c, hc, hxc, hbit, hk⟩
        -- a column is less than a row is wide, so row and column can be read off the number
        obtain rfl : cy = y := by omega
        obtain rfl : cx = x + c := by omega
        rw [Nat.add_sub_cancel_left]
        exact ⟨hy, rfl, ⟨Nat.le_add_right x c, hc⟩, hbit⟩
      · rintro ⟨hy, rfl, ⟨hle, hc⟩, hbit⟩
        exact ⟨hy, cx - x, hc, by omega, hbit, by omega⟩
    rw [cells, List.mem_append, hrow, ih, covers_cons]
    exact and_or_left.symm

/-- Below the screen there are no cells. -/
theorem cells_of_le (h : screenHeight ≤ y) : cells x y sprite = [] := by
  rw [List.eq_nil_iff_forall_not_mem]
  intro k hk
  obtain ⟨hlo, hhi⟩ := bounds_of_mem_cells hk
  change 32 ≤ y at h
  change k < 2048 at hhi
  omega

theorem nodup_rowCells : (rowCells row x y).Nodup := by
  unfold rowCells columnCells
  split
  · refine ((List.nodup_range' (n := 8)).filter _).map ?_
    intro a b hab
    dsimp only at hab
    omega
  · exact List.nodup_nil

/-- No cell is listed twice. -/
theorem nodup_cells : (cells x y sprite).Nodup := by
  induction sprite generalizing y with
  | nil => exact List.nodup_nil
  | cons row rest ih =>
    refine List.nodup_append'.mpr ⟨nodup_rowCells, ih, ?_⟩
    -- the rest of the sprite stays below the row
    intro k hrow hrest
    obtain ⟨-, c, -, hx, -, rfl⟩ := mem_rowCells_iff.mp hrow
    have hlo := (bounds_of_mem_cells hrest).1
    omega

end Sprite

/-! ## Flips -/

namespace Screen

/-- Flips cells one after the other. -/
def flipAll (s : Screen) (is : List Nat) : Screen :=
  is.foldl flip s

/-- Whether one of the given cells is on. -/
def anyOn (s : Screen) (is : List Nat) : Bool :=
  is.any s.isOn

/-- The byte of the cell in column `cx` of row `cy`. -/
def cell (s : Screen) (cx cy : Nat) : UInt8 :=
  s.cellAt (screenWidth * cy + cx)

/-- Screens are the same if they have the same cells, column by column and row by row. -/
theorem ext_cell {s t : Screen}
    (h : ∀ cx cy, cx < 64 → cy < 32 → s.cell cx cy = t.cell cx cy) : s = t := by
  apply ext_cellAt
  intro k hk
  -- every number of a cell has a column and a row
  have hk' : k < 2048 := hk
  have hnumber : 64 * (k / 64) + k % 64 = k := Nat.div_add_mod k 64
  have hcell : s.cellAt (64 * (k / 64) + k % 64) = t.cellAt (64 * (k / 64) + k % 64) :=
    h (k % 64) (k / 64) (Nat.mod_lt k (by decide)) (by omega)
  rwa [hnumber] at hcell

/-- A second flip takes the first one back. -/
theorem flipped_twice (b : UInt8) : b ^^^ 1 ^^^ 1 = b := by
  rw [UInt8.xor_assoc, UInt8.xor_self, UInt8.xor_zero]

/-- Of flips one after the other a cell keeps the parity. -/
theorem cellAt_flipAll (s : Screen) {js : List Nat} (hjs : ∀ j ∈ js, j < screenSize) (k : Nat) :
    (s.flipAll js).cellAt k = if js.count k % 2 = 1 then s.cellAt k ^^^ 1 else s.cellAt k := by
  induction js generalizing s with
  | nil => rfl
  | cons j js ih =>
    obtain ⟨hj, hrest⟩ := List.forall_mem_cons.mp hjs
    show ((s.flip j).flipAll js).cellAt k = _
    rw [ih (s.flip j) hrest, cellAt_flip s j k hj, List.count_cons]
    by_cases hk : j = k
    · subst hk
      simp only [reduceIte, beq_self_eq_true, flipped_twice]
      by_cases hodd : js.count j % 2 = 1
      · rw [if_pos hodd, if_neg (by omega)]
      · rw [if_neg hodd, if_pos (by omega)]
    · simp only [if_neg hk, beq_iff_eq, Nat.add_zero]

/-- Flips of cells of the screen may be reordered, and pairs of the same flip may be left out: two lists
that flip every cell with the same parity make the same screen. -/
theorem flipAll_congr (s : Screen) {js ks : List Nat} (hjs : ∀ j ∈ js, j < screenSize)
    (hks : ∀ k ∈ ks, k < screenSize) (h : ∀ k, js.count k % 2 = ks.count k % 2) :
    s.flipAll js = s.flipAll ks := by
  apply ext_cellAt
  intro k _
  rw [s.cellAt_flipAll hjs, s.cellAt_flipAll hks, h k]

/-- Flips that are made a second time take the first ones back. -/
theorem flipAll_flipAll (s : Screen) {js : List Nat} (hjs : ∀ j ∈ js, j < screenSize) :
    (s.flipAll js).flipAll js = s := by
  have htwice : (s.flipAll js).flipAll js = s.flipAll (js ++ js) := List.foldl_append.symm
  rw [htwice]
  show s.flipAll (js ++ js) = s.flipAll []
  apply s.flipAll_congr
  · simpa using hjs
  · simp
  · intro k
    rw [List.count_append, List.count_nil]
    omega

/-! ## Draws -/

/-- A flip leaves the other cells. -/
theorem isOn_flip_of_ne (s : Screen) {j k : Nat} (h : j ≠ k) : (s.flip j).isOn k = s.isOn k := by
  by_cases hj : j < screenSize
  · rw [isOn, cellAt_flip s j k hj, if_neg h]
    rfl
  · rw [s.flip_of_le (Nat.le_of_not_lt hj)]

/-- Touching cells that differ flips them all and finds each of them as it was before. -/
theorem foldl_touch {js : List Nat} (hjs : js.Nodup) (drawn : Screen × Bool) :
    js.foldl touch drawn = (drawn.1.flipAll js, drawn.2 || drawn.1.anyOn js) := by
  induction js generalizing drawn with
  | nil => simp [flipAll, anyOn]
  | cons j js ih =>
    obtain ⟨hj, hrest⟩ := List.nodup_cons.mp hjs
    -- none of the cells behind the first one is the first one again
    have hsame : (drawn.1.flip j).anyOn js = drawn.1.anyOn js := by
      rw [anyOn, anyOn, Bool.eq_iff_iff, List.any_eq_true, List.any_eq_true]
      refine exists_congr fun k => and_congr_right fun hk => ?_
      rw [isOn_flip_of_ne]
      rintro rfl
      exact hj hk
    rw [List.foldl_cons, ih hrest]
    show (_, _ || (drawn.1.flip j).anyOn js) = _
    rw [hsame, touch, Bool.or_assoc]
    rfl

/-- The columns of a row are touched up to the right edge, where the rest of them would lie beyond. -/
theorem drawColumns_eq_foldl (row : UInt8) (x y c : Nat) (drawn : Screen × Bool) (n : Nat) :
    drawColumns row x y c drawn n = (Sprite.columnCells row x y c n).foldl touch drawn := by
  induction n generalizing c drawn with
  | zero => rfl
  | succ n ih =>
    unfold drawColumns Sprite.columnCells
    split
    · next hedge =>
      have hnone : ((List.range' c (n + 1)).filter fun c =>
          decide (x + c < screenWidth) && Sprite.rowBit row c) = [] := by
        rw [List.filter_eq_nil_iff]
        intro c' hc'
        have hle := (List.mem_range'_1.mp hc').1
        have hbeyond : ¬ x + c' < screenWidth := by omega
        simp [hbeyond]
      rw [hnone]
      rfl
    · next hinside =>
      rw [ih, ih, List.range'_succ, List.filter_cons]
      have hlt : x + c < screenWidth := Nat.lt_of_not_le hinside
      cases hbit : Sprite.rowBit row c with
      | true => simp [hlt, Sprite.columnCells]
      | false => simp [Sprite.columnCells]

theorem drawRows_eq_foldl (x y : Nat) (drawn : Screen × Bool) (sprite : List UInt8) :
    drawRows x y drawn sprite = (Sprite.cells x y sprite).foldl touch drawn := by
  induction sprite generalizing y drawn with
  | nil => rfl
  | cons row rest ih =>
    unfold drawRows
    split
    · next hedge =>
      rw [Sprite.cells_of_le hedge]
      rfl
    · next hinside =>
      rw [ih, drawColumns_eq_foldl, Sprite.cells, Sprite.rowCells, if_pos (Nat.lt_of_not_le hinside),
        List.foldl_append]

/-- A draw flips the cells of the sprite, and tells whether one of them was on. -/
theorem draw_eq (s : Screen) (x y : Nat) (sprite : List UInt8) :
    s.draw x y sprite =
      (s.flipAll (Sprite.cells x y sprite), s.anyOn (Sprite.cells x y sprite)) := by
  rw [draw, drawRows_eq_foldl, foldl_touch Sprite.nodup_cells, Bool.false_or]

/-- Drawing changes the cells that the sprite covers and no others. -/
theorem cell_draw (s : Screen) (x y : Nat) (sprite : List UInt8) {cx cy : Nat} (hx : cx < 64)
    (hy : cy < 32) :
    (s.draw x y sprite).1.cell cx cy =
      s.cell cx cy ^^^ if Sprite.Covers sprite x y cx cy then 1 else 0 := by
  have hmem : 64 * cy + cx ∈ Sprite.cells x y sprite ↔ _ := Sprite.mem_cells_iff hx
  rw [draw_eq]
  show (s.flipAll (Sprite.cells x y sprite)).cellAt (64 * cy + cx) = s.cellAt (64 * cy + cx) ^^^ _
  rw [s.cellAt_flipAll fun j hj => (Sprite.bounds_of_mem_cells hj).2]
  by_cases hcovers : Sprite.Covers sprite x y cx cy
  · have hone := List.count_eq_one_of_mem Sprite.nodup_cells (hmem.mpr ⟨hy, hcovers⟩)
    rw [if_pos hcovers, hone, if_pos rfl]
  · have hnone := List.count_eq_zero.mpr fun h => hcovers (hmem.mp h).2
    rw [if_neg hcovers, hnone, if_neg (by decide), UInt8.xor_zero]

/-- A draw reports whether a lit cell was covered. -/
theorem draw_erases_iff (s : Screen) (x y : Nat) (sprite : List UInt8) :
    (s.draw x y sprite).2 = true ↔
      ∃ cx cy, cx < 64 ∧ cy < 32 ∧ Sprite.Covers sprite x y cx cy ∧ s.cell cx cy ≠ 0 := by
  rw [draw_eq]
  show ((Sprite.cells x y sprite).any s.isOn) = true ↔ _
  rw [List.any_eq_true]
  constructor
  · rintro ⟨k, hk, hon⟩
    have hsize : k < 2048 := (Sprite.bounds_of_mem_cells hk).2
    -- every number of a cell has a column and a row
    have hnumber : 64 * (k / 64) + k % 64 = k := Nat.div_add_mod k 64
    have hx : k % 64 < 64 := Nat.mod_lt k (by decide)
    rw [← hnumber] at hk
    obtain ⟨hy, hcovers⟩ := (Sprite.mem_cells_iff hx).mp hk
    refine ⟨k % 64, k / 64, hx, hy, hcovers, ?_⟩
    show s.cellAt (64 * (k / 64) + k % 64) ≠ 0
    rw [hnumber]
    exact bne_iff_ne.mp hon
  · rintro ⟨cx, cy, hx, hy, hcovers, hon⟩
    exact ⟨64 * cy + cx, (Sprite.mem_cells_iff hx).mpr ⟨hy, hcovers⟩, bne_iff_ne.mpr hon⟩

end Screen

end Chip8
