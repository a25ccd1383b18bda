/-
# Chip8.Proofs.Screen.Glyphs — screens that show glyphs and nothing else.

A glyph of the font stands in a box of four by five cells (`Glyph.bounds_of_covers`).  A screen shows a
list of glyphs if a cell is one under a set bit of one of them and zero elsewhere (`Screen.Shows`), which
leaves one screen only (`Shows.unique`).  A glyph drawn apart from those that are shown joins them, and
nothing goes off (`Shows.draw`).
-/
import Chip8.Font
import Chip8.Proofs.Screen.Sprite

namespace Chip8

/-! ## Glyphs in their places -/

/-- The glyph of a digit with its upper left corner in a place of the screen. -/
structure Glyph where
  digit : Nat
  /-- The column of its corner. -/
  x : Nat
  /-- The row of its corner. -/
  y : Nat
  deriving DecidableEq

namespace Glyph

/-- The glyph has a set bit over the cell in column `cx` of row `cy`. -/
def Covers (g : Glyph) (cx cy : Nat) : Prop :=
  Sprite.Covers (Font.glyph g.digit) g.x g.y cx cy

instance (g : Glyph) (cx cy : Nat) : Decidable (g.Covers cx cy) :=
  inferInstanceAs (Decidable (Sprite.Covers _ _ _ _ _))

/-- The boxes of two glyphs have no cell in common. -/
def IsApart (g h : Glyph) : Prop :=
  g.x + 4 ≤ h.x ∨ h.x + 4 ≤ g.x ∨ g.y + 5 ≤ h.y ∨ h.y + 5 ≤ g.y

instance (g h : Glyph) : Decidable (g.IsApart h) :=
  inferInstanceAs (Decidable (_ ∨ _))

/-- The right half of a font row is empty. -/
theorem rowBit_eq_false {row : UInt8} (hrow : row ∈ Font.bytes) {c : Nat} (hc : 4 ≤ c) :
    Sprite.rowBit row c = false := by
  have hlow : row.toNat % 16 = 0 :=
    (by decide +kernel : ∀ b ∈ Font.bytes, b.toNat % 16 = 0) row hrow
  obtain ⟨q, hq⟩ : ∃ q, row.toNat = 2 ^ 4 * q := ⟨row.toNat / 16, by omega⟩
  have hbit : ¬ 7 - c ≥ 4 := by omega
  rw [Sprite.rowBit, hq, Nat.testBit_two_pow_mul, decide_eq_false hbit, Bool.false_and]

/-- A glyph stays within its box. -/
theorem bounds_of_covers {g : Glyph} {cx cy : Nat} (h : g.Covers cx cy) :
    (g.x ≤ cx ∧ cx < g.x + 4) ∧ g.y ≤ cy ∧ cy < g.y + 5 := by
  obtain ⟨⟨hy, hrow⟩, ⟨hx, -⟩, hbit⟩ := h
  have hlen : (Font.glyph g.digit).length ≤ 5 := List.length_take_le _ _
  have hmem : (Font.glyph g.digit).getD (cy - g.y) 0 ∈ Font.bytes := by
    rw [List.getD_eq_getElem?_getD, List.getElem?_eq_getElem hrow, Option.getD_some]
    exact List.mem_of_mem_drop (List.mem_of_mem_take (List.getElem_mem hrow))
  have hleft : cx - g.x < 4 := by
    refine Nat.lt_of_not_le fun hright => ?_
    rw [rowBit_eq_false hmem hright] at hbit
    cases hbit
  omega

/-- Glyphs that are apart cover no cell together. -/
theorem IsApart.not_covers {g h : Glyph} (hapart : g.IsApart h) {cx cy : Nat}
    (hg : g.Covers cx cy) : ¬ h.Covers cx cy := by
  intro hh
  have hboxes := And.intro (bounds_of_covers hg) (bounds_of_covers hh)
  unfold IsApart at hapart
  omega

end Glyph

/-! ## Screens of glyphs -/

namespace Screen

/-- The screen shows these glyphs and nothing else. -/
def Shows (s : Screen) (gs : List Glyph) : Prop :=
  ∀ cx cy, cx < 64 → cy < 32 → s.cell cx cy = if ∃ g ∈ gs, g.Covers cx cy then 1 else 0

/-- No two screens show the same glyphs. -/
theorem Shows.unique {s t : Screen} {gs : List Glyph} (hs : s.Shows gs) (ht : t.Shows gs) :
    s = t := by
  apply ext_cell
  intro cx cy hx hy
  rw [hs cx cy hx hy, ht cx cy hx hy]

theorem shows_dark : dark.Shows [] := by
  intro cx cy _ _
  simp only [cell, dark, cellAt, Vector.toArray_replicate, Array.getD_eq_getD_getElem?,
    Array.getElem?_replicate]
  split <;> simp

/-- A glyph that is drawn apart from all others joins them, and no cell goes off. -/
theorem Shows.draw {s : Screen} {gs : List Glyph} (h : s.Shows gs) (g : Glyph)
    (hapart : ∀ g' ∈ gs, g'.IsApart g) :
    (s.draw g.x g.y (Font.glyph g.digit)).1.Shows (gs ++ [g]) ∧
      (s.draw g.x g.y (Font.glyph g.digit)).2 = false := by
  -- under the glyph everything is dark
  have hdark {cx cy : Nat} (hx : cx < 64) (hy : cy < 32) (hcovers : g.Covers cx cy) :
      s.cell cx cy = 0 := by
    rw [h cx cy hx hy, if_neg]
    rintro ⟨g', hg', hcovers'⟩
    exact (hapart g' hg').not_covers hcovers' hcovers
  constructor
  · intro cx cy hx hy
    have hcell : _ = s.cell cx cy ^^^ if g.Covers cx cy then 1 else 0 :=
      s.cell_draw g.x g.y (Font.glyph g.digit) hx hy
    rw [hcell]
    by_cases hcovers : g.Covers cx cy
    · rw [hdark hx hy hcovers, if_pos hcovers,
        if_pos ⟨g, List.mem_append_right gs (List.mem_singleton_self g), hcovers⟩]
      rfl
    · have hsame : (∃ g' ∈ gs ++ [g], g'.Covers cx cy) ↔ ∃ g' ∈ gs, g'.Covers cx cy := by
        simp only [List.mem_append, List.mem_singleton, or_and_right, exists_or, exists_eq_left,
          hcovers, or_false]
      rw [h cx cy hx hy, if_neg hcovers, UInt8.xor_zero]
      simp only [hsame]
  · rw [← Bool.not_eq_true, s.draw_erases_iff]
    rintro ⟨cx, cy, hx, hy, hcovers, hlit⟩
    exact hlit (hdark hx hy hcovers)

end Screen

end Chip8
