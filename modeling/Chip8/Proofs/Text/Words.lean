/-
# Chip8.Proofs.Text.Words — how the words of a text come apart.

A separator splits a text in two: the words are those in front of it, then those behind it.  A run of
separators has no words, and a run without separators is one word, so a text that is put together from
words and gaps comes apart into these words again.
-/
import Chip8.Text.Blank

namespace Chip8.Text

variable {isSep : Char → Bool}

/-- Nothing but separators. -/
def IsGap (isSep : Char → Bool) (cs : List Char) : Prop :=
  ∀ c ∈ cs, isSep c = true

instance (cs : List Char) : Decidable (IsGap isSep cs) :=
  decidable_of_iff (cs.all isSep = true) List.all_eq_true

/-- One word: at least one character, and no separator. -/
def IsWord (isSep : Char → Bool) (cs : List Char) : Prop :=
  cs ≠ [] ∧ ∀ c ∈ cs, isSep c = false

/-- No word goes on here: the text is over, or a separator stands in front. -/
def IsBreak (isSep : Char → Bool) (cs : List Char) : Prop :=
  continuesWord isSep cs = false

@[simp] theorem splitWords_nil : splitWords isSep [] = [] := rfl

theorem isBreak_cons_iff {c : Char} {cs : List Char} :
    IsBreak isSep (c :: cs) ↔ isSep c = true := by
  simp [IsBreak, continuesWord]

theorem splitWords_ne_nil {cs : List Char} (h : continuesWord isSep cs = true) :
    splitWords isSep cs ≠ [] := by
  cases cs with
  | nil => simp [continuesWord] at h
  | cons c cs =>
    have hc : isSep c = false := by simpa [continuesWord] using h
    rw [splitWords, if_neg (by simp [hc])]
    split
    · cases splitWords isSep cs <;> simp [extendFirst]
    · simp

theorem extendFirst_append {c : Char} {vs ws : List (List Char)} (h : vs ≠ []) :
    extendFirst c (vs ++ ws) = extendFirst c vs ++ ws := by
  cases vs with
  | nil => exact absurd rfl h
  | cons v vs => rfl

/-- A separator splits a text in two. -/
theorem splitWords_append_separator {c : Char} (hc : isSep c = true) (a b : List Char) :
    splitWords isSep (a ++ c :: b) = splitWords isSep a ++ splitWords isSep b := by
  induction a with
  | nil => simpa using splitWords_cons_separator hc b
  | cons x a ih =>
    have hgo : continuesWord isSep (a ++ c :: b) = continuesWord isSep a := by
      cases a <;> simp [continuesWord, hc]
    simp only [List.cons_append, splitWords, hgo, ih]
    by_cases hx : isSep x = true
    · simp [hx]
    · by_cases ha : continuesWord isSep a = true
      · simp [hx, ha, extendFirst_append (splitWords_ne_nil ha)]
      · simp [hx, ha]

theorem splitWords_gap_append {gap : List Char} (h : IsGap isSep gap) (rest : List Char) :
    splitWords isSep (gap ++ rest) = splitWords isSep rest := by
  induction gap with
  | nil => rfl
  | cons c gap ih =>
    rw [List.cons_append, splitWords_cons_separator (h c (by simp))]
    exact ih fun x hx => h x (by simp [hx])

/-- A gap has no words. -/
theorem splitWords_gap {gap : List Char} (h : IsGap isSep gap) : splitWords isSep gap = [] := by
  simpa using splitWords_gap_append h []

theorem splitWords_word {word : List Char} (h : IsWord isSep word) :
    splitWords isSep word = [word] := by
  obtain ⟨hne, hsep⟩ := h
  induction word with
  | nil => exact absurd rfl hne
  | cons c word ih =>
    have hc : isSep c = false := hsep c (by simp)
    cases word with
    | nil => simp [splitWords, hc, continuesWord]
    | cons d word =>
      have hd : isSep d = false := hsep d (by simp)
      rw [splitWords, if_neg (by simp [hc]), if_pos (by simp [continuesWord, hd]),
        ih (by simp) fun x hx => hsep x (by simp [hx])]
      rfl

/-- A word in front of a break is the first word of the text. -/
theorem splitWords_word_append {word rest : List Char} (h : IsWord isSep word)
    (hrest : IsBreak isSep rest) :
    splitWords isSep (word ++ rest) = word :: splitWords isSep rest := by
  cases rest with
  | nil => simpa using splitWords_word h
  | cons c rest =>
    have hc : isSep c = true := isBreak_cons_iff.mp hrest
    rw [splitWords_append_separator hc, splitWords_word h, splitWords_cons_separator hc]
    rfl

end Chip8.Text
