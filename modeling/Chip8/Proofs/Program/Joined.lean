/-
# Chip8.Proofs.Program.Joined — word lists that are put together from two.

Text with separators between its parts has the words of the first part and then those of the second
(`words_join`), and words are taken strictly in order (`collect_append`).  So a joined word list
comes to what its parts come to, one behind the other, unless one of them is refused; the first part
then has the say, whatever the second one holds (`reading_joins`).
-/
import Chip8.Proofs.Program.Words
import Chip8.Proofs.Text.Words

namespace Chip8.Program

/-! ## Results in order -/

/-- What two results in order come to: the first error, or else everything that was read. -/
def inOrder {α : Type} :
    Except WordError (List α) → Except WordError (List α) → Except WordError (List α)
  | .error e, _ => .error e
  | .ok _, .error e => .error e
  | .ok front, .ok back => .ok (front ++ back)

section InOrder

variable {α : Type}

theorem inOrder_nil (r : Except WordError (List α)) : inOrder (.ok []) r = r := by
  cases r <;> rfl

theorem inOrder_assoc (p q r : Except WordError (List α)) :
    inOrder (inOrder p q) r = inOrder p (inOrder q r) := by
  cases p <;> cases q <;> cases r <;> simp [inOrder]

theorem collect_cons (read : List Char → Except WordError (List α)) (word : List Char)
    (rest : List (List Char)) :
    collect read (word :: rest) = inOrder (read word) (collect read rest) := by
  rw [collect]
  cases read word <;> cases collect read rest <;> rfl

/-- Words come to what their two parts come to, in order. -/
theorem collect_append (read : List Char → Except WordError (List α)) (vs ws : List (List Char)) :
    collect read (vs ++ ws) = inOrder (collect read vs) (collect read ws) := by
  induction vs with
  | nil => exact (inOrder_nil _).symm
  | cons v vs ih => rw [List.cons_append, collect_cons, collect_cons, ih, inOrder_assoc]

/-- Words that are not refused are read. -/
theorem exists_collect_ok {read : List Char → Except WordError (List α)} {ws : List (List Char)}
    (h : ∀ word ∈ ws, refuses read word = false) : ∃ xs, collect read ws = .ok xs := by
  cases hc : collect read ws with
  | ok xs => exact ⟨xs, rfl⟩
  | error e =>
    obtain ⟨word, hfirst, -⟩ := collect_eq_error_iff.mp hc
    have hyes : refuses read word = true := List.find?_some hfirst
    exact absurd (h word (List.mem_of_find?_eq_some hfirst)) (by simp [hyes])

end InOrder

/-! ## Texts with separators between their parts -/

/-- At least one character, and every one a comma or a blank. -/
def IsJoint (joint : String) : Prop :=
  joint ≠ "" ∧ ∀ c ∈ joint.toList, c = ',' ∨ Text.isBlank c = true

theorem IsJoint.exists_cons {joint : String} (h : IsJoint joint) :
    ∃ c rest, joint.toList = c :: rest ∧ Text.isSeparator c = true ∧
      Text.IsGap Text.isSeparator rest := by
  obtain ⟨hne, hall⟩ := h
  have hsep {x : Char} (hx : x ∈ joint.toList) : Text.isSeparator x = true := by
    simpa [Text.isSeparator] using hall x hx
  obtain ⟨c, rest, hcs⟩ : ∃ c rest, joint.toList = c :: rest :=
    List.exists_cons_of_ne_nil fun hnil => hne (String.toList_eq_nil_iff.mp hnil)
  exact ⟨c, rest, hcs, hsep (by simp [hcs]), fun x hx => hsep (by simp [hcs, hx])⟩

/-- A joined text has the words of its parts. -/
theorem words_join {joint : String} (h : IsJoint joint) (a b : String) :
    words (a ++ joint ++ b) = words a ++ words b := by
  obtain ⟨c, rest, hcs, hc, hrest⟩ := h.exists_cons
  have hsplit : (a ++ joint ++ b).toList = a.toList ++ c :: (rest ++ b.toList) := by
    simp [hcs]
  rw [words, hsplit, Text.splitWords_append_separator hc, Text.splitWords_gap_append hrest]
  rfl

/-- A program is read exactly when all its words are program words. -/
theorem exists_readImage_iff (text : String) :
    (∃ image, readImage text = .ok image) ↔ ∀ word ∈ words text, isProgramWord word = true := by
  constructor
  · rintro ⟨image, h⟩ word hw
    have hnone := List.find?_eq_none.mp (readImage_eq_ok h).1 word hw
    simpa using hnone
  · intro h
    exact exists_collect_ok fun word hw => by simp [refuses_bytesOf, h word hw]

/-- Program words are the numerals that fit into sixteen bits. -/
theorem isProgramWord_iff (word : List Char) :
    isProgramWord word = true ↔ ∃ v, Text.readHex? word = some v ∧ 0 ≤ v ∧ v ≤ 0xFFFF := by
  unfold isProgramWord
  cases Text.readHex? word <;> simp

theorem isNumeral_iff (word : List Char) :
    isNumeral word = true ↔ ∃ v, Text.readHex? word = some v := by
  rw [isNumeral, Option.isSome_iff_exists]

/-- A refused program comes apart at the word that it is refused for. -/
theorem exists_split_of_readImage_error {text : String} {e : WordError}
    (h : readImage text = .error e) :
    ∃ front word back, words text = front ++ word :: back ∧
      (∀ w ∈ front, isProgramWord w = true) ∧ ¬ isProgramWord word = true ∧
      e.isOverflow = isNumeral word := by
  obtain ⟨word, hfirst, hover⟩ := readImage_eq_error h
  obtain ⟨hbad, front, back, hsplit, hfront⟩ := List.find?_eq_some_iff_append.mp hfirst
  exact ⟨front, word, back, hsplit, fun w hw => by simpa using hfront w hw, by simpa using hbad,
    hover⟩

/-- **A joined word list is read as its parts in order.**  For any two texts, and between them any
joint of commas and blanks: the whole is refused for the error of the first part, if that is refused;
else for the error of the second, if that one is; else it comes to what the first part comes to and
then what the second does.  This holds of programs and of key lists.

A program is read exactly when each of its words is a numeral between 0 and `0xFFFF`, and it has then
two bytes for each word.  When it is refused, the words in front of some word are all such numerals and
that word is none; the error is one of range if this word is a numeral, and one of form if not. -/
theorem reading_joins :
    (∀ a joint b : String, IsJoint joint →
      readImage (a ++ joint ++ b) = inOrder (readImage a) (readImage b) ∧
      readKeys (a ++ joint ++ b) = inOrder (readKeys a) (readKeys b)) ∧
    (∀ text : String, (∃ image, readImage text = .ok image) ↔
      ∀ word ∈ words text, ∃ v, Text.readHex? word = some v ∧ 0 ≤ v ∧ v ≤ 0xFFFF) ∧
    (∀ (text : String) (image : List UInt8), readImage text = .ok image →
      image.length = 2 * (words text).length) ∧
    (∀ (text : String) (e : WordError), readImage text = .error e →
      ∃ front word back, words text = front ++ word :: back ∧
        (∀ w ∈ front, ∃ v, Text.readHex? w = some v ∧ 0 ≤ v ∧ v ≤ 0xFFFF) ∧
        (¬ ∃ v, Text.readHex? word = some v ∧ 0 ≤ v ∧ v ≤ 0xFFFF) ∧
        (e.isOverflow = true ↔ ∃ v, Text.readHex? word = some v)) := by
  refine ⟨fun a joint b h => ?_, fun text => ?_, fun text image h => (readImage_eq_ok h).2,
    fun text e h => ?_⟩
  · have hwords := words_join h a b
    exact ⟨by rw [readImage, hwords, collect_append]; rfl,
      by rw [readKeys, hwords, collect_append]; rfl⟩
  · simpa only [isProgramWord_iff] using exists_readImage_iff text
  · obtain ⟨front, word, back, hsplit, hfront, hbad, hover⟩ := exists_split_of_readImage_error h
    refine ⟨front, word, back, hsplit, fun w hw => (isProgramWord_iff w).mp (hfront w hw), ?_, ?_⟩
    · rwa [← isProgramWord_iff]
    · rw [hover, isNumeral_iff]

/-- A part that is no numeral is reported in front of a part that does not fit, and not the other way
round. -/
theorem reading_joins_at_a_comma :
    IsJoint ", " ∧
      readImage ("00E0 z" ++ ", " ++ "10000") = .error (.notNumeral "z") ∧
      readImage ("10000" ++ ", " ++ "00E0 z") = .error .tooBig := by
  have hjoint : IsJoint ", " := by
    have hall : ∀ c ∈ [',', ' '], c = ',' ∨ Text.isBlank c = true :=
      List.forall_mem_cons.mpr ⟨.inl rfl, List.forall_mem_cons.mpr ⟨.inr rfl, nofun⟩⟩
    exact ⟨by decide, hall⟩
  have hform : readImage "00E0 z" = .error (.notNumeral "z") := rfl
  have hrange : readImage "10000" = .error .tooBig := rfl
  refine ⟨hjoint, ?_, ?_⟩
  · rw [(reading_joins.1 "00E0 z" ", " "10000" hjoint).1, hform]
    rfl
  · rw [(reading_joins.1 "10000" ", " "00E0 z" hjoint).1, hrange]
    rfl

end Chip8.Program
