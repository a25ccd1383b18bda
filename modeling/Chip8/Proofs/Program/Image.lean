/-
# Chip8.Proofs.Program.Image — from the words of a program text to the instructions that are fetched.

A program text writes sixteen-bit words as hexadecimal numerals between gaps of commas and blanks.  Its
image has two bytes for each word, the high one first; booted, the image stands between the font with
its zeros and the end of memory, and a fetch at the place of a word answers with this word.
-/
import Chip8.Program.Bundled
import Chip8.Program.Text
import Chip8.Proofs.Machine.Boot
import Chip8.Proofs.Session.CycleLog
import Chip8.Proofs.Text.Numeral
import Chip8.Session.Host

namespace Chip8

namespace Program

/-! ## Texts and their images -/

/-- The text writes these words in order, as hexadecimal numerals with gaps between them. -/
inductive Writes : List UInt16 → List Char → Prop
  | nil {gap : List Char} (isGap : Text.IsGap Text.isSeparator gap) : Writes [] gap
  | cons {w : UInt16} {ws : List UInt16} {gap word rest : List Char}
      (isGap : Text.IsGap Text.isSeparator gap) (isNumeral : Text.IsHexNumeral w.toNat word)
      (isBreak : Text.IsBreak Text.isSeparator rest) (tail : Writes ws rest) :
      Writes (w :: ws) (gap ++ word ++ rest)

@[simp] theorem imageOf_nil : imageOf [] = [] := rfl

@[simp] theorem imageOf_cons (w : UInt16) (ws : List UInt16) :
    imageOf (w :: ws) = (w >>> 8).toUInt8 :: w.toUInt8 :: imageOf ws := rfl

@[simp] theorem length_imageOf (ws : List UInt16) : (imageOf ws).length = 2 * ws.length := by
  induction ws with
  | nil => rfl
  | cons w ws ih =>
    simp only [imageOf_cons, List.length_cons, ih]
    omega

theorem toNat_high (w : UInt16) : (w >>> 8).toUInt8.toNat = w.toNat / 256 := by
  have := w.toNat_lt
  simp only [UInt16.toNat_toUInt8, UInt16.toNat_shiftRight, UInt16.reduceToNat, Nat.reduceMod,
    Nat.shiftRight_eq_div_pow, Nat.reducePow]
  omega

/-- The bytes of a word are those of its number. -/
theorem bytesOfNumber_toNat (w : UInt16) : bytesOfNumber w.toNat = .ok (imageOf [w]) := by
  have := w.toNat_lt
  have hhigh : UInt8.ofNat (w.toNat / 256) = (w >>> 8).toUInt8 := by
    rw [← toNat_high, UInt8.ofNat_toNat]
  have hlow : UInt8.ofNat (w.toNat % 256) = w.toUInt8 := by
    apply UInt8.toNat_inj.mp
    simp
  have hrange : ¬ (w.toNat : Int) < 0 ∧ ¬ (0xFFFF : Int) < w.toNat := by omega
  rw [bytesOfNumber, if_neg hrange.1, if_neg hrange.2, Int.toNat_natCast, hhigh, hlow]
  rfl

theorem bytesOf_numeral {w : UInt16} {word : List Char} (h : Text.IsHexNumeral w.toNat word) :
    bytesOf word = .ok (imageOf [w]) := by
  rw [bytesOf, numberOf, h.readHex?_eq]
  exact bytesOfNumber_toNat w

/-- The words of a text come one by one to the image. -/
theorem collect_bytesOf {ws : List UInt16} {cs : List Char} (h : Writes ws cs) :
    collect bytesOf (Text.splitWords Text.isSeparator cs) = .ok (imageOf ws) := by
  induction h with
  | nil hgap =>
    rw [Text.splitWords_gap hgap]
    rfl
  | cons hgap hnum hbreak _ ih =>
    rw [List.append_assoc, Text.splitWords_gap_append hgap,
      Text.splitWords_word_append hnum.isWord hbreak, collect, bytesOf_numeral hnum, ih]
    rfl

/-- However words are written, the text is read as their image. -/
theorem readImage_of_writes {ws : List UInt16} {text : String} (h : Writes ws text.toList) :
    readImage text = .ok (imageOf ws) :=
  collect_bytesOf h

end Program

/-! ## Fetching words -/

open Program (imageOf length_imageOf)

/-- Two bytes of an image are the word they come from. -/
theorem Instruction.ofBytes_word (w : UInt16) : ofBytes (w >>> 8).toUInt8 w.toUInt8 = ⟨w⟩ := by
  have hw : 256 * (w.toNat / 256) + w.toNat % 2 ^ 8 = w.toNat := by omega
  rw [ofBytes, Program.toNat_high, UInt16.toNat_toUInt8, hw, UInt16.ofNat_toNat]

theorem Program.getD_imageOf (ws : List UInt16) {i : Nat} (hi : i < ws.length) :
    (imageOf ws).getD (2 * i) 0 = (ws[i] >>> 8).toUInt8 ∧
      (imageOf ws).getD (2 * i + 1) 0 = ws[i].toUInt8 := by
  induction ws generalizing i with
  | nil => simp at hi
  | cons w ws ih =>
    cases i with
    | zero => simp
    | succ i => simpa [Nat.mul_succ] using ih (by simpa using hi)

/-- Where the image of words stands in memory, the instruction at the place of a word is this word. -/
theorem Machine.instructionAt_imageOf {m : Machine} {front back : List UInt8} {ws : List UInt16}
    (h : m.memory.toList = front ++ imageOf ws ++ back) {i : Nat} (hi : i < ws.length) :
    m.instructionAt (front.length + 2 * i) = ⟨ws[i]⟩ := by
  have hbyte : ∀ j < 2 * ws.length,
      m.memory.byteAt (front.length + j) = (imageOf ws).getD j 0 := by
    intro j hj
    rw [Memory.byteAt_eq_getD, h, List.append_assoc, List.getD_eq_getElem?_getD,
      List.getElem?_append_right (by omega), Nat.add_sub_cancel_left,
      List.getElem?_append_left (by simpa using hj), ← List.getD_eq_getElem?_getD]
  obtain ⟨hhigh, hlow⟩ := Program.getD_imageOf ws hi
  rw [instructionAt, Nat.add_assoc, hbyte _ (by omega), hbyte _ (by omega), hhigh, hlow,
    Instruction.ofBytes_word]

theorem SessionError.message_imageTooLarge (size : Nat) :
    (imageTooLarge size).message =
      "Program image too large: " ++ toString size ++ " bytes (max 3584)" := by
  have hmax : toString maxImageSize = "3584" := by decide +kernel
  unfold message
  rw [hmax]
  simp only [String.append_assoc]
  rfl

namespace Session

/-- The words stand in memory as a program: behind the font and zeros up to the program start, with
zeros up to the end of memory behind them, ready to be fetched. -/
structure Holds (t : Session) (ws : List UInt16) : Prop where
  /-- The whole of memory, in address order. -/
  memory : t.machine.memory.toList = Font.bytes ++ List.replicate (0x200 - Font.bytes.length) 0 ++
    imageOf ws ++ List.replicate (3584 - 2 * ws.length) 0
  /-- There are 4096 bytes in all. -/
  size : t.machine.memory.toList.length = 4096
  /-- A fetch at the place of a word answers with this word and moves behind it. -/
  fetch : ∀ (i : Nat) (hi : i < ws.length),
    (t.edit fun m => { m with pc := 0x200 + 2 * i }).fetch =
      ⟨t.edit fun m => { m with pc := 0x202 + 2 * i }, .ok ⟨ws[i]⟩⟩

/-- A session with the memory of a booted image holds its words. -/
theorem holds_of_memory {t : Session} {ws : List UInt16} (hlen : ws.length ≤ 1792)
    (h : t.machine.memory.toList = Font.bytes ++ List.replicate (0x200 - Font.bytes.length) 0 ++
      imageOf ws ++ List.replicate (3584 - 2 * ws.length) 0) : t.Holds ws := by
  refine ⟨h, Memory.length_toList _, ?_⟩
  intro i hi
  have hfront : (Font.bytes ++ List.replicate (0x200 - Font.bytes.length) 0).length = 0x200 := by
    rw [List.length_append, List.length_replicate, Font.length_bytes]
    rfl
  have hword := Machine.instructionAt_imageOf h hi
  rw [hfront] at hword
  have hplace : ((0x200 : Int) + 2 * i).toNat = 0x200 + 2 * i := by omega
  have hnext : (0x200 : Int) + 2 * i + 2 = 0x202 + 2 * i := by omega
  have hfetch : ({ t.machine with pc := 0x200 + 2 * i } : Machine).fetch =
      .ok (⟨ws[i]⟩, { t.machine with pc := 0x202 + 2 * i }) := by
    rw [Machine.fetch_eq _ (show (0 : Int) ≤ 0x200 + 2 * i by omega),
      if_neg (show ¬ 4096 < (0x200 : Int) + 2 * i + 2 by omega)]
    simp only [Machine.current, hplace, hnext]
    exact congrArg (fun j => Except.ok (j, _)) hword
  simp only [Session.fetch, edit, settle, hfetch]

/-- An image that fits is loaded into any session. -/
theorem load_imageOf {ws : List UInt16} (h : ws.length ≤ 1792) (s : Session) :
    ∃ t, s.load (imageOf ws) = ⟨t, .ok ()⟩ ∧ t.Holds ws := by
  have hfits : (imageOf ws).length ≤ 3584 := by
    rw [length_imageOf]
    omega
  obtain ⟨m, hm, -, hmemory⟩ := Machine.boot?_eq_some hfits
  rw [length_imageOf] at hmemory
  rw [load, hm]
  exact ⟨_, rfl, holds_of_memory h hmemory⟩

/-- An image that does not fit is refused with its size, and the session stays as it is. -/
theorem load_imageOf_tooLarge {ws : List UInt16} (h : 1792 < ws.length) (s : Session) :
    s.load (imageOf ws) = ⟨s, .error (.imageTooLarge (2 * ws.length))⟩ := by
  have hlarge : maxImageSize < (imageOf ws).length := by
    rw [length_imageOf, Machine.maxImageSize_eq]
    omega
  rw [s.load_of_large hlarge, length_imageOf]

/-- From the text to the fetched words.  A text that writes words is read as their image, high bytes
first.  An image of at most 1792 words is loaded into any session and its words are fetched in order; a
longer one is refused with its size and the largest size, and the session stays as it is. -/
theorem written_words_are_fetched {ws : List UInt16} {text : String}
    (h : Program.Writes ws text.toList) (s : Session) :
    Program.readImage text = .ok (imageOf ws) ∧
      (ws.length ≤ 1792 → ∃ t, s.load (imageOf ws) = ⟨t, .ok ()⟩ ∧ t.Holds ws) ∧
      (1792 < ws.length →
        s.load (imageOf ws) = ⟨s, .error (.imageTooLarge (2 * ws.length))⟩ ∧
        (SessionError.imageTooLarge (2 * ws.length)).message =
          "Program image too large: " ++ toString (2 * ws.length) ++ " bytes (max 3584)") := by
  refine ⟨Program.readImage_of_writes h, fun hfits => load_imageOf hfits s, fun hlarge => ?_⟩
  exact ⟨load_imageOf_tooLarge hlarge s, SessionError.message_imageTooLarge _⟩

/-- A marked word in one case and a short one in the other, with gaps of blanks and a comma. -/
theorem written_words_are_fetched_mixed :
    Program.Writes [0x6A05, 0x00E0] " 0X6a05,\n0E0 ".toList ∧
      Program.readImage " 0X6a05,\n0E0 " = .ok [0x6A, 0x05, 0x00, 0xE0] ∧
      ∃ t, (Session.start ⟨.standard, .standard, false, none⟩ none (.ofList [])).load
        [0x6A, 0x05, 0x00, 0xE0] = ⟨t, .ok ()⟩ ∧ t.Holds [0x6A05, 0x00E0] := by
  have hfirst : Text.IsHexNumeral 0x6A05 ['0', 'X', '6', 'a', '0', '5'] := by
    have hdigits : List.Forall₂ Text.IsHexDigit [6, 10, 0, 5] ['6', 'a', '0', '5'] :=
      .cons (by decide) (.cons (by decide) (.cons (by decide) (.cons (by decide) .nil)))
    exact .marked (.inr rfl) (by decide) hdigits (by decide)
  have hsecond : Text.IsHexNumeral 0x00E0 ['0', 'E', '0'] := by
    have hdigits : List.Forall₂ Text.IsHexDigit [0, 14, 0] ['0', 'E', '0'] :=
      .cons (by decide) (.cons (by decide) (.cons (by decide) .nil))
    exact .plain (by decide) hdigits (by decide)
  have hwrites : Program.Writes [0x6A05, 0x00E0] " 0X6a05,\n0E0 ".toList := by
    have htext : " 0X6a05,\n0E0 ".toList = ([' '] ++ ['0', 'X', '6', 'a', '0', '5']) ++
        (([',', '\n'] ++ ['0', 'E', '0']) ++ [' ']) := by decide +kernel
    rw [htext]
    exact .cons (by decide) hfirst rfl
      (.cons (by decide) hsecond rfl (.nil (by decide)))
  obtain ⟨hread, hload, -⟩ := written_words_are_fetched hwrites
    (Session.start ⟨.standard, .standard, false, none⟩ none (.ofList []))
  exact ⟨hwrites, hread, hload (by decide)⟩

end Session

end Chip8
