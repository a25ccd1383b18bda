/-
# Chip8.Proofs.Text.Numeral — a number that is written as a numeral is read as this number.

Digits are read from the left, and what they come to is Horner's sum.  A hexadecimal numeral has digits
in either case, as many leading zeros as it likes, and perhaps a mark in front; whichever way a number is
written, it is read.  A decimal numeral is read if it is no longer than decimals may be.
-/
import Chip8.Proofs.Text.Words
import Chip8.Text.Numeral
import Mathlib.Data.List.Forall2

namespace Chip8.Text

/-! ## Digits -/

/-- What digits come to behind a value, the most significant one first. -/
def valueFrom (base value : Nat) (ds : List Nat) : Nat :=
  ds.foldl (fun v d => base * v + d) value

/-- Characters that are read as these digits. -/
def AreDigits (base : Nat) (ds : List Nat) (cs : List Char) : Prop :=
  List.Forall₂ (fun d c => digitIn? base c = some d) ds cs

theorem ne_underscore_of_digitIn? {base d : Nat} {c : Char} (h : digitIn? base c = some d) :
    c ≠ '_' := by
  rintro rfl
  simp [digitIn?, digitValue?] at h

theorem readMoreDigits_cons {base value d : Nat} {c : Char} (h : digitIn? base c = some d)
    (rest : List Char) :
    readMoreDigits base value (c :: rest) = readMoreDigits base (base * value + d) rest := by
  rw [readMoreDigits, h]
  · rfl
  · intro x xs hc
    exact absurd hc (ne_underscore_of_digitIn? h)

theorem readMoreDigits_eq {base : Nat} {ds : List Nat} {cs : List Char}
    (h : AreDigits base ds cs) (value : Nat) :
    readMoreDigits base value cs = some (valueFrom base value ds) := by
  induction h generalizing value with
  | nil => rfl
  | cons hd _ ih =>
    rw [readMoreDigits_cons hd, ih]
    rfl

/-- Digits are read as Horner's sum. -/
theorem readDigits_eq {base : Nat} {ds : List Nat} {cs : List Char} (h : AreDigits base ds cs)
    (hne : ds ≠ []) : readDigits base cs = some (valueFrom base 0 ds) := by
  cases h with
  | nil => exact absurd rfl hne
  | cons hd hrest =>
    rw [readDigits, hd, Option.bind_some, readMoreDigits_eq hrest]
    simp [valueFrom]

/-- Characters without a sign in front are read as they are. -/
theorem readSigned_of_no_sign {read : List Char → Option Nat} {cs : List Char}
    (h : ∀ c ∈ cs.head?, c ≠ '-' ∧ c ≠ '+') : readSigned read cs = (read cs).map Int.ofNat := by
  unfold readSigned
  split
  · exact absurd rfl (h '-' rfl).1
  · exact absurd rfl (h '+' rfl).2
  · rfl

/-! ## Hexadecimal numerals -/

/-- The hexadecimal digits in either case, with their values. -/
def hexCharacters : List (Char × Nat) :=
  ['0', '1', '2', '3', '4', '5', '6', '7', '8', '9'].zipIdx ++
    ['a', 'b', 'c', 'd', 'e', 'f'].zipIdx 10 ++ ['A', 'B', 'C', 'D', 'E', 'F'].zipIdx 10

/-- The character is the hexadecimal digit of a value. -/
def IsHexDigit (d : Nat) (c : Char) : Prop :=
  (c, d) ∈ hexCharacters

instance (d : Nat) (c : Char) : Decidable (IsHexDigit d c) :=
  inferInstanceAs (Decidable (_ ∈ _))

/-- The ways to write a number in base sixteen: at least one digit, perhaps behind a mark. -/
inductive IsHexNumeral (n : Nat) : List Char → Prop
  | plain {ds : List Nat} {cs : List Char} (nonempty : ds ≠ [])
      (digits : List.Forall₂ IsHexDigit ds cs) (value : valueFrom 16 0 ds = n) : IsHexNumeral n cs
  | marked {mark : Char} {ds : List Nat} {cs : List Char} (isMark : mark = 'x' ∨ mark = 'X')
      (nonempty : ds ≠ []) (digits : List.Forall₂ IsHexDigit ds cs)
      (value : valueFrom 16 0 ds = n) : IsHexNumeral n ('0' :: mark :: cs)

/-- What a hexadecimal digit is, and what it is not. -/
theorem hexCharacters_spec : ∀ p ∈ hexCharacters,
    plainDigit p.1 = p.1 ∧ digitIn? 16 p.1 = some p.2 ∧ p.1 ≠ '-' ∧ p.1 ≠ '+' ∧ p.1 ≠ 'x' ∧
      p.1 ≠ 'X' ∧ isSeparator p.1 = false := by
  decide

section Digits

variable {ds : List Nat} {cs : List Char}

theorem areDigits_of_hexDigits (h : List.Forall₂ IsHexDigit ds cs) : AreDigits 16 ds cs :=
  h.imp fun _ _ hd => (hexCharacters_spec _ hd).2.1

theorem map_plainDigit_hexDigits (h : List.Forall₂ IsHexDigit ds cs) : cs.map plainDigit = cs := by
  induction h with
  | nil => rfl
  | cons hd _ ih => rw [List.map_cons, (hexCharacters_spec _ hd).1, ih]

/-- Every character of a run of digits is a digit. -/
theorem exists_hexDigit_of_mem (h : List.Forall₂ IsHexDigit ds cs) {c : Char} (hc : c ∈ cs) :
    ∃ d, IsHexDigit d c := by
  induction h with
  | nil => cases hc
  | cons hd _ ih =>
    rcases List.mem_cons.mp hc with rfl | hc
    · exact ⟨_, hd⟩
    · exact ih hc

/-- Digits have no mark in front, for no mark is a digit. -/
theorem dropHexMark_hexDigits (h : List.Forall₂ IsHexDigit ds cs) : dropHexMark cs = cs := by
  unfold dropHexMark
  split
  · next m rest =>
    obtain ⟨d, hd⟩ := exists_hexDigit_of_mem h (c := m) (by simp)
    obtain ⟨-, -, -, -, hx, hX, -⟩ := hexCharacters_spec _ hd
    rw [if_neg (by simp [hx, hX])]
  · rfl

theorem dropHexMark_marked {mark : Char} (hmark : mark = 'x' ∨ mark = 'X')
    (h : List.Forall₂ IsHexDigit ds cs) : dropHexMark ('0' :: mark :: cs) = cs := by
  simp only [dropHexMark, if_pos hmark]
  split
  · next rest =>
    obtain ⟨d, hd⟩ := exists_hexDigit_of_mem h (c := '_') (by simp)
    exact absurd rfl (ne_underscore_of_digitIn? (hexCharacters_spec _ hd).2.1)
  · rfl

end Digits

namespace IsHexNumeral

variable {n : Nat} {cs : List Char}

/-- A numeral is one word of a word list. -/
theorem isWord (h : IsHexNumeral n cs) : IsWord isSeparator cs := by
  have apart : ∀ {ds : List Nat} {cs : List Char}, List.Forall₂ IsHexDigit ds cs →
      ∀ c ∈ cs, isSeparator c = false := by
    intro ds cs hd c hc
    obtain ⟨d, hd⟩ := exists_hexDigit_of_mem hd hc
    exact (hexCharacters_spec _ hd).2.2.2.2.2.2
  cases h with
  | plain hne hd _ =>
    refine ⟨?_, apart hd⟩
    rintro rfl
    cases hd
    exact hne rfl
  | marked hmark _ hd _ =>
    refine ⟨by simp, ?_⟩
    intro c hc
    simp only [List.mem_cons] at hc
    rcases hc with rfl | rfl | hc
    · decide
    · rcases hmark with rfl | rfl <;> decide
    · exact apart hd c hc

/-- A number is read from each of its numerals. -/
theorem readHex?_eq (h : IsHexNumeral n cs) : readHex? cs = some (n : Int) := by
  cases h with
  | plain hne hd hn =>
    have hsign : ∀ c ∈ cs.head?, c ≠ '-' ∧ c ≠ '+' := by
      intro c hc
      obtain ⟨d, hc⟩ := exists_hexDigit_of_mem hd (List.mem_of_mem_head? hc)
      obtain ⟨-, -, hm, hp, -⟩ := hexCharacters_spec _ hc
      exact ⟨hm, hp⟩
    rw [readHex?, map_plainDigit_hexDigits hd, readSigned_of_no_sign hsign,
      dropHexMark_hexDigits hd, readDigits_eq (areDigits_of_hexDigits hd) hne, hn]
    rfl
  | @marked mark _ cs hmark hne hd hn =>
    have hmap : ('0' :: mark :: cs).map plainDigit = '0' :: mark :: cs := by
      rw [List.map_cons, List.map_cons, map_plainDigit_hexDigits hd]
      rcases hmark with rfl | rfl <;> rfl
    rw [readHex?, hmap, readSigned_of_no_sign (by simp), dropHexMark_marked hmark hd,
      readDigits_eq (areDigits_of_hexDigits hd) hne, hn]
    rfl

end IsHexNumeral

/-! ## Decimal numerals -/

/-- A decimal digit: it is no padding and no sign, its ASCII form is itself, and it has its value. -/
theorem isDigit_spec {c : Char} (h : c.isDigit = true) :
    isPadding c = false ∧ plainDigit c = c ∧ digitIn? 10 c = some (c.toNat - '0'.toNat) ∧
      c ≠ '-' ∧ c ≠ '+' := by
  have hall : ∀ d < 10, isPadding (Char.ofNat (48 + d)) = false ∧
      plainDigit (Char.ofNat (48 + d)) = Char.ofNat (48 + d) ∧
      digitIn? 10 (Char.ofNat (48 + d)) = some ((Char.ofNat (48 + d)).toNat - '0'.toNat) ∧
      Char.ofNat (48 + d) ≠ '-' ∧ Char.ofNat (48 + d) ≠ '+' := by decide
  have hrange : 48 ≤ c.toNat ∧ c.toNat ≤ 57 := by
    simpa [Char.isDigit, UInt32.le_iff_toNat_le] using h
  have hc : Char.ofNat (48 + (c.toNat - 48)) = c := by
    rw [Nat.add_sub_cancel' hrange.1, Char.ofNat_toNat]
  have hd := hall (c.toNat - 48) (by omega)
  rwa [hc] at hd

theorem readDigits_toDigits (n : Nat) : readDigits 10 (Nat.toDigits 10 n) = some n := by
  have hdigits : AreDigits 10 ((Nat.toDigits 10 n).map fun c => c.toNat - '0'.toNat)
      (Nat.toDigits 10 n) := by
    rw [AreDigits, List.forall₂_map_left_iff, List.forall₂_same]
    intro c hc
    exact (isDigit_spec (Nat.isDigit_of_mem_toDigits (by decide) (by decide) hc)).2.2.1
  rw [readDigits_eq hdigits (by simp [Nat.toDigits_ne_nil]), valueFrom, List.foldl_map]
  exact congrArg some (Nat.ofDigitChars_toDigits (by decide) (by decide))

theorem dropWhile_isPadding {cs : List Char} (h : ∀ c ∈ cs, isPadding c = false) :
    cs.dropWhile isPadding = cs := by
  cases cs with
  | nil => rfl
  | cons c cs => rw [List.dropWhile_cons_of_neg (by simp [h c (by simp)])]

/-- Without padding and with ASCII digits only, a numeral that is not too long is read as it stands. -/
theorem readDecimal?_of_plain {cs : List Char}
    (h : ∀ c ∈ cs, isPadding c = false ∧ plainDigit c = c)
    (hlen : (cs.filter fun c => (digitIn? 10 c).isSome).length ≤ longestDecimal) :
    readDecimal? cs = readSigned (readDigits 10) cs := by
  have hmap : cs.map plainDigit = cs := by
    rw [List.map_congr_left fun c hc => (h c hc).2, List.map_id']
  have hreverse : cs.reverse.dropWhile isPadding = cs.reverse :=
    dropWhile_isPadding fun c hc => (h c (List.mem_reverse.mp hc)).1
  simp only [readDecimal?, dropWhile_isPadding fun c hc => (h c hc).1, hreverse, List.reverse_reverse,
    hmap]
  rw [if_neg (by omega)]

/-- A number is read from its decimal numeral, unless that is longer than decimals may be. -/
theorem readDecimal?_toString {n : Int} (h : hasDecimal n = true) :
    readDecimal? (toString n).toList = some n := by
  have hdigit {k : Nat} {c : Char} (hc : c ∈ Nat.toDigits 10 k) : c.isDigit = true :=
    Nat.isDigit_of_mem_toDigits (by decide) (by decide) hc
  have hlen : (Nat.toDigits 10 n.natAbs).length ≤ longestDecimal := by
    have hpow : ∀ k, Nat.pow 10 k = 10 ^ k := fun _ => rfl
    rw [hasDecimal, hpow, decide_eq_true_eq] at h
    exact (Nat.length_toDigits_le_iff (by decide) (by decide)).mpr h
  have hfilter : ((Nat.toDigits 10 n.natAbs).filter fun c => (digitIn? 10 c).isSome).length ≤
      longestDecimal := Nat.le_trans (List.length_filter_le _ _) hlen
  have hplain : ∀ c ∈ Nat.toDigits 10 n.natAbs, isPadding c = false ∧ plainDigit c = c :=
    fun c hc => ⟨(isDigit_spec (hdigit hc)).1, (isDigit_spec (hdigit hc)).2.1⟩
  rw [Int.toString_eq_repr, Int.repr_eq_if]
  by_cases hn : 0 ≤ n
  · have hsign : ∀ c ∈ (Nat.toDigits 10 n.natAbs).head?, c ≠ '-' ∧ c ≠ '+' := fun c hc =>
      (isDigit_spec (hdigit (List.mem_of_mem_head? hc))).2.2.2
    have hnat : n.toNat = n.natAbs := by omega
    rw [if_pos hn, Nat.repr_eq_ofList_toDigits, String.toList_ofList, hnat,
      readDecimal?_of_plain hplain hfilter, readSigned_of_no_sign hsign, readDigits_toDigits]
    exact congrArg some (Int.natAbs_of_nonneg hn)
  · have hnat : (-n).toNat = n.natAbs := by omega
    rw [if_neg hn, Nat.repr_eq_ofList_toDigits, String.toList_append, String.toList_ofList,
      String.toList_ofList, hnat, List.cons_append, List.nil_append,
      readDecimal?_of_plain (List.forall_mem_cons.mpr ⟨by decide, hplain⟩)]
    · rw [readSigned, readDigits_toDigits]
      show some (-(n.natAbs : Int)) = some n
      rw [Int.ofNat_natAbs_of_nonpos (by omega), Int.neg_neg]
    · rw [List.filter_cons_of_neg (by decide)]
      exact hfilter

end Chip8.Text
