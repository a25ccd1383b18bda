/-
# Chip8.Proofs.Program.Words — which word lists are read, and which word they are refused for.

A word list is refused for the first of its words that is refused (`collect_eq_error_iff`); otherwise
it comes to what its words come to, one behind the other.  For a program the words are to be numerals
between 0 and `0xFFFF`, and for a key list they are to be numerals; a list of keys is put down if they
lie between 0 and 15.
-/
import Chip8.Proofs.Session.Keys
import Chip8.Trouble

namespace Chip8

namespace Program

/-! ## Words in order -/

section Collect

variable {α : Type} {read : List Char → Except WordError (List α)} {ws : List (List Char)}

/-- The word is refused. -/
def refuses (read : List Char → Except WordError (List α)) (word : List Char) : Bool :=
  !(read word).isOk

theorem refuses_of_ok {word : List Char} {xs : List α} (h : read word = .ok xs) :
    refuses read word = false := by
  simp [refuses, h, Except.isOk, Except.toBool]

theorem refuses_of_error {word : List Char} {e : WordError} (h : read word = .error e) :
    refuses read word = true := by
  simp [refuses, h, Except.isOk, Except.toBool]

/-- Words are refused for the first one that is refused. -/
theorem collect_eq_error_iff {e : WordError} :
    collect read ws = .error e ↔ ∃ word, ws.find? (refuses read) = some word ∧
      read word = .error e := by
  induction ws with
  | nil => simp [collect]
  | cons word rest ih =>
    cases hr : read word with
    | error e' =>
      have hfirst : (word :: rest).find? (refuses read) = some word :=
        List.find?_cons_of_pos (refuses_of_error hr)
      simp [collect, hr, hfirst]
    | ok front =>
      have hrest : (word :: rest).find? (refuses read) = rest.find? (refuses read) :=
        List.find?_cons_of_neg (by simp [refuses_of_ok hr])
      rw [collect, hr, hrest, ← ih]
      cases collect read rest <;> simp

/-- Words that are taken are taken one by one. -/
theorem exists_of_collect_ok {xs : List α} (h : collect read ws = .ok xs) {word : List Char}
    (hw : word ∈ ws) : ∃ ys, read word = .ok ys ∧ ∀ y ∈ ys, y ∈ xs := by
  induction ws generalizing xs with
  | nil => cases hw
  | cons first rest ih =>
    rw [collect] at h
    cases hf : read first with
    | error e => simp [hf] at h
    | ok front =>
      cases hc : collect read rest with
      | error e => simp [hf, hc] at h
      | ok back =>
        have hxs : front ++ back = xs := by simpa [hf, hc] using h
        subst hxs
        rcases List.mem_cons.mp hw with rfl | hw
        · exact ⟨front, hf, fun y hy => by simp [hy]⟩
        · obtain ⟨ys, hy, hmem⟩ := ih hc hw
          exact ⟨ys, hy, fun y hy => by simp [hmem y hy]⟩

/-- Nothing is in a list but what its words come to. -/
theorem exists_of_mem_collect {xs : List α} (h : collect read ws = .ok xs) {x : α} (hx : x ∈ xs) :
    ∃ word ∈ ws, ∃ ys, read word = .ok ys ∧ x ∈ ys := by
  induction ws generalizing xs with
  | nil =>
    obtain rfl : [] = xs := by simpa [collect] using h
    cases hx
  | cons first rest ih =>
    rw [collect] at h
    cases hf : read first with
    | error e => simp [hf] at h
    | ok front =>
      cases hc : collect read rest with
      | error e => simp [hf, hc] at h
      | ok back =>
        have hxs : front ++ back = xs := by simpa [hf, hc] using h
        subst hxs
        rcases List.mem_append.mp hx with hx | hx
        · exact ⟨first, by simp, front, hf, hx⟩
        · obtain ⟨word, hw, hys⟩ := ih hc hx
          exact ⟨word, by simp [hw], hys⟩

/-- If every word comes to as many items, the list has as many for each word. -/
theorem length_collect {k : Nat} (hk : ∀ word xs, read word = .ok xs → xs.length = k) {xs : List α}
    (h : collect read ws = .ok xs) : xs.length = k * ws.length := by
  induction ws generalizing xs with
  | nil =>
    obtain rfl : [] = xs := by simpa [collect] using h
    rfl
  | cons first rest ih =>
    rw [collect] at h
    cases hf : read first with
    | error e => simp [hf] at h
    | ok front =>
      cases hc : collect read rest with
      | error e => simp [hf, hc] at h
      | ok back =>
        have hxs : front ++ back = xs := by simpa [hf, hc] using h
        rw [← hxs, List.length_append, hk _ _ hf, ih hc, List.length_cons, Nat.mul_succ,
          Nat.add_comm]

end Collect

/-! ## Programs -/

/-- The word is a numeral between 0 and `0xFFFF`. -/
def isProgramWord (word : List Char) : Bool :=
  match Text.readHex? word with
  | some v => decide (0 ≤ v) && decide (v ≤ 0xFFFF)
  | none => false

/-- The word is a numeral. -/
def isNumeral (word : List Char) : Bool :=
  (Text.readHex? word).isSome

theorem refuses_bytesOf (word : List Char) : refuses bytesOf word = !isProgramWord word := by
  unfold refuses bytesOf numberOf isProgramWord
  cases Text.readHex? word with
  | none => rfl
  | some v =>
    by_cases hlow : v < 0
    · simp [bytesOfNumber, hlow, Except.isOk, Except.toBool]
    · by_cases hhigh : 0xFFFF < v
      · simp [bytesOfNumber, hlow, hhigh, Except.isOk, Except.toBool]
      · simp [bytesOfNumber, hlow, hhigh, Except.isOk, Except.toBool, Int.not_lt.mp hlow,
          Int.not_lt.mp hhigh]

/-- A numeral is refused for its value, and any other word for not being one. -/
theorem isOverflow_of_bytesOf {word : List Char} {e : WordError} (h : bytesOf word = .error e) :
    e.isOverflow = isNumeral word := by
  unfold bytesOf numberOf at h
  unfold isNumeral
  cases hr : Text.readHex? word with
  | none =>
    obtain rfl : WordError.notNumeral _ = e := by simpa [hr] using h
    rfl
  | some v =>
    rw [hr] at h
    simp only [bytesOfNumber] at h
    split at h
    · cases h
      rfl
    · split at h <;> cases h
      rfl

theorem length_of_bytesOf {word : List Char} {bytes : List UInt8} (h : bytesOf word = .ok bytes) :
    bytes.length = 2 := by
  unfold bytesOf at h
  split at h
  · cases h
  · unfold bytesOfNumber at h
    split at h
    · cases h
    · split at h <;> cases h
      rfl

/-- A program is refused for the first word that is no program word. -/
theorem readImage_eq_error {text : String} {e : WordError} (h : readImage text = .error e) :
    ∃ word, (words text).find? (fun w => !isProgramWord w) = some word ∧
      e.isOverflow = isNumeral word := by
  obtain ⟨word, hfirst, he⟩ := collect_eq_error_iff.mp h
  rw [show refuses bytesOf = fun w => !isProgramWord w from funext refuses_bytesOf] at hfirst
  exact ⟨word, hfirst, isOverflow_of_bytesOf he⟩

/-- A program that is read has two bytes for each of its words. -/
theorem readImage_eq_ok {text : String} {image : List UInt8} (h : readImage text = .ok image) :
    (words text).find? (fun w => !isProgramWord w) = none ∧
      image.length = 2 * (words text).length := by
  refine ⟨?_, length_collect (fun _ _ => length_of_bytesOf) h⟩
  rw [List.find?_eq_none]
  intro word hw
  obtain ⟨ys, hy, -⟩ := exists_of_collect_ok h hw
  rw [← refuses_bytesOf, refuses_of_ok hy]
  simp

/-! ## Keys -/

/-- The word is a numeral between 0 and 15. -/
def isKeyWord (word : List Char) : Bool :=
  match Text.readHex? word with
  | some v => decide (0 ≤ v) && decide (v < 16)
  | none => false

theorem isKeyWord_of_readHex? {word : List Char} {v : Int} (h : Text.readHex? word = some v) :
    isKeyWord word = true ↔ 0 ≤ v ∧ v < 16 := by
  simp [isKeyWord, h]

theorem numberOf_eq_error {word : List Char} {e : WordError} (h : numberOf word = .error e) :
    Text.readHex? word = none ∧ e.isOverflow = false := by
  unfold numberOf at h
  cases hr : Text.readHex? word with
  | none =>
    obtain rfl : WordError.notNumeral _ = e := by simpa [hr] using h
    exact ⟨rfl, rfl⟩
  | some v => simp [hr] at h

theorem numberOf_eq_ok {word : List Char} {v : Int} (h : numberOf word = .ok v) :
    Text.readHex? word = some v := by
  unfold numberOf at h
  cases hr : Text.readHex? word with
  | none => simp [hr] at h
  | some w =>
    obtain rfl : w = v := by simpa [hr] using h
    rfl

/-- A key list is refused for a word that is no numeral, never for a value. -/
theorem readKeys_eq_error {text : String} {e : WordError} (h : readKeys text = .error e) :
    e.isOverflow = false ∧ ∃ word ∈ words text, isKeyWord word = false := by
  obtain ⟨word, hfirst, he⟩ := collect_eq_error_iff.mp h
  cases hn : numberOf word with
  | ok v => simp [hn, Except.map] at he
  | error e' =>
    obtain rfl : e' = e := by simpa [hn, Except.map] using he
    obtain ⟨hnone, hover⟩ := numberOf_eq_error hn
    exact ⟨hover, word, List.mem_of_find?_eq_some hfirst, by simp [isKeyWord, hnone]⟩

/-- The keys of a key list are the values of its words. -/
theorem readKeys_eq_ok {text : String} {keys : List Int} (h : readKeys text = .ok keys) :
    (∀ word ∈ words text, ∃ v ∈ keys, Text.readHex? word = some v) ∧
      ∀ v ∈ keys, ∃ word ∈ words text, Text.readHex? word = some v := by
  have hword {word : List Char} {ys : List Int} (hy : (numberOf word).map (fun v => [v]) = .ok ys) :
      ∃ v, ys = [v] ∧ Text.readHex? word = some v := by
    cases hn : numberOf word with
    | error e => simp [hn, Except.map] at hy
    | ok v =>
      obtain rfl : [v] = ys := by simpa [hn, Except.map] using hy
      exact ⟨v, rfl, numberOf_eq_ok hn⟩
  constructor
  · intro word hw
    obtain ⟨ys, hy, hmem⟩ := exists_of_collect_ok h hw
    obtain ⟨v, rfl, hv⟩ := hword hy
    exact ⟨v, hmem v (by simp), hv⟩
  · intro v hv
    obtain ⟨word, hw, ys, hy, hmem⟩ := exists_of_mem_collect h hv
    obtain ⟨u, rfl, hu⟩ := hword hy
    obtain rfl : v = u := by simpa using hmem
    exact ⟨word, hw, hu⟩

end Program

namespace Session

/-- Keys are put down, with nothing else changed, if every word is one of the keypad; otherwise there
is a trouble, and one that is reported. -/
theorem holdKeys_cases (s : Session) (text : String) :
    ((∀ word ∈ Program.words text, Program.isKeyWord word = true) ∧
      ∃ keys, (s.setKeys keys).result = .ok () ∧
        s.holdKeys text = .ok (s.setKeys keys).session) ∨
    ((∃ word ∈ Program.words text, Program.isKeyWord word = false) ∧
      ∃ t : Trouble, t.isReported = true ∧ s.holdKeys text = .error t) := by
  unfold holdKeys
  cases hr : Program.readKeys text with
  | error e =>
    obtain ⟨hover, hword⟩ := Program.readKeys_eq_error hr
    exact Or.inr ⟨hword, .word e, by simp [Trouble.isReported, hover], rfl⟩
  | ok keys =>
    obtain ⟨hvalue, hsource⟩ := Program.readKeys_eq_ok hr
    cases hk : keysOf keys with
    | error key =>
      obtain ⟨hmem, hout⟩ := keysOf_eq_error hk
      obtain ⟨word, hw, hv⟩ := hsource key hmem
      have hno : Program.isKeyWord word = false :=
        Bool.eq_false_iff.mpr fun hkey => hout ((Program.isKeyWord_of_readHex? hv).mp hkey)
      exact Or.inr ⟨⟨word, hw, hno⟩, .session (.invalidKey key), rfl,
        by simp only [setKeys, hk, orTrouble]⟩
    | ok ks =>
      refine Or.inl ⟨?_, keys, by simp only [setKeys, hk], by simp only [setKeys, hk, orTrouble]⟩
      intro word hw
      obtain ⟨v, hmem, hv⟩ := hvalue word hw
      exact (Program.isKeyWord_of_readHex? hv).mpr (keysOf_eq_ok hk v hmem)

end Session

end Chip8
