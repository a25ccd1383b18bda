/-
# Chip8.Proofs.CommandLine.Arguments — options with their values behind an equals sign.

An assignment is the long spelling of an option, an equals sign and the value.  No spelling has an equals
sign in it, so an assignment is read as the option with all that stands behind the first one, whatever
that is.  A list of assignments therefore chooses what its options and values say one after the other,
unless a value is two lone dashes, which an option is given for nothing.
-/
import Chip8.CommandLine.Choices
import Chip8.Proofs.Text.Numeral

namespace Chip8.CommandLine

/-! ## Assignments -/

/-- The long spelling of an option that takes a value. -/
def Field.longSpelling : Field → String
  | .rom => "--rom"
  | .hex => "--hex"
  | .variant => "--quirks"
  | .frames => "--frames"
  | .clockRate => "--clock-rate"
  | .seed => "--seed"
  | .keys => "--keys"
  | .logLevel => "--log-level"

/-- An option with its value behind an equals sign. -/
def assignment (f : Field) (value : String) : String :=
  f.longSpelling ++ "=" ++ value

theorem toList_assignment (f : Field) (value : String) :
    (assignment f value).toList = f.longSpelling.toList ++ '=' :: value.toList := by
  have hsign : "=".toList = ['='] := by decide
  rw [assignment, String.toList_append, String.toList_append, hsign, List.append_assoc]
  rfl

/-- The long spellings are spellings of their options. -/
theorem lookup_longSpelling (f : Field) :
    spelled.lookup f.longSpelling.toList = some (.field f) := by
  cases f <;> decide +kernel

/-- Spellings begin with a dash and have no equals sign. -/
theorem spelled_spec : ∀ p ∈ spelled, p.1.head? = some '-' ∧ '=' ∉ p.1 := by
  decide +kernel

/-- What has an equals sign is no spelling. -/
theorem lookup_eq_none {cs : List Char} (h : '=' ∈ cs) : spelled.lookup cs = none := by
  rw [List.lookup_eq_none_iff]
  intro p hp
  have hne : cs ≠ p.1 := by
    rintro rfl
    exact (spelled_spec p hp).2 h
  simpa using hne

theorem splitEquals_append {name : List Char} (h : '=' ∉ name) (text : List Char) :
    splitEquals (name ++ '=' :: text) = (name, some text) := by
  have hname : ∀ c ∈ name, (c != '=') = true := by
    intro c hc
    have hne : c ≠ '=' := by
      rintro rfl
      exact h hc
    simpa using hne
  simp [splitEquals, List.dropWhile_append_of_pos hname, List.takeWhile_append_of_pos hname]

/-- The facts about the long spelling of an option. -/
theorem longSpelling_spec (f : Field) :
    f.longSpelling.toList.head? = some '-' ∧ '=' ∉ f.longSpelling.toList := by
  obtain ⟨front, back, hspelled, -⟩ := List.lookup_eq_some_iff.mp (lookup_longSpelling f)
  have hmem : (f.longSpelling.toList, Opt.field f) ∈ spelled := by
    rw [hspelled]
    simp
  exact spelled_spec _ hmem

/-- An assignment is read as its option, with the value attached. -/
theorem classify_assignment (f : Field) (value : String) :
    classify (assignment f value) =
      .ok (.option f.longSpelling.toList (.field f) (some value.toList)) := by
  obtain ⟨hdash, hequals⟩ := longSpelling_spec f
  have hhead : (f.longSpelling.toList ++ '=' :: value.toList).head? = some '-' := by
    rw [List.head?_append, hdash]
    rfl
  have hlen : (f.longSpelling.toList ++ '=' :: value.toList).length ≠ 1 := by
    have hne : f.longSpelling.toList ≠ [] := by
      intro hnil
      rw [hnil] at hdash
      cases hdash
    have := List.length_pos_iff.mpr hne
    simp
    omega
  have hwhole : spelled.lookup (f.longSpelling.toList ++ '=' :: value.toList) = none :=
    lookup_eq_none (by simp)
  simp only [classify, toList_assignment, hhead, hwhole, hlen, splitEquals_append hequals,
    lookup_longSpelling, ne_eq, not_true_eq_false, if_false]

/-- Assignments are read one by one. -/
theorem classifyAll_assignments (ps : List (Field × String)) :
    classifyAll (ps.map fun p => assignment p.1 p.2) =
      .ok (ps.map fun p => .option p.1.longSpelling.toList (.field p.1) (some p.2.toList)) := by
  induction ps with
  | nil => rfl
  | cons p ps ih =>
    have hmark : assignment p.1 p.2 ≠ "--" := by
      intro h
      have hmem : '=' ∈ (assignment p.1 p.2).toList := by
        rw [toList_assignment]
        simp
      rw [h] at hmem
      exact absurd hmem (by decide)
    rw [List.map_cons, classifyAll, if_neg hmark, classify_assignment, ih]
    rfl

/-! ## What assignments choose -/

namespace Choices

theorem takeTokens_attached (c : Choices) (strays : List String) (spelling : List Char) (f : Field)
    {value : String} (h : value ≠ "--") (rest : List Token) :
    c.takeTokens strays (.option spelling (.field f) (some value.toList) :: rest) =
      match c.useField f value with
      | .error stop => .error stop
      | .ok c => c.takeTokens strays rest := by
  have htext : value.toList ≠ ['-', '-'] := by
    intro hdashes
    apply h
    rw [← String.ofList_toList (s := value), hdashes]
  have huse : Use.ofAttached f value.toList = .field f value := by
    rw [Use.ofAttached, if_neg htext, String.ofList_toList]
  simp only [takeTokens, expand, Expansion.ofUse, huse, useAll, use]
  cases c.useField f value <;> rfl

/-- Assignments have the effect of their options and values in order. -/
theorem takeTokens_assignments (c : Choices) (strays : List String) {ps : List (Field × String)}
    (h : ∀ p ∈ ps, p.2 ≠ "--") :
    c.takeTokens strays
        (ps.map fun p => .option p.1.longSpelling.toList (.field p.1) (some p.2.toList)) =
      (c.useAll (ps.map fun p => .field p.1 p.2)).map fun c => (c, strays) := by
  induction ps generalizing c with
  | nil => rfl
  | cons p ps ih =>
    obtain ⟨hp, hps⟩ := List.forall_mem_cons.mp h
    simp only [List.map_cons, takeTokens_attached c strays _ p.1 hp, useAll, use]
    cases c.useField p.1 p.2 with
    | error stop => rfl
    | ok c => exact ih c hps

/-- Assignments that come to choices with a program are accepted. -/
theorem ofArguments_assignments {ps : List (Field × String)} (h : ∀ p ∈ ps, p.2 ≠ "--")
    {c : Choices} (hc : standard.useAll (ps.map fun p => .field p.1 p.2) = .ok c)
    (hprogram : c.rom ≠ "" ∨ c.hex ≠ "") :
    ofArguments (ps.map fun p => assignment p.1 p.2) = .ok c := by
  have hno : ¬ (c.rom = "" ∧ c.hex = "") := by
    rintro ⟨hrom, hhex⟩
    exact hprogram.elim (fun hne => hne hrom) fun hne => hne hhex
  rw [ofArguments, classifyAll_assignments]
  simp only [takeTokens_assignments standard [] h, hc, Except.map]
  rw [if_neg hno]
  rfl

end Choices

theorem readWhole_toString {n : Int} (h : Text.hasDecimal n = true) (f : Field) :
    readWhole f (toString n) = .ok n := by
  rw [readWhole, Text.readDecimal?_toString h]

end Chip8.CommandLine
