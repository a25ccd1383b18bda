/-
# Chip8.Proofs.Dispatch — a dispatch table exists only if it is complete.

Registrations into an open table go well until a kind comes up for the second time
(`registerAll_of_nodup`, `registerAll_of_repetition`), and the table that they make up is closed if no
kind is missing.  So the order in which a table can be refused is fixed: a repetition is reported as soon
as it comes up, whatever is missing, and missing kinds only when no kind was repeated.

What is left when nothing is refused is a table with every kind in it.  It takes no more registrations and
has a primitive for every instruction.  A refused registration hands over a table, and that is the one it
was made on (`register_of_frozen`, `register_of_mem`).
-/
import Chip8.Dispatch
import Chip8.Proofs.Machine.Fetch
import Mathlib.Data.List.Induction
import Mathlib.Data.List.Nodup

namespace Chip8

/-- A list with a repetition has a first one: an element that stands further in front already, with
nothing repeated in front of it. -/
theorem exists_first_repetition {α : Type} {l : List α} (h : ¬ l.Nodup) :
    ∃ earlier a later, l = earlier ++ a :: later ∧ earlier.Nodup ∧ a ∈ earlier := by
  induction l using List.reverseRecOn with
  | nil => exact absurd List.nodup_nil h
  | append_singleton front last ih =>
    rw [← List.concat_eq_append, List.nodup_concat] at h
    by_cases hfront : front.Nodup
    · -- only the last element can be the repeated one
      have hlast : last ∈ front := Classical.not_not.mp fun hnew => h ⟨hnew, hfront⟩
      exact ⟨front, last, [], rfl, hfront, hlast⟩
    · obtain ⟨earlier, a, later, rfl, hnodup, ha⟩ := ih hfront
      exact ⟨earlier, a, later ++ [last], by simp, hnodup, ha⟩

namespace DispatchError

/-! ## Names in order -/

theorem perm_sortNames (names : List String) : (sortNames names).Perm names :=
  List.mergeSort_perm names _

/-- Names that differ are sorted strictly. -/
theorem pairwise_lt_sortNames {names : List String} (h : names.Nodup) :
    (sortNames names).Pairwise (· < ·) := by
  have hsorted : (sortNames names).Pairwise (· ≤ ·) := by
    refine (List.pairwise_mergeSort ?_ ?_ names).imp of_decide_eq_true
    · intro a b c hab hbc
      exact decide_eq_true (String.le_trans (of_decide_eq_true hab) (of_decide_eq_true hbc))
    · intro a b
      simpa using String.le_total a b
  have hnodup : (sortNames names).Nodup := (perm_sortNames names).nodup_iff.mpr h
  refine hsorted.imp₂ ?_ hnodup
  intro a b hle hne
  exact String.not_le.mp fun hge => hne (String.le_antisymm hle hge)

/-- Missing kinds are reported by their names in ascending order. -/
theorem exists_names_of_missing {missing : List Op} (h : missing.Nodup) :
    ∃ names, (incomplete missing).message =
        "No primitive registered for: " ++ ", ".intercalate names ∧
      names.Pairwise (· < ·) ∧ ∀ name, name ∈ names ↔ ∃ op ∈ missing, op.name = name := by
  have hnames : (missing.map Op.name).Nodup := h.map fun _ _ => Op.name_injective
  refine ⟨_, rfl, pairwise_lt_sortNames hnames, ?_⟩
  intro name
  rw [(perm_sortNames _).mem_iff, List.mem_map]

end DispatchError

namespace Dispatch

variable {d : Dispatch} {op : Op} {primitive : Primitive} {entries : List (Op × Primitive)}

/-! ## One registration -/

theorem register_of_frozen (h : d.isFrozen = true) (op : Op) (primitive : Primitive) :
    d.register op primitive = .error ⟨d, .frozen⟩ := by
  rw [register, if_pos h]

theorem register_of_mem (hopen : d.isFrozen = false) (h : op ∈ d.kinds) (primitive : Primitive) :
    d.register op primitive = .error ⟨d, .duplicate op⟩ := by
  rw [register, if_neg (by simp [hopen]), if_pos (by simpa using h)]

theorem register_of_not_mem (hopen : d.isFrozen = false) (h : op ∉ d.kinds) (primitive : Primitive) :
    d.register op primitive = .ok { d with entries := (op, primitive) :: d.entries } := by
  rw [register, if_neg (by simp [hopen]), if_neg (by simpa using h)]

/-! ## One registration after another -/

theorem registerAll_append (d : Dispatch) (front back : List (Op × Primitive)) :
    d.registerAll (front ++ back) =
      match d.registerAll front with
      | .error stopped => .error stopped
      | .ok d => d.registerAll back := by
  induction front generalizing d with
  | nil => rfl
  | cons entry front ih =>
    obtain ⟨op, primitive⟩ := entry
    rw [List.cons_append, registerAll, registerAll]
    cases d.register op primitive with
    | error stopped => rfl
    | ok d => exact ih d

/-- Kinds that are new to an open table and to each other are all registered. -/
theorem registerAll_of_new (hopen : d.isFrozen = false) (hnodup : (entries.map (·.1)).Nodup)
    (hnew : ∀ op ∈ entries.map (·.1), op ∉ d.kinds) :
    d.registerAll entries = .ok { d with entries := entries.reverse ++ d.entries } := by
  induction entries generalizing d with
  | nil => rfl
  | cons entry rest ih =>
    obtain ⟨op, primitive⟩ := entry
    obtain ⟨hop, hrest⟩ := List.nodup_cons.mp hnodup
    rw [registerAll, register_of_not_mem hopen (hnew op List.mem_cons_self)]
    -- the rest is new to the table with this kind in it as well
    have hstill : ∀ op' ∈ rest.map (·.1), op' ∉ op :: d.kinds := by
      intro op' hop'
      rintro (_ | ⟨_, hold⟩)
      · exact hop hop'
      · exact hnew op' (List.mem_cons_of_mem _ hop') hold
    simp only [ih (d := { d with entries := (op, primitive) :: d.entries }) hopen hrest hstill,
      List.reverse_cons, List.append_assoc, List.singleton_append]

theorem registerAll_of_nodup (h : (entries.map (·.1)).Nodup) :
    empty.registerAll entries = .ok ⟨entries.reverse, false⟩ := by
  rw [registerAll_of_new rfl h fun _ _ => List.not_mem_nil, empty, List.append_nil]

/-- The first kind that comes up again ends the registrations, whatever would follow. -/
theorem registerAll_of_repetition {earlier later : List Op}
    (hsplit : entries.map (·.1) = earlier ++ op :: later) (hnodup : earlier.Nodup)
    (hop : op ∈ earlier) : ∃ d, empty.registerAll entries = .error ⟨d, .duplicate op⟩ := by
  obtain ⟨front, back, rfl, rfl, hback⟩ := List.map_eq_append_iff.mp hsplit
  obtain ⟨⟨op', primitive⟩, rest, rfl, rfl, -⟩ := List.map_eq_cons_iff.mp hback
  have hknown : op' ∈ kinds ⟨front.reverse, false⟩ := by
    simpa [kinds] using hop
  refine ⟨⟨front.reverse, false⟩, ?_⟩
  simp only [registerAll_append, registerAll_of_nodup hnodup, registerAll,
    register_of_mem rfl hknown primitive]

/-! ## Closing a table -/

theorem mem_missing : op ∈ d.missing ↔ op ∉ d.kinds := by
  simp [missing, Op.mem_all]

theorem missing_eq_nil_iff : d.missing = [] ↔ ∀ op, op ∈ d.kinds := by
  simp [List.eq_nil_iff_forall_not_mem, mem_missing]

theorem freeze_of_complete (h : ∀ op, op ∈ d.kinds) :
    d.freeze = .ok { d with isFrozen := true } := by
  rw [freeze, missing_eq_nil_iff.mpr h]
  rfl

theorem nodup_missing (d : Dispatch) : d.missing.Nodup :=
  Op.nodup_all.filter _

theorem freeze_of_not_mem (h : op ∉ d.kinds) : d.freeze = .error ⟨d, .incomplete d.missing⟩ := by
  rw [freeze, if_neg]
  rw [List.isEmpty_iff, missing_eq_nil_iff]
  exact fun hall => h (hall op)

/-- The kinds that the entries are for, the latest first. -/
theorem kinds_reverse (entries : List (Op × Primitive)) (isFrozen : Bool) :
    kinds ⟨entries.reverse, isFrozen⟩ = (entries.map (·.1)).reverse :=
  List.map_reverse

theorem buildFrom_of_nodup (h : (entries.map (·.1)).Nodup) :
    buildFrom entries = (freeze ⟨entries.reverse, false⟩).mapError Stopped.reason := by
  rw [buildFrom, registerAll_of_nodup h]

theorem buildFrom_of_repetition {earlier later : List Op}
    (hsplit : entries.map (·.1) = earlier ++ op :: later) (hnodup : earlier.Nodup)
    (hop : op ∈ earlier) : buildFrom entries = .error (.duplicate op) := by
  obtain ⟨d, hd⟩ := registerAll_of_repetition hsplit hnodup hop
  rw [buildFrom, hd]

/-- Without a repetition, the kinds that are not in the list are reported. -/
theorem buildFrom_of_not_mem (hnodup : (entries.map (·.1)).Nodup) (hop : op ∉ entries.map (·.1)) :
    ∃ missing, buildFrom entries = .error (.incomplete missing) ∧ missing.Nodup ∧
      ∀ op, op ∈ missing ↔ op ∉ entries.map (·.1) := by
  have hkinds (op : Op) : op ∈ kinds ⟨entries.reverse, false⟩ ↔ op ∈ entries.map (·.1) := by
    rw [kinds_reverse, List.mem_reverse]
  refine ⟨missing ⟨entries.reverse, false⟩, ?_, nodup_missing _, ?_⟩
  · rw [buildFrom_of_nodup hnodup, freeze_of_not_mem (mt (hkinds op).mp hop), mapError_error]
  · intro op
    rw [mem_missing, hkinds]

theorem buildFrom_of_perm (h : (entries.map (·.1)).Perm Op.all) :
    buildFrom entries = .ok ⟨entries.reverse, true⟩ := by
  have hall (op : Op) : op ∈ kinds ⟨entries.reverse, false⟩ := by
    rw [kinds_reverse, List.mem_reverse, h.mem_iff]
    exact op.mem_all
  rw [buildFrom_of_nodup (h.nodup_iff.mpr Op.nodup_all), freeze_of_complete hall, mapError_ok]

/-- Only complete lists without repetition make a table, and it holds what has been registered. -/
theorem of_buildFrom_eq_ok (h : buildFrom entries = .ok d) :
    (entries.map (·.1)).Perm Op.all ∧ d = ⟨entries.reverse, true⟩ := by
  by_cases hnodup : (entries.map (·.1)).Nodup
  · by_cases hall : ∀ op, op ∈ entries.map (·.1)
    · have hperm : (entries.map (·.1)).Perm Op.all :=
        (List.perm_ext_iff_of_nodup hnodup Op.nodup_all).mpr fun op =>
          iff_of_true (hall op) op.mem_all
      rw [buildFrom_of_perm hperm] at h
      exact ⟨hperm, (Except.ok.inj h).symm⟩
    · obtain ⟨op, hop⟩ := Classical.not_forall.mp hall
      obtain ⟨missing, hrefused, -⟩ := buildFrom_of_not_mem hnodup hop
      rw [hrefused] at h
      cases h
  · obtain ⟨earlier, op, later, hsplit, hearlier, hop⟩ := exists_first_repetition hnodup
    rw [buildFrom_of_repetition hsplit hearlier hop] at h
    cases h

/-! ## Finding primitives -/

/-- A registered kind is found, with a primitive that has been registered for it. -/
theorem exists_find? (h : op ∈ d.kinds) :
    ∃ primitive, d.find? op = some primitive ∧ (op, primitive) ∈ d.entries := by
  obtain ⟨entry, hentry, rfl⟩ := List.mem_map.mp h
  have hsome : (d.find? entry.1).isSome = true :=
    List.lookup_isSome_iff.mpr ⟨entry, hentry, beq_self_eq_true _⟩
  obtain ⟨primitive, hfound⟩ := Option.isSome_iff_exists.mp hsome
  obtain ⟨front, back, hsplit, -⟩ := List.lookup_eq_some_iff.mp hfound
  exact ⟨primitive, hfound, by simp [hsplit]⟩

/-- A table that exists has a primitive for every kind, one that was registered for it. -/
theorem find?_of_buildFrom (h : buildFrom entries = .ok d) (op : Op) :
    ∃ primitive, d.find? op = some primitive ∧ (op, primitive) ∈ entries := by
  obtain ⟨hperm, rfl⟩ := of_buildFrom_eq_ok h
  have hop : op ∈ kinds ⟨entries.reverse, true⟩ := by
    rw [kinds_reverse, List.mem_reverse, hperm.mem_iff]
    exact op.mem_all
  obtain ⟨primitive, hfound, hentry⟩ := exists_find? hop
  exact ⟨primitive, hfound, List.mem_reverse.mp hentry⟩

/-! ## Registrations that go on after refusals -/

/-- Carries out registrations in order, each on the table that the one before has left: the table at the
end, and why each of them was refused, if it was. -/
def attempt (d : Dispatch) : List (Op × Primitive) → Dispatch × List (Option DispatchError)
  | [] => (d, [])
  | (op, primitive) :: rest =>
    match d.register op primitive with
    | .error ⟨left, e⟩ =>
      let (t, refusals) := left.attempt rest
      (t, some e :: refusals)
    | .ok d =>
      let (t, refusals) := d.attempt rest
      (t, none :: refusals)

/-- A frozen table refuses every registration. -/
theorem attempt_of_frozen (h : d.isFrozen = true) (calls : List (Op × Primitive)) :
    d.attempt calls = (d, calls.map fun _ => some .frozen) := by
  induction calls with
  | nil => rfl
  | cons call rest ih =>
    obtain ⟨op, primitive⟩ := call
    simp only [attempt, register_of_frozen h, ih, List.map_cons]

/-- **A table exists only if it is complete.**  Registering primitives for the kinds of a list in order
and freezing comes to a table exactly when the list has every kind once.  A list with a repetition is
refused by the first kind in it that came up before, whatever is missing; a list without one, but with
kinds missing, is refused by the names of just these kinds in ascending order.

A table that exists refuses every registration that follows, and these leave it as it is, with all kinds
in it.  For the reading of any integer it has a primitive, one that was registered for that kind.  Where
every kind was registered with its own primitive, what is found does what the instruction does. -/
theorem table_exists_iff_complete :
    (∀ entries : List (Op × Primitive),
      ((∃ d, buildFrom entries = .ok d) ↔ (entries.map (·.1)).Perm Op.all) ∧
      (¬ (entries.map (·.1)).Nodup → ∃ earlier op later,
        entries.map (·.1) = earlier ++ op :: later ∧ earlier.Nodup ∧ op ∈ earlier ∧
        buildFrom entries = .error (.duplicate op) ∧
        (DispatchError.duplicate op).message = "Primitive already registered: " ++ op.name) ∧
      ((entries.map (·.1)).Nodup → (∃ op, op ∉ entries.map (·.1)) → ∃ missing names,
        buildFrom entries = .error (.incomplete missing) ∧
        (DispatchError.incomplete missing).message =
          "No primitive registered for: " ++ ", ".intercalate names ∧
        names.Pairwise (· < ·) ∧
        ∀ name, name ∈ names ↔ ∃ op, op ∉ entries.map (·.1) ∧ op.name = name) ∧
      ∀ d, buildFrom entries = .ok d →
        (∀ calls, d.attempt calls = (d, calls.map fun _ => some .frozen)) ∧
        d.kinds.Perm Op.all ∧
        ∀ k : Int, ∃ primitive, d.find? (Instruction.ofInt k).op = some primitive ∧
          ((Instruction.ofInt k).op, primitive) ∈ entries) ∧
    (∀ ops d, build ops = .ok d → ∀ (k : Int) (variant : Variant) (byte : UInt8) (m : Machine),
      ∃ primitive, d.find? (Instruction.ofInt k).op = some primitive ∧
        primitive variant byte (Instruction.ofInt k) m = m.apply variant byte (Instruction.ofInt k)) := by
  refine ⟨fun entries => ⟨⟨?_, ?_⟩, ?_, ?_, ?_⟩, ?_⟩
  · rintro ⟨d, h⟩
    exact (of_buildFrom_eq_ok h).1
  · intro h
    exact ⟨_, buildFrom_of_perm h⟩
  · intro h
    obtain ⟨earlier, op, later, hsplit, hearlier, hop⟩ := exists_first_repetition h
    exact ⟨earlier, op, later, hsplit, hearlier, hop, buildFrom_of_repetition hsplit hearlier hop, rfl⟩
  · rintro hnodup ⟨op, hop⟩
    obtain ⟨missing, hrefused, hmissing, hmem⟩ := buildFrom_of_not_mem hnodup hop
    obtain ⟨names, hmessage, hsorted, hnames⟩ := DispatchError.exists_names_of_missing hmissing
    refine ⟨missing, names, hrefused, hmessage, hsorted, ?_⟩
    intro name
    simp only [hnames, hmem]
  · intro d h
    have hfind := find?_of_buildFrom h
    obtain ⟨hperm, rfl⟩ := of_buildFrom_eq_ok h
    refine ⟨attempt_of_frozen rfl, ?_, fun k => hfind _⟩
    rw [kinds_reverse]
    exact (List.reverse_perm _).trans hperm
  · intro ops d h k variant byte m
    obtain ⟨primitive, hfound, hentry⟩ := find?_of_buildFrom h (Instruction.ofInt k).op
    obtain ⟨op, -, hop⟩ := List.mem_map.mp hentry
    obtain ⟨rfl, rfl⟩ := Prod.mk.inj hop
    exact ⟨_, hfound, rfl⟩

/-- All kinds backwards make a table that refuses a second draw and finds the first one; a jump that comes
up again is reported though most kinds are missing; and without the jump's repetition they are. -/
theorem table_exists_iff_complete_backwards :
    (∃ d, build Op.all.reverse = .ok d ∧
      d.attempt [(.draw, Op.unknown.primitive), (.ret, Op.ret.primitive)] =
        (d, [some .frozen, some .frozen]) ∧
      ∃ primitive, d.find? .draw = some primitive ∧
        primitive .chip8 0 ⟨0xD015⟩ .blank = Machine.blank.apply .chip8 0 ⟨0xD015⟩) ∧
    (∃ e, build [.call, .jump, .ret, .jump, .call] = .error e ∧
      e.message = "Primitive already registered: OP_JP") ∧
    ∃ e names, build [.call, .jump, .ret] = .error e ∧
      e.message = "No primitive registered for: " ++ ", ".intercalate names ∧
      names.Pairwise (· < ·) ∧ "OP_CLS" ∈ names ∧ "OP_JP" ∉ names := by
  let entry (op : Op) : Op × Primitive := (op, op.primitive)
  obtain ⟨htables, hown⟩ := table_exists_iff_complete
  refine ⟨?_, ?_, ?_⟩
  · obtain ⟨hexists, -, -, hbuilt⟩ := htables (Op.all.reverse.map entry)
    obtain ⟨d, hd⟩ := hexists.mpr (List.reverse_perm Op.all)
    obtain ⟨primitive, hfound, happly⟩ := hown Op.all.reverse d hd 0xD015 .chip8 0 .blank
    exact ⟨d, hd, (hbuilt d hd).1 _, primitive, hfound, happly⟩
  · obtain ⟨-, hrepeated, -⟩ := htables ([.call, .jump, .ret, .jump, .call].map entry)
    obtain ⟨earlier, op, later, -, -, -, hrefused, hmessage⟩ := hrepeated (by decide)
    have hjump : DispatchError.duplicate op = .duplicate .jump :=
      Except.error.inj (hrefused.symm.trans rfl)
    exact ⟨_, hrefused, by rw [hmessage, DispatchError.duplicate.inj hjump]; rfl⟩
  · obtain ⟨-, -, hmissing, -⟩ := htables ([.call, .jump, .ret].map entry)
    obtain ⟨missing, names, hrefused, hmessage, hsorted, hnames⟩ :=
      hmissing (by decide) ⟨.clearScreen, by decide⟩
    refine ⟨_, names, hrefused, hmessage, hsorted, ?_, ?_⟩
    · exact (hnames _).mpr ⟨.clearScreen, by decide, rfl⟩
    · intro h
      obtain ⟨op, hop, hname⟩ := (hnames _).mp h
      obtain rfl : op = .jump := Op.name_injective hname
      exact hop (by decide)

end Dispatch

end Chip8
