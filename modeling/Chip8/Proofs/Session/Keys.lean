/-
# Chip8.Proofs.Session.Keys — which integers name keys, and what a list of them does.

A list of integers is a list of keys unless one of them lies outside the keypad.  Order and repetitions do
not matter: once the list is put down, a key is down exactly if its number is in the list.
-/
import Chip8.Session.Host

namespace Chip8

theorem Key.ofInt?_eq_none_iff {k : Int} : ofInt? k = none ↔ ¬ (0 ≤ k ∧ k < 16) :=
  dite_eq_right_iff.trans (forall_congr' fun _ => iff_of_false nofun id)

/-- A key is the key of its number only. -/
theorem Key.val_of_ofInt? {k : Int} {key : Key} (h : ofInt? k = some key) : (key.val : Int) = k := by
  unfold ofInt? at h
  split at h
  · next hk =>
    obtain rfl := Option.some.inj h
    exact Int.toNat_of_nonneg hk.1
  · cases h

namespace Session

variable {keys : List Int} {ks : List Key}

/-- Integers are keys unless one of them lies outside the keypad. -/
theorem keysOf_eq_error {key : Int} (h : keysOf keys = .error key) :
    key ∈ keys ∧ ¬ (0 ≤ key ∧ key < 16) := by
  induction keys with
  | nil => cases h
  | cons k rest ih =>
    rw [keysOf] at h
    cases hk : Key.ofInt? k with
    | none =>
      rw [hk] at h
      obtain rfl : k = key := Except.error.inj h
      exact ⟨List.mem_cons_self, Key.ofInt?_eq_none_iff.mp hk⟩
    | some first =>
      cases hrest : keysOf rest with
      | ok more =>
        rw [hk, hrest] at h
        cases h
      | error e =>
        rw [hk, hrest] at h
        obtain rfl : e = key := Except.error.inj h
        obtain ⟨hmem, hout⟩ := ih hrest
        exact ⟨List.mem_cons_of_mem k hmem, hout⟩

/-- The keys of a list of integers have these numbers, in the same order. -/
theorem map_val_keysOf (h : keysOf keys = .ok ks) : ks.map (fun k => (k.val : Int)) = keys := by
  induction keys generalizing ks with
  | nil =>
    cases h
    rfl
  | cons k rest ih =>
    rw [keysOf] at h
    cases hk : Key.ofInt? k with
    | none =>
      rw [hk] at h
      cases h
    | some first =>
      cases hrest : keysOf rest with
      | error e =>
        rw [hk, hrest] at h
        cases h
      | ok more =>
        rw [hk, hrest] at h
        obtain rfl : first :: more = ks := Except.ok.inj h
        rw [List.map_cons, ih hrest, Key.val_of_ofInt? hk]

theorem keysOf_eq_ok (h : keysOf keys = .ok ks) : ∀ key ∈ keys, 0 ≤ key ∧ key < 16 := by
  rw [← map_val_keysOf h, List.forall_mem_map]
  intro k _
  omega

theorem keysOf_eq_error_iff :
    (∃ key, keysOf keys = .error key) ↔ ∃ key ∈ keys, ¬ (0 ≤ key ∧ key < 16) := by
  constructor
  · rintro ⟨key, hkey⟩
    exact ⟨key, keysOf_eq_error hkey⟩
  · rintro ⟨key, hmem, hout⟩
    cases hk : keysOf keys with
    | error e => exact ⟨e, rfl⟩
    | ok ks => exact (hout (keysOf_eq_ok hk key hmem)).elim

/-- A key is down exactly if the list that was put down has its number. -/
theorem isDown_setKeys {s : Session} (h : (s.setKeys keys).result = .ok ()) (k : Key) :
    (s.setKeys keys).session.machine.keypad.isDown k = true ↔ (k.val : Int) ∈ keys := by
  unfold setKeys at h ⊢
  cases hk : keysOf keys with
  | error key =>
    rw [hk] at h
    cases h
  | ok ks =>
    show (Keypad.ofPressed ks).isDown k = true ↔ _
    rw [Keypad.isDown_ofPressed, List.contains_iff_mem, ← map_val_keysOf hk, List.mem_map]
    constructor
    · intro hmem
      exact ⟨k, hmem, rfl⟩
    · rintro ⟨j, hmem, hj⟩
      obtain rfl : j = k := Fin.ext (Int.ofNat.inj hj)
      exact hmem

end Session

end Chip8
