/-
# Chip8.Proofs.Machine.KeyWait — one round of the wait for a key.

A round that finds no candidate takes the lowest key that is down for one and goes back; a round that
finds the candidate down only goes back; a round that finds it up ends the wait.  These are the only
rounds, as long as the candidate is a key: `awaitKey_of_no_candidate` and `awaitKey_of_candidate` give
each as an equation.
-/
import Chip8.Primitive

namespace Chip8

theorem Position.resolve_key (k : Key) : Position.resolve 16 (k.val : Int) = .ok k :=
  resolve_natCast k.isLt (by decide)

/-- The lowest key that is down is down, and all keys below it are up. -/
theorem Keypad.lowest?_eq_some_iff {p : Keypad} {k : Key} :
    p.lowest? = some k ↔ p.isDown k = true ∧ ∀ j, j < k → p.isDown j = false := by
  simp only [lowest?, Key.all, List.find?_eq_some_iff_getElem, List.getElem_finRange,
    Bool.not_eq_true']
  -- the key with number `n` stands at place `n` of the list that is searched
  constructor
  · rintro ⟨hdown, n, hn, rfl, hbelow⟩
    exact ⟨hdown, fun j hj => hbelow j.val hj⟩
  · rintro ⟨hdown, hbelow⟩
    have hk : k.val < (List.finRange 16).length := by
      rw [List.length_finRange]
      exact k.isLt
    exact ⟨hdown, k.val, hk, rfl, fun j hj => hbelow _ hj⟩

/-- Without a lowest key no key is down. -/
theorem Keypad.lowest?_eq_none_iff {p : Keypad} :
    p.lowest? = none ↔ ∀ k, p.isDown k = false := by
  simp only [lowest?, Key.all, List.find?_eq_none, List.mem_finRange, true_implies,
    Bool.not_eq_true]

namespace Machine

variable {m : Machine}

/-- A candidate is always a key. -/
theorem candidate?_eq_some_iff {k : Int} :
    m.candidate? = some k ↔ ∃ key : Key, m.keypad.lowest? = some key ∧ k = key.val := by
  unfold candidate?
  rw [Option.map_eq_some_iff]
  constructor
  · rintro ⟨key, hkey, rfl⟩
    exact ⟨key, hkey, rfl⟩
  · rintro ⟨key, hkey, rfl⟩
    exact ⟨key, hkey, rfl⟩

/-- The round that begins a wait, and every round that finds no candidate, looks for one and goes
back. -/
theorem awaitKey_of_no_candidate (r : Register)
    (h : m.awaitingKey = true → m.pendingKey = none) :
    m.awaitKey r =
      .ok { m.advance (-2) with awaitingKey := true, pendingKey := m.candidate? } := by
  unfold awaitKey beginWait
  cases haw : m.awaitingKey with
  | false => simp only [Bool.false_eq_true, if_false, candidate?, advance]
  | true => simp only [if_true, h haw, haw, advance]

/-- A round whose candidate names a key asks only whether that key is down. -/
theorem awaitKey_of_resolve (r : Register) {p : Int} {k : Key} (haw : m.awaitingKey = true)
    (hp : m.pendingKey = some p) (hk : Position.resolve 16 p = .ok k) :
    m.awaitKey r =
      if m.keypad.isDown k then .ok (m.advance (-2))
      else .ok { m.setRegister r p with awaitingKey := false, pendingKey := none } := by
  have hb : m.beginWait = m := if_pos haw
  unfold awaitKey
  rw [hb]
  simp only [hp, hk]

/-- A round that finds a candidate goes back while the candidate is down, and ends the wait once it is
up. -/
theorem awaitKey_of_candidate (r : Register) {k : Key} (haw : m.awaitingKey = true)
    (hp : m.pendingKey = some (k.val : Int)) :
    m.awaitKey r =
      if m.keypad.isDown k then .ok (m.advance (-2))
      else .ok { m.setRegister r k.val with awaitingKey := false, pendingKey := none } :=
  awaitKey_of_resolve r haw hp (Position.resolve_key k)

end Machine

end Chip8
