/-
# Chip8.Proofs.Machine.Fetch — memory windows byte by byte, and what a fetch does.

A window that memory does not refuse has as many bytes as were asked for, and its bytes are those of
memory at the addresses of the window.  A fetch is a window of two bytes, so at a non-negative program
counter it fails only at the upper end of memory; `fetch_eq` says this as one equation.  There the
wrapping of the program counter at sixteen bits has no effect.
-/
import Chip8.Machine

namespace Chip8

/-! ## Results and errors under another name -/

section Renamed

variable {α ε δ : Type} {x : Except ε α} {f : ε → δ}

theorem mapError_ok (a : α) : (.ok a : Except ε α).mapError f = .ok a := rfl

theorem mapError_error (e : ε) : (.error e : Except ε α).mapError f = .error (f e) := rfl

theorem mapError_eq_ok_iff {a : α} : x.mapError f = .ok a ↔ x = .ok a := by
  cases x with
  | error e =>
    constructor <;> intro h <;> cases h
  | ok b =>
    constructor <;> intro h <;> cases h <;> rfl

theorem mapError_eq_error_iff {d : δ} : x.mapError f = .error d ↔ ∃ e, x = .error e ∧ d = f e := by
  cases x with
  | error e =>
    constructor
    · intro h
      cases h
      exact ⟨e, rfl, rfl⟩
    · rintro ⟨e, he, rfl⟩
      cases he
      rfl
  | ok b =>
    constructor
    · intro h
      cases h
    · rintro ⟨e, he, -⟩
      cases he

end Renamed

theorem map_eq_ok_iff {ε α β : Type} {x : Except ε α} {f : α → β} {b : β} :
    x.map f = .ok b ↔ ∃ a, x = .ok a ∧ f a = b := by
  cases x with
  | error e =>
    constructor
    · intro h
      cases h
    · rintro ⟨a, ha, -⟩
      cases ha
  | ok a =>
    constructor
    · intro h
      exact ⟨a, rfl, Except.ok.inj h⟩
    · rintro ⟨a', ha, rfl⟩
      cases ha
      rfl

namespace Memory

/-! ## Windows -/

/-- The windows that are not refused are those that lie inside memory. -/
theorem not_refuses_iff {address count : Int} :
    ¬ Refuses address count ↔ 0 ≤ address ∧ address + count ≤ 4096 := by
  simp only [Refuses, memorySize]
  omega

theorem length_slice (m : Memory) {start stop : Nat} (h : stop ≤ memorySize) :
    (m.slice start stop).length = stop - start := by
  simp only [slice, Array.length_toList, Array.size_extract, Vector.size_toArray]
  omega

theorem getD_slice (m : Memory) {start stop i : Nat} (h : stop ≤ memorySize)
    (hi : i < stop - start) : (m.slice start stop).getD i 0 = m.byteAt (start + i) := by
  have hlen : i < (m.slice start stop).length := by
    rw [length_slice m h]
    exact hi
  have hin : start + i < m.bytes.toArray.size := by
    rw [Vector.size_toArray]
    omega
  rw [List.getD_eq_getElem?_getD, List.getElem?_eq_getElem hlen]
  simp only [slice, Array.getElem_toList, Array.getElem_extract, byteAt,
    Array.getD_eq_getD_getElem?, Array.getElem?_eq_getElem hin, Option.getD_some]

/-- A window that is not refused is the slice between its two ends. -/
theorem read_eq_ok (m : Memory) {address count : Int} (ha : 0 ≤ address) (hc : 0 ≤ count)
    (h : address + count ≤ 4096) :
    m.read address count = .ok (m.slice address.toNat (address + count).toNat) := by
  have hr : ¬ Refuses address count := not_refuses_iff.mpr ⟨ha, h⟩
  have hend : windowEnd address count = (address + count).toNat := by
    unfold windowEnd
    rw [if_neg (by omega)]
  rw [read, check_of_not_refuses hr, hend]
  rfl

/-- A window that ends beyond memory is refused. -/
theorem read_eq_error (m : Memory) {address count : Int} (h : 4096 < address + count) :
    m.read address count = .error ⟨address, count⟩ := by
  have hr : Refuses address count := Or.inr h
  rw [read, check_of_refuses hr]
  rfl

theorem length_of_read_eq_ok {m : Memory} {address count : Int} {bytes : List UInt8}
    (hc : 0 ≤ count) (h : m.read address count = .ok bytes) : (bytes.length : Int) = count := by
  by_cases hr : Refuses address count
  · rw [read, check_of_refuses hr] at h
    cases h
  · obtain ⟨ha, hend⟩ := not_refuses_iff.mp hr
    rw [read_eq_ok m ha hc hend] at h
    obtain rfl := Except.ok.inj h
    have hs : (address + count).toNat ≤ memorySize := by
      unfold memorySize
      omega
    rw [length_slice m hs]
    omega

end Memory

namespace Machine

/-! ## Accesses -/

section Accesses

variable (m : Machine) {address count : Int} {data : List UInt8}

theorem read_of_refuses (h : Memory.Refuses address count) :
    m.read address count = .error (.outOfBounds ⟨address, count⟩) := by
  rw [read, Memory.read, Memory.check_of_refuses h]
  rfl

theorem read_of_not_refuses (h : ¬ Memory.Refuses address count) :
    m.read address count =
      .ok (m.memory.slice address.toNat (Memory.windowEnd address count)) := by
  rw [read, Memory.read, Memory.check_of_not_refuses h]
  rfl

theorem write_of_refuses (h : Memory.Refuses address data.length) :
    m.write address data = .error ⟨m, .outOfBounds ⟨address, data.length⟩⟩ := by
  rw [write, Memory.check_of_refuses h]

theorem write_of_not_refuses (h : ¬ Memory.Refuses address data.length) :
    m.write address data = .ok { m with memory := m.memory.put address.toNat data } := by
  rw [write, Memory.check_of_not_refuses h]

end Accesses

/-! ## Fetching -/

/-- The instruction whose bytes stand at an address and behind it. -/
def instructionAt (m : Machine) (a : Nat) : Instruction :=
  .ofBytes (m.memory.byteAt a) (m.memory.byteAt (a + 1))

/-- The instruction at the program counter. -/
def current (m : Machine) : Instruction :=
  m.instructionAt m.pc.toNat

/-- Wherever the program counter stands, a fetch changes nothing else. -/
theorem eq_advance_of_fetch {m n : Machine} {i : Instruction} (h : m.fetch = .ok (i, n)) :
    n = m.advance 2 := by
  unfold fetch at h
  split at h
  · cases h
  · cases h
    rfl

/-- A fetch fails exactly when its second byte lies beyond memory.  Otherwise it answers with the
instruction at the program counter, which it moves by two; nothing wraps. -/
theorem fetch_eq (m : Machine) (h : 0 ≤ m.pc) :
    m.fetch = if 4096 < m.pc + 2 then .error ⟨m, .outOfBounds ⟨m.pc, 2⟩⟩
      else .ok (m.current, { m with pc := m.pc + 2 }) := by
  by_cases hend : 4096 < m.pc + 2
  · simp only [fetch, read, m.memory.read_eq_error hend, mapError_error, if_pos hend]
  · have hstop : (m.pc + 2).toNat ≤ memorySize := by
      unfold memorySize
      omega
    have hlen : (m.pc + 2).toNat - m.pc.toNat = 2 := by omega
    -- inside memory the counter stays far below sixteen bits
    have hpc : (m.pc + 2) % 65536 = m.pc + 2 := by omega
    simp only [fetch, read, m.memory.read_eq_ok h (by decide) (by omega : m.pc + 2 ≤ 4096),
      mapError_ok, if_neg hend, current, instructionAt, advance, hpc]
    rw [m.memory.getD_slice hstop (by omega), m.memory.getD_slice hstop (by omega), Nat.add_zero]

/-- What a successful fetch says of the machine. -/
theorem fetch_eq_ok_iff {m n : Machine} {i : Instruction} (h : 0 ≤ m.pc) :
    m.fetch = .ok (i, n) ↔
      m.pc + 2 ≤ 4096 ∧ i = m.current ∧ n = { m with pc := m.pc + 2 } := by
  rw [fetch_eq m h]
  split
  · constructor
    · intro hf
      cases hf
    · rintro ⟨hend, -, -⟩
      omega
  · constructor
    · intro hf
      cases hf
      exact ⟨by omega, rfl, rfl⟩
    · rintro ⟨-, rfl, rfl⟩
      rfl

/-- A fetch that succeeds has the program counter in memory, so that it moves it by two in any case. -/
theorem eq_of_fetch {m n : Machine} {i : Instruction} (h : m.fetch = .ok (i, n)) :
    n = { m with pc := m.pc + 2 } := by
  have hpc : 0 ≤ m.pc := by
    by_cases hr : Memory.Refuses m.pc 2
    · rw [fetch, m.read_of_refuses hr] at h
      cases h
    · exact (Memory.not_refuses_iff.mp hr).1
  exact ((fetch_eq_ok_iff hpc).mp h).2.2

/-- What a failing fetch says of the machine, and what it leaves. -/
theorem fetch_eq_error_iff {m : Machine} {stopped : Stopped Machine Cause} (h : 0 ≤ m.pc) :
    m.fetch = .error stopped ↔
      4096 < m.pc + 2 ∧ stopped = ⟨m, .outOfBounds ⟨m.pc, 2⟩⟩ := by
  rw [fetch_eq m h]
  split
  · constructor
    · intro hf
      cases hf
      exact ⟨by omega, rfl⟩
    · rintro ⟨-, rfl⟩
      rfl
  · constructor
    · intro hf
      cases hf
    · rintro ⟨hend, -⟩
      omega

end Machine

end Chip8
