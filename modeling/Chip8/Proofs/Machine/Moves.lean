/-
# Chip8.Proofs.Machine.Moves — the moves of the machine that can fail, one equation each.

Six moves can fail: the return, the call, the draw, the store of values, and the block transfers in both
directions.  Each equation says when its move fails, by which cause, and what the machine is otherwise.
The index register is only asked not to be negative, which instructions never make it, and values to
be stored are asked to fit into bytes, which registers always do; then no move ends by a misfit, and the
only windows that are refused are those that end beyond memory.

A return or a call that succeeds has a lemma besides, which asks nothing of the machine.
-/
import Chip8.Proofs.Machine.Fetch
import Chip8.Primitive

namespace Chip8

namespace Byte

theorem length_of_ofInts? {vs : List Int} {bytes : List UInt8} (h : ofInts? vs = some bytes) :
    bytes.length = vs.length := by
  induction vs generalizing bytes with
  | nil =>
    cases h
    rfl
  | cons v rest ih =>
    unfold ofInts? at h
    split at h
    · cases h
    · obtain ⟨more, hmore, rfl⟩ := Option.map_eq_some_iff.mp h
      rw [List.length_cons, List.length_cons, ih hmore]

/-- Values that fit into bytes are the values of bytes. -/
theorem exists_ofInts? {vs : List Int} (h : ∀ v ∈ vs, Fits v) :
    ∃ bytes, ofInts? vs = some bytes := by
  induction vs with
  | nil => exact ⟨[], rfl⟩
  | cons v rest ih =>
    obtain ⟨bytes, hbytes⟩ := ih fun w hw => h w (List.mem_cons_of_mem v hw)
    have hv : ofInt? v = some (UInt8.ofNat v.toNat) := if_pos (h v List.mem_cons_self)
    refine ⟨UInt8.ofNat v.toNat :: bytes, ?_⟩
    rw [ofInts?, hv]
    simp only [hbytes, Option.map_some]

end Byte

namespace Machine

variable (m : Machine)

/-! ## The stack -/

theorem returnFrom_of_nil (h : m.stack = []) : m.returnFrom = .error ⟨m, .stackUnderflow⟩ := by
  unfold returnFrom pop
  rw [h]

theorem returnFrom_of_cons {a : Int} {rest : List Int} (h : m.stack = a :: rest) :
    m.returnFrom = .ok { m with pc := a, stack := rest } := by
  unfold returnFrom pop
  rw [h]
  rfl

theorem callTo_eq (a : Int) :
    m.callTo a = if 12 ≤ m.stack.length then .error ⟨m, .stackOverflow⟩
      else .ok { m with pc := a, stack := m.pc :: m.stack } := by
  unfold callTo push
  by_cases h : m.stack.length ≥ stackCapacity
  · have h12 : 12 ≤ m.stack.length := h
    rw [if_pos h, if_pos h12]
  · have h12 : ¬ 12 ≤ m.stack.length := h
    rw [if_neg h, if_neg h12]
    rfl

section Applied

variable {m} {n : Machine} {variant : Variant} {byte : UInt8} {i : Instruction}

/-- A return that succeeds takes the latest return address off the stack and goes there. -/
theorem of_returnFrom (hn : m.returnFrom = .ok n) :
    ∃ a rest, m.stack = a :: rest ∧ n = { m with pc := a, stack := rest } := by
  cases hs : m.stack with
  | nil =>
    rw [m.returnFrom_of_nil hs] at hn
    cases hn
  | cons a rest =>
    rw [m.returnFrom_of_cons hs] at hn
    cases hn
    exact ⟨a, rest, rfl, rfl⟩

/-- A call that succeeds puts the program counter on the stack. -/
theorem of_callTo {a : Int} (hn : m.callTo a = .ok n) :
    n = { m with pc := a, stack := m.pc :: m.stack } := by
  rw [m.callTo_eq] at hn
  split at hn <;> cases hn
  rfl

theorem returnFrom_of_apply (hop : i.op = .ret) (hx : m.apply variant byte i = .ok n) :
    m.returnFrom = .ok n := by
  unfold apply at hx
  rw [hop] at hx
  exact mapError_eq_ok_iff.mp hx

theorem callTo_of_apply (hop : i.op = .call) (hx : m.apply variant byte i = .ok n) :
    m.callTo i.address = .ok n := by
  unfold apply at hx
  rw [hop] at hx
  exact mapError_eq_ok_iff.mp hx

end Applied

/-! ## Memory -/

/-- Reading the window of `count` bytes at the index register. -/
theorem read_index_eq (h : 0 ≤ m.index) (count : Nat) :
    m.read m.index count = if 4096 < m.index + count then .error (.outOfBounds ⟨m.index, count⟩)
      else .ok (m.memory.slice m.index.toNat (m.index + count).toNat) := by
  unfold read
  by_cases hend : 4096 < m.index + count
  · rw [m.memory.read_eq_error hend, if_pos hend]
    rfl
  · rw [m.memory.read_eq_ok h (by omega) (by omega), if_neg hend]
    rfl

theorem store_eq (h : 0 ≤ m.index) {values : List Int} (hv : ∀ v ∈ values, Byte.Fits v) :
    ∃ bytes, Byte.ofInts? values = some bytes ∧ bytes.length = values.length ∧
      m.store values =
        if 4096 < m.index + values.length then
          .error ⟨m, .fault (.outOfBounds ⟨m.index, values.length⟩)⟩
        else .ok { m with memory := m.memory.put m.index.toNat bytes } := by
  obtain ⟨bytes, hbytes⟩ := Byte.exists_ofInts? hv
  have hlen := Byte.length_of_ofInts? hbytes
  refine ⟨bytes, hbytes, hlen, ?_⟩
  unfold store
  simp only [hbytes]
  by_cases hend : 4096 < m.index + values.length
  · have hr : Memory.Refuses m.index bytes.length := Or.inr (hlen ▸ hend)
    rw [m.write_of_refuses hr, if_pos hend, hlen]
    rfl
  · have hr : ¬ Memory.Refuses m.index bytes.length := Memory.not_refuses_iff.mpr ⟨h, by omega⟩
    rw [m.write_of_not_refuses hr, if_neg hend]
    rfl

/-- The three decimal digits of a byte fit into bytes. -/
theorem decimalDigits_fits {v : Int} (hv : Byte.Fits v) :
    ∀ d ∈ decimalDigits v, Byte.Fits d := by
  unfold Byte.Fits at hv ⊢
  simp only [decimalDigits, List.forall_mem_cons, List.not_mem_nil, false_implies, implies_true,
    and_true]
  omega

theorem length_firstRegisters (r : Register) : (m.firstRegisters (r.val + 1)).length = r.val + 1 := by
  unfold firstRegisters
  rw [List.length_take, Vector.length_toList]
  omega

theorem mem_firstRegisters {count : Nat} {v : Int} (h : v ∈ m.firstRegisters count) :
    ∃ r, v = m.register r := by
  obtain ⟨k, hk, rfl⟩ := List.mem_iff_getElem.mp (List.mem_of_mem_take h)
  have hk16 : k < 16 := by
    simpa only [Vector.length_toList] using hk
  exact ⟨⟨k, hk16⟩, rfl⟩

theorem storeThrough_eq (h : 0 ≤ m.index) (hv : ∀ r, Byte.Fits (m.register r))
    (variant : Variant) (r : Register) :
    ∃ bytes, Byte.ofInts? (m.firstRegisters (r.val + 1)) = some bytes ∧
      bytes.length = r.val + 1 ∧
      m.storeThrough variant r =
        if 4096 < m.index + (r.val + 1 : Nat) then
          .error ⟨m, .fault (.outOfBounds ⟨m.index, (r.val + 1 : Nat)⟩)⟩
        else .ok ({ m with memory := m.memory.put m.index.toNat bytes }.passBlock variant
          (r.val + 1)) := by
  -- what is stored are registers, so the check for bytes never fails
  have hfits : ∀ v ∈ m.firstRegisters (r.val + 1), Byte.Fits v := by
    intro v hmem
    obtain ⟨q, rfl⟩ := m.mem_firstRegisters hmem
    exact hv q
  obtain ⟨bytes, hbytes, hlen, hstore⟩ := m.store_eq h hfits
  rw [m.length_firstRegisters] at hlen hstore
  refine ⟨bytes, hbytes, hlen, ?_⟩
  unfold storeThrough
  simp only [hstore]
  by_cases hend : 4096 < m.index + (r.val + 1 : Nat)
  · simp only [if_pos hend]
  · simp only [if_neg hend]

theorem loadThrough_eq (h : 0 ≤ m.index) (variant : Variant) (r : Register) :
    m.loadThrough variant r =
      if 4096 < m.index + (r.val + 1 : Nat) then
        .error ⟨m, .outOfBounds ⟨m.index, (r.val + 1 : Nat)⟩⟩
      else .ok ((m.setFirstRegisters ((m.memory.slice m.index.toNat
        (m.index + (r.val + 1 : Nat)).toNat).map Byte.toInt)).passBlock variant (r.val + 1)) := by
  unfold loadThrough
  simp only [m.read_index_eq h (r.val + 1)]
  by_cases hend : 4096 < m.index + (r.val + 1 : Nat)
  · simp only [if_pos hend]
  · simp only [if_neg hend]

/-! ## The screen -/

theorem drawSprite_eq (h : 0 ≤ m.index) (x y : Int) (height : Nat) :
    m.drawSprite x y height =
      if 4096 < m.index + height then .error ⟨m, .outOfBounds ⟨m.index, height⟩⟩
      else
        let drawn := m.screen.draw (x % screenWidth).toNat (y % screenHeight).toNat
          (m.memory.slice m.index.toNat (m.index + height).toNat)
        .ok ({ m with screen := drawn.1 }.setFlag drawn.2) := by
  unfold drawSprite
  rw [m.read_index_eq h height]
  by_cases hend : 4096 < m.index + height
  · simp only [if_pos hend]
  · simp only [if_neg hend]

end Machine

end Chip8
