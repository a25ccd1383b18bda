/-
# Chip8.Proofs.Machine.Boot — what stands in memory when a machine is fresh.

Putting bytes replaces a stretch of memory as long as they are and leaves what stands before and behind
it.  A fresh machine is two such stretches put into zeros, so its memory reads, in address order: the
font, zeros up to the program start, the image, and zeros up to the end.
-/
import Chip8.Proofs.Machine.Fetch

namespace Chip8

namespace Memory

@[simp] theorem length_toList (m : Memory) : m.toList.length = memorySize := by
  simp [toList]

@[simp] theorem toList_zeros : zeros.toList = List.replicate memorySize 0 := by
  simp [toList, zeros]

theorem toList_setByte (m : Memory) (a : Nat) (b : UInt8) :
    (m.setByte a b).toList = m.toList.set a b := by
  simp [toList, setByte]

theorem byteAt_eq_getD (m : Memory) (a : Nat) : m.byteAt a = m.toList.getD a 0 := by
  simp [byteAt, toList]

/-- Bytes that are put replace a stretch of memory. -/
theorem toList_put (data : List UInt8) (m : Memory) {a : Nat} (h : a + data.length ≤ memorySize) :
    (m.put a data).toList = m.toList.take a ++ data ++ m.toList.drop (a + data.length) := by
  induction data generalizing m a with
  | nil => simp [put]
  | cons b rest ih =>
    rw [List.length_cons] at h
    have ha : a < m.toList.length := by simpa using (by omega : a < memorySize)
    rw [put, ih (m.setByte a b) (by omega), toList_setByte]
    have hfront : (m.toList.set a b).take (a + 1) = m.toList.take a ++ [b] := by
      rw [List.take_add_one, List.take_set_of_le (Nat.le_refl a), List.getElem?_set_self ha]
      rfl
    have hback : (m.toList.set a b).drop (a + 1 + rest.length) =
        m.toList.drop (a + (b :: rest).length) := by
      rw [List.drop_set_of_lt (by omega), List.length_cons]
      congr 1
      omega
    rw [hfront, hback]
    simp

end Memory

namespace Machine

/-- How many bytes an image may have. -/
theorem maxImageSize_eq : maxImageSize = 3584 := rfl

/-- Two stretches put into zeros, the second behind the first. -/
theorem toList_put_put {low high : List UInt8} {a : Nat} (hlow : low.length ≤ a)
    (hhigh : a + high.length ≤ memorySize) :
    ((Memory.zeros.put 0 low).put a high).toList =
      low ++ List.replicate (a - low.length) 0 ++ high ++
        List.replicate (memorySize - a - high.length) 0 := by
  have hfirst : (Memory.zeros.put 0 low).toList =
      low ++ List.replicate (memorySize - low.length) 0 := by
    rw [Memory.toList_put low _ (by omega), Memory.toList_zeros, List.take_zero, List.nil_append,
      Nat.zero_add, List.drop_replicate]
  have hfront : (low ++ List.replicate (memorySize - low.length) (0 : UInt8)).take a =
      low ++ List.replicate (a - low.length) 0 := by
    rw [List.take_append, List.take_of_length_le hlow, List.take_replicate,
      Nat.min_eq_left (by omega)]
  have hback : (low ++ List.replicate (memorySize - low.length) (0 : UInt8)).drop (a + high.length) =
      List.replicate (memorySize - a - high.length) 0 := by
    rw [List.drop_append, List.drop_of_length_le (by omega), List.drop_replicate, List.nil_append,
      show memorySize - low.length - (a + high.length - low.length) =
        memorySize - a - high.length by omega]
  rw [Memory.toList_put high _ hhigh, hfirst, hfront, hback]

/-- The memory of a fresh machine, in address order. -/
theorem toList_boot {image : List UInt8} (h : image.length ≤ 3584) :
    ((Memory.zeros.put Font.start Font.bytes).put programStart image).toList =
      Font.bytes ++ List.replicate (0x200 - Font.bytes.length) 0 ++ image ++
        List.replicate (3584 - image.length) 0 :=
  toList_put_put (by decide) (by unfold programStart memorySize; omega)

/-- An image that fits is booted: everything but memory is as on a blank machine. -/
theorem boot?_eq_some {image : List UInt8} (h : image.length ≤ 3584) :
    ∃ m, boot? image = some m ∧ { m with memory := blank.memory } = blank ∧
      m.memory.toList = Font.bytes ++ List.replicate (0x200 - Font.bytes.length) 0 ++ image ++
        List.replicate (3584 - image.length) 0 := by
  rw [boot?, maxImageSize_eq, if_neg (by omega)]
  exact ⟨_, rfl, rfl, toList_boot h⟩

end Machine

end Chip8
