/-
# Chip8.Proofs.Machine.Windows — what reads find after writes.

A window is an address and a length.  A window inside memory can be read and written, and any other is
refused.  A write puts its data in place of the bytes of its window, so memory keeps its size and every
address outside the window its byte.  A read lists the bytes of its window in address order.

`overlaid` says what stands at one address after a write.  What a read finds behind a write is then one
overlay over what it would have found before (`overlays_of_write`), and behind two writes it is two, the
later one on top (`Overlays.trans`).  Two overlays without a common address may change places, and so may
the writes that they stand for.
-/
import Chip8.Proofs.Machine.Boot

namespace Chip8

/-! ## One address -/

/-- The address `x` is one of the `count` addresses from `address` on. -/
def InWindow (address count x : Int) : Prop :=
  address ≤ x ∧ x < address + count

instance (address count x : Int) : Decidable (InWindow address count x) :=
  inferInstanceAs (Decidable (_ ∧ _))

/-- What stands at the address `x` when data has been put from `address` on, over what stood there. -/
def overlaid (address : Int) (data : List UInt8) (x : Int) (under : Option UInt8) : Option UInt8 :=
  if InWindow address data.length x then data[(x - address).toNat]? else under

theorem overlaid_of_inWindow {address x : Int} {data : List UInt8}
    (h : InWindow address data.length x) (under : Option UInt8) :
    overlaid address data x under = data[(x - address).toNat]? :=
  if_pos h

theorem overlaid_of_not_inWindow {address x : Int} {data : List UInt8}
    (h : ¬ InWindow address data.length x) (under : Option UInt8) :
    overlaid address data x under = under :=
  if_neg h

theorem overlaid_comm {a b x : Int} {data data' : List UInt8}
    (h : InWindow a data.length x → ¬ InWindow b data'.length x) (under : Option UInt8) :
    overlaid b data' x (overlaid a data x under) = overlaid a data x (overlaid b data' x under) := by
  by_cases ha : InWindow a data.length x
  · rw [overlaid_of_not_inWindow (h ha), overlaid_of_inWindow ha, overlaid_of_inWindow ha]
  · rw [overlaid_of_not_inWindow ha, overlaid_of_not_inWindow ha]

namespace Memory

theorem ext_toList {m n : Memory} (h : m.toList = n.toList) : m = n := by
  cases m
  cases n
  exact congrArg Memory.mk (Vector.toList_inj.mp h)

theorem slice_eq_take_drop (m : Memory) (start stop : Nat) :
    m.slice start stop = (m.toList.drop start).take (stop - start) := by
  rw [slice, Array.toList_extract, List.extract_eq_take_drop, Vector.toList_toArray, toList]

/-- An address holds one of the bytes that have been put, or the byte that was there. -/
theorem getElem?_toList_put (m : Memory) {a : Nat} {data : List UInt8}
    (h : a + data.length ≤ memorySize) (x : Nat) :
    (m.put a data).toList[x]? = overlaid a data x m.toList[x]? := by
  have hfront : (m.toList.take a).length = a :=
    List.length_take_of_le (by rw [length_toList]; omega)
  rw [toList_put data m h, List.append_assoc, List.getElem?_append, hfront, List.getElem?_append,
    List.getElem?_take, List.getElem?_drop]
  by_cases hwindow : InWindow a data.length x
  · obtain ⟨hlow, hhigh⟩ := hwindow
    have hoffset : ((x : Int) - a).toNat = x - a := by omega
    rw [overlaid_of_inWindow ⟨hlow, hhigh⟩, hoffset, if_neg (by omega), if_pos (by omega)]
  · rw [overlaid_of_not_inWindow hwindow]
    by_cases hlow : x < a
    · rw [if_pos hlow, if_pos hlow]
    · have hhigh : ¬ x - a < data.length := fun hhigh => hwindow ⟨by omega, by omega⟩
      have hx : a + data.length + (x - a - data.length) = x := by omega
      rw [if_neg hlow, if_neg hhigh, hx]

end Memory

namespace Machine

variable {m n k : Machine} {address count : Int} {data : List UInt8}

/-! ## One access -/

theorem read_eq (m : Machine) (hcount : 0 ≤ count) :
    m.read address count = if 0 ≤ address ∧ address + count ≤ 4096
      then .ok ((m.memory.toList.drop address.toNat).take count.toNat)
      else .error (.outOfBounds ⟨address, count⟩) := by
  split
  · next h =>
    have hlen : (address + count).toNat - address.toNat = count.toNat := by omega
    rw [read, m.memory.read_eq_ok h.1 hcount h.2, mapError_ok, Memory.slice_eq_take_drop, hlen]
  · next h =>
    rw [← Memory.not_refuses_iff, Decidable.not_not] at h
    exact m.read_of_refuses h

theorem write_eq (m : Machine) (address : Int) (data : List UInt8) :
    m.write address data = if 0 ≤ address ∧ address + data.length ≤ 4096
      then .ok { m with memory := m.memory.put address.toNat data }
      else .error ⟨m, .outOfBounds ⟨address, data.length⟩⟩ := by
  split
  · next h => exact m.write_of_not_refuses (Memory.not_refuses_iff.mpr h)
  · next h =>
    rw [← Memory.not_refuses_iff, Decidable.not_not] at h
    exact m.write_of_refuses h

theorem read_eq_ok_iff (hcount : 0 ≤ count) :
    m.read address count = .ok data ↔ (0 ≤ address ∧ address + count ≤ 4096) ∧
      data = (m.memory.toList.drop address.toNat).take count.toNat := by
  rw [m.read_eq hcount]
  split
  · next h => simp [h, eq_comm]
  · next h => simp [h]

theorem write_eq_ok_iff :
    m.write address data = .ok n ↔ (0 ≤ address ∧ address + data.length ≤ 4096) ∧
      n = { m with memory := m.memory.put address.toNat data } := by
  rw [m.write_eq]
  split
  · next h => simp [h, eq_comm]
  · next h => simp [h]

/-- What is read are the bytes of the window in address order. -/
theorem getElem?_of_read (hcount : 0 ≤ count) (h : m.read address count = .ok data) {i : Nat}
    (hi : (i : Int) < count) : data[i]? = m.memory.toList[(address + i).toNat]? := by
  obtain ⟨⟨ha, -⟩, rfl⟩ := (read_eq_ok_iff hcount).mp h
  have hx : address.toNat + i = (address + i).toNat := by omega
  rw [List.getElem?_take_of_lt (by omega), List.getElem?_drop, hx]

/-- What is written fits in behind its address. -/
theorem fits_of_write (h : m.write address data = .ok n) :
    address.toNat + data.length ≤ memorySize := by
  obtain ⟨⟨ha, hend⟩, -⟩ := write_eq_ok_iff.mp h
  unfold memorySize
  omega

theorem getElem?_of_write (h : m.write address data = .ok n) (x : Nat) :
    n.memory.toList[x]? = overlaid address data x m.memory.toList[x]? := by
  have hfits := fits_of_write h
  obtain ⟨⟨ha, -⟩, rfl⟩ := write_eq_ok_iff.mp h
  rw [Memory.getElem?_toList_put _ hfits, Int.toNat_of_nonneg ha]

/-! ## One access after another -/

/-- What can be read of the first machine can be read of the second one, and each byte is that of the
first machine as `f` changes it at its address. -/
def Overlays (m n : Machine) (f : Int → Option UInt8 → Option UInt8) : Prop :=
  ∀ address count old, 0 ≤ count → m.read address count = .ok old →
    ∃ new, n.read address count = .ok new ∧ new.length = old.length ∧
      ∀ j < new.length, new[j]? = f (address + j) old[j]?

/-- What holds of one overlay and of another over it holds of both in one. -/
theorem Overlays.trans {f g : Int → Option UInt8 → Option UInt8} (h : m.Overlays n f)
    (h' : n.Overlays k g) : m.Overlays k fun x under => g x (f x under) := by
  intro address count old hcount hold
  obtain ⟨middle, hmiddle, hlen, hbyte⟩ := h address count old hcount hold
  obtain ⟨new, hnew, hlen', hbyte'⟩ := h' address count middle hcount hmiddle
  refine ⟨new, hnew, hlen'.trans hlen, ?_⟩
  intro j hj
  rw [hbyte' j hj, hbyte j (hlen' ▸ hj)]

/-- A write lays its data over what reads found before. -/
theorem overlays_of_write (h : m.write address data = .ok n) :
    m.Overlays n (overlaid address data) := by
  intro b count old hcount hold
  -- whether a window can be read does not depend on what memory holds
  obtain ⟨hinside, -⟩ := (read_eq_ok_iff hcount).mp hold
  have hnew : n.read b count = .ok _ := (read_eq_ok_iff hcount).mpr ⟨hinside, rfl⟩
  have hlen := Memory.length_of_read_eq_ok hcount (mapError_eq_ok_iff.mp hold)
  have hlen' := Memory.length_of_read_eq_ok hcount (mapError_eq_ok_iff.mp hnew)
  refine ⟨_, hnew, by omega, ?_⟩
  intro j hj
  have hj' : (j : Int) < count := by omega
  rw [getElem?_of_read hcount hnew hj', getElem?_of_read hcount hold hj', getElem?_of_write h,
    Int.toNat_of_nonneg (by omega)]

/-- Two writes whose windows have no common address may change places. -/
theorem write_write_comm {a b : Int} {data data' : List UInt8}
    (hapart : ∀ x, InWindow a data.length x → ¬ InWindow b data'.length x)
    (h : m.write a data = .ok n) (h' : n.write b data' = .ok k) :
    ∃ n', m.write b data' = .ok n' ∧ n'.write a data = .ok k := by
  obtain ⟨ha, hn⟩ := write_eq_ok_iff.mp h
  obtain ⟨hb, hk⟩ := write_eq_ok_iff.mp h'
  obtain ⟨n', hn'⟩ : ∃ n', m.write b data' = .ok n' := ⟨_, write_eq_ok_iff.mpr ⟨hb, rfl⟩⟩
  obtain ⟨k', hk'⟩ : ∃ k', n'.write a data = .ok k' := ⟨_, write_eq_ok_iff.mpr ⟨ha, rfl⟩⟩
  have hmemory : k'.memory = k.memory := by
    apply Memory.ext_toList
    apply List.ext_getElem?
    intro x
    rw [getElem?_of_write hk', getElem?_of_write hn', getElem?_of_write h', getElem?_of_write h,
      overlaid_comm (hapart x)]
  have hsame : k' = k := by
    obtain ⟨-, rfl⟩ := write_eq_ok_iff.mp hn'
    obtain ⟨-, rfl⟩ := write_eq_ok_iff.mp hk'
    rw [hk, hn] at hmemory ⊢
    exact congrArg (fun memory => { m with memory }) hmemory
  exact ⟨n', hn', hsame ▸ hk'⟩

/-- **Reads find the last write.**  A window of any length can be read exactly when it lies inside memory,
and is otherwise refused by its address and length.  The read has as many bytes as were asked for, and
they are the bytes of memory at the addresses of the window.

A window can be written under the same condition, and a refused write leaves the machine as it was.  A
write changes nothing but memory, which keeps its size: its data stands in place of as many bytes.  Whatever could be read before can be read afterwards,
and each byte is one of the data if its address is in the written window, and the old one otherwise.

Behind two writes, a byte in the window of the later one is from its data; else it is from the data of
the earlier one if it is in that window, and the old one if it is in neither.  If the two windows have no
common address, the writes can be made in the other order and come to the same. -/
theorem reads_find_last_write (m : Machine) :
    (∀ address count : Int, 0 ≤ count →
      ((∃ bytes, m.read address count = .ok bytes) ↔ 0 ≤ address ∧ address + count ≤ 4096) ∧
      (¬ (0 ≤ address ∧ address + count ≤ 4096) →
        m.read address count = .error (.outOfBounds ⟨address, count⟩)) ∧
      ∀ bytes, m.read address count = .ok bytes → (bytes.length : Int) = count ∧
        ∀ i < bytes.length, bytes[i]? = m.memory.toList[(address + i).toNat]?) ∧
    (∀ (address : Int) (data : List UInt8),
      ((∃ n, m.write address data = .ok n) ↔ 0 ≤ address ∧ address + data.length ≤ 4096) ∧
      (¬ (0 ≤ address ∧ address + data.length ≤ 4096) →
        m.write address data = .error ⟨m, .outOfBounds ⟨address, data.length⟩⟩) ∧
      ∀ n, m.write address data = .ok n →
        n = { m with memory := n.memory } ∧
        n.memory.toList = m.memory.toList.take address.toNat ++ data ++
          m.memory.toList.drop (address.toNat + data.length) ∧
        n.memory.toList.length = 4096 ∧
        m.Overlays n (overlaid address data)) ∧
    (∀ (a b : Int) (data data' : List UInt8) (n k : Machine),
      m.write a data = .ok n → n.write b data' = .ok k →
        (m.Overlays k fun x under => overlaid b data' x (overlaid a data x under)) ∧
        ((∀ x, InWindow a data.length x → ¬ InWindow b data'.length x) →
          ∃ n', m.write b data' = .ok n' ∧ n'.write a data = .ok k)) := by
  refine ⟨?_, ?_, ?_⟩
  · intro address count hcount
    refine ⟨?_, fun hout => by rw [m.read_eq hcount, if_neg hout], ?_⟩
    · simp only [read_eq_ok_iff hcount, exists_and_left, exists_eq, and_true]
    · intro bytes h
      have hlen := Memory.length_of_read_eq_ok hcount (mapError_eq_ok_iff.mp h)
      exact ⟨hlen, fun i hi => getElem?_of_read hcount h (by omega)⟩
  · intro address data
    refine ⟨?_, fun hout => by rw [m.write_eq, if_neg hout], ?_⟩
    · simp only [write_eq_ok_iff, exists_and_left, exists_eq, and_true]
    · intro n h
      have hoverlays := overlays_of_write h
      have hfits := fits_of_write h
      obtain ⟨-, rfl⟩ := write_eq_ok_iff.mp h
      exact ⟨rfl, m.memory.toList_put data hfits, Memory.length_toList _, hoverlays⟩
  · intro a b data data' n k h h'
    exact ⟨(overlays_of_write h).trans (overlays_of_write h'),
      fun hapart => write_write_comm hapart h h'⟩

/-- Three bytes up to the last address and then two that end in their first one; and the same bytes one
address lower, in either order. -/
theorem reads_find_last_write_at_end :
    ∃ n k new, blank.write 0xFFD [1, 2, 3] = .ok n ∧ n.write 0xFFC [8, 9] = .ok k ∧
      k.read 0xFFC 4 = .ok new ∧ new[0]? = some 8 ∧ new[1]? = some 9 ∧ new[2]? = some 2 ∧
      new[3]? = some 3 ∧
      ∃ n' k', n.write 0xFFB [8, 9] = .ok k' ∧ blank.write 0xFFB [8, 9] = .ok n' ∧
        n'.write 0xFFD [1, 2, 3] = .ok k' := by
  obtain ⟨hread, hwrite, htwice⟩ := reads_find_last_write blank
  obtain ⟨n, hn⟩ := (hwrite 0xFFD [1, 2, 3]).1.mpr (by decide)
  obtain ⟨-, hwrite', -⟩ := reads_find_last_write n
  obtain ⟨k, hk⟩ := (hwrite' 0xFFC [8, 9]).1.mpr (by decide)
  obtain ⟨k', hk'⟩ := (hwrite' 0xFFB [8, 9]).1.mpr (by decide)
  obtain ⟨hreadable, -, hlists⟩ := hread 0xFFC 4 (by decide)
  obtain ⟨old, hold⟩ := hreadable.mpr (by decide)
  obtain ⟨hlen, -⟩ := hlists old hold
  obtain ⟨hover, -⟩ := htwice 0xFFD 0xFFC [1, 2, 3] [8, 9] n k hn hk
  obtain ⟨new, hnew, hlen', hbyte⟩ := hover 0xFFC 4 old (by decide) hold
  have hapart (x : Int) (hx : InWindow 0xFFD 3 x) : ¬ InWindow 0xFFB 2 x := fun hx' => by
    have := hx.1
    have := hx'.2
    omega
  obtain ⟨-, hcomm⟩ := htwice 0xFFD 0xFFB [1, 2, 3] [8, 9] n k' hn hk'
  obtain ⟨n', hn', hback⟩ := hcomm hapart
  exact ⟨n, k, new, hn, hk, hnew, hbyte 0 (by omega), hbyte 1 (by omega), hbyte 2 (by omega),
    hbyte 3 (by omega), n', k', hk', hn', hback⟩

end Machine

end Chip8
