/-
# Chip8.Proofs.Machine.Transfer — storing and loading blocks of registers.

`FX55` stores the registers `V0` to `VX` in memory from the index register on, and `FX65` loads them from
there.  `Machine.Stored` and `Machine.Loaded` say what either leaves, by the same two notions: a block of
registers stands at an address (`Memory.HoldsBlock`), and the index register stands behind the block or
where it was, as the variant has it (`indexBehind`).  As both transfers speak of the same block, one takes
the other back.
-/
import Chip8.Proofs.Machine.Writes
import Chip8.Proofs.Session.StepEnds

namespace Chip8

/-! ## Blocks -/

/-- The registers `V0` to `r` stand in memory from the address `a` on. -/
def Memory.HoldsBlock (memory : Memory) (a : Nat) (r : Register) (registers : Vector Int 16) : Prop :=
  ∀ q : Register, q ≤ r → Byte.toInt (memory.byteAt (a + q.val)) = registers.get q

/-- The second memory has the bytes of the first one outside the `count` addresses from `a` on. -/
def Memory.SameOutside (memory memory' : Memory) (a count : Nat) : Prop :=
  ∀ b, b < a ∨ a + count ≤ b → memory'.byteAt b = memory.byteAt b

/-- Where the index register stands when the registers `V0` to `r` have been transferred. -/
def indexBehind (variant : Variant) (index : Int) (r : Register) : Int :=
  if variant.transferMovesIndex then index + (r.val + 1) else index

theorem indexBehind_of_moves {variant : Variant} (h : variant.transferMovesIndex = true) (index : Int)
    (r : Register) : indexBehind variant index r = index + (r.val + 1) :=
  if_pos h

/-- Bytes are those of integers when they have their values. -/
theorem Byte.map_toInt_of_ofInts? {vs : List Int} {bytes : List UInt8}
    (h : ofInts? vs = some bytes) : bytes.map toInt = vs := by
  induction vs generalizing bytes with
  | nil =>
    cases h
    rfl
  | cons v rest ih =>
    unfold ofInts? at h
    split at h
    · cases h
    · next b hb =>
      obtain ⟨more, hmore, rfl⟩ := Option.map_eq_some_iff.mp h
      rw [List.map_cons, toInt_of_ofInt? hb, ih hmore]

theorem Byte.toInt_injective {b c : UInt8} (h : toInt b = toInt c) : b = c := by
  have hb := ofInt?_toInt b
  rw [h, ofInt?_toInt c] at hb
  exact (Option.some.inj hb).symm

namespace Machine

/-- The machine `n` is `m` with the registers `V0` to `r` stored. -/
structure Stored (variant : Variant) (m : Machine) (r : Register) (n : Machine) : Prop where
  block : n.memory.HoldsBlock m.index.toNat r m.registers
  outside : m.memory.SameOutside n.memory m.index.toNat (r.val + 1)
  rest : n = { m with memory := n.memory, index := indexBehind variant m.index r }

/-- The machine `n` is `m` with the registers `V0` to `r` loaded. -/
structure Loaded (variant : Variant) (m : Machine) (r : Register) (n : Machine) : Prop where
  block : m.memory.HoldsBlock m.index.toNat r n.registers
  others : ∀ q, r < q → n.register q = m.register q
  rest : n = { m with registers := n.registers, index := indexBehind variant m.index r }

variable {m : Machine} {variant : Variant} {r : Register}

/-- Behind a block inside memory the index register is far below sixteen bits. -/
theorem passBlock_eq (m : Machine) (hindex : 0 ≤ m.index) (hwindow : m.index + r.val + 1 ≤ 4096) :
    m.passBlock variant (r.val + 1) = { m with index := indexBehind variant m.index r } := by
  have hwrap : (m.index + (r.val + 1 : Nat)) % 65536 = m.index + (r.val + 1) := by omega
  unfold passBlock indexBehind addToIndex
  rw [hwrap]
  split <;> rfl

theorem getElem?_firstRegisters (m : Machine) {count : Nat} {q : Register} (h : q.val < count) :
    (m.firstRegisters count)[q.val]? = some (m.register q) := by
  have hq : q.val < m.registers.toList.length := by
    rw [Vector.length_toList]
    exact q.isLt
  unfold firstRegisters register
  rw [List.getElem?_take_of_lt h, List.getElem?_eq_getElem hq, Vector.getElem_toList]
  rfl

/-- Values are set in registers and nowhere else. -/
theorem exists_setFirstRegisters (m : Machine) (values : List Int) :
    ∃ registers : Vector Int 16, m.setFirstRegisters values = { m with registers } ∧
      ∀ q : Register, registers.get q = values.getD q.val (m.register q) := by
  refine ⟨_, rfl, ?_⟩
  intro q
  exact Vector.getElem_ofFn _

/-- A transfer to memory succeeds when the block fits behind the index register. -/
theorem exists_stored (hindex : 0 ≤ m.index) (hbytes : ∀ q, Byte.Fits (m.register q))
    (hwindow : m.index + r.val + 1 ≤ 4096) :
    ∃ n, m.storeThrough variant r = .ok n ∧ m.Stored variant r n := by
  obtain ⟨bytes, hvalues, hlen, hstore⟩ := m.storeThrough_eq hindex hbytes variant r
  have hmemory : m.index.toNat + bytes.length ≤ memorySize := by
    unfold memorySize
    omega
  rw [if_neg (by omega),
    passBlock_eq { m with memory := m.memory.put m.index.toNat bytes } hindex hwindow] at hstore
  refine ⟨_, hstore, ?_, ?_, rfl⟩
  · intro q hq
    have hcount : q.val < r.val + 1 := Nat.lt_succ_of_le hq
    have hk : q.val < bytes.length := by omega
    have hvalue := m.getElem?_firstRegisters hcount
    rw [← Byte.map_toInt_of_ofInts? hvalues, List.getElem?_map, List.getElem?_eq_getElem hk] at hvalue
    show Byte.toInt ((m.memory.put m.index.toNat bytes).byteAt (m.index.toNat + q.val)) = m.register q
    rw [m.memory.byteAt_put_of_inside bytes hmemory hk]
    exact Option.some.inj hvalue
  · intro b hb
    rw [← hlen] at hb
    exact m.memory.byteAt_put_of_outside bytes hb

/-- A transfer from memory succeeds when the block lies inside memory. -/
theorem exists_loaded (hindex : 0 ≤ m.index) (hwindow : m.index + r.val + 1 ≤ 4096) :
    ∃ n, m.loadThrough variant r = .ok n ∧ m.Loaded variant r n := by
  have hload := m.loadThrough_eq hindex variant r
  have hend : (m.index + (r.val + 1 : Nat)).toNat = m.index.toNat + (r.val + 1) := by omega
  have hstop : m.index.toNat + (r.val + 1) ≤ memorySize := by
    unfold memorySize
    omega
  have hbyte : ∀ k < r.val + 1,
      (m.memory.slice m.index.toNat (m.index.toNat + (r.val + 1))).getD k 0 =
        m.memory.byteAt (m.index.toNat + k) :=
    fun k hk => m.memory.getD_slice hstop (by omega)
  have hlen : (m.memory.slice m.index.toNat (m.index.toNat + (r.val + 1))).length = r.val + 1 := by
    rw [m.memory.length_slice hstop, Nat.add_sub_cancel_left]
  rw [hend] at hload
  generalize m.memory.slice m.index.toNat (m.index.toNat + (r.val + 1)) = bytes at hload hbyte hlen
  obtain ⟨registers, hset, hregister⟩ := m.exists_setFirstRegisters (bytes.map Byte.toInt)
  rw [if_neg (by omega), hset, passBlock_eq { m with registers } hindex hwindow] at hload
  refine ⟨_, hload, ?_, ?_, rfl⟩
  · intro q hq
    have hk : q.val < r.val + 1 := Nat.lt_succ_of_le hq
    have hread := hbyte q.val hk
    show Byte.toInt _ = registers.get q
    rw [hregister, ← hread, List.getD_eq_getElem?_getD, List.getD_eq_getElem?_getD, List.getElem?_map,
      List.getElem?_eq_getElem (hlen ▸ hk)]
    rfl
  · intro q hq
    have hk : (bytes.map Byte.toInt).length ≤ q.val := by
      rw [List.length_map, hlen]
      exact hq
    show registers.get q = m.register q
    rw [hregister, List.getD_eq_getElem?_getD, List.getElem?_eq_none hk]
    rfl

variable {i : Instruction}

/-- `FX55` on a machine whose registers hold bytes. -/
theorem execute_store (hi : (Row.byte 0xF 0x55).Fits i) (hindex : 0 ≤ m.index)
    (hbytes : ∀ q, Byte.Fits (m.register q)) (hwindow : m.index + i.x.val + 1 ≤ 4096)
    (variant : Variant) (source : ByteSource) :
    ∃ n, m.execute variant i source = .ok (n, source) ∧ m.Stored variant i.x n := by
  have hop : i.op = .storeRegs := Instruction.op_of_fits rfl hi
  obtain ⟨n, hx, hn⟩ := exists_stored hindex hbytes hwindow
  exact ⟨n, (execute_of_op hop (by decide)).mpr hx, hn⟩

/-- `FX65` on any machine whose index register is not negative. -/
theorem execute_load (hi : (Row.byte 0xF 0x65).Fits i) (hindex : 0 ≤ m.index)
    (hwindow : m.index + i.x.val + 1 ≤ 4096) (variant : Variant) (source : ByteSource) :
    ∃ n, m.execute variant i source = .ok (n, source) ∧ m.Loaded variant i.x n := by
  have hop : i.op = .loadRegs := Instruction.op_of_fits rfl hi
  obtain ⟨n, hx, hn⟩ := exists_loaded hindex hwindow
  exact ⟨n, (execute_of_op hop (by decide)).mpr (mapError_eq_ok_iff.mpr hx), hn⟩

end Machine

/-! ## One transfer after another -/

namespace Memory

variable {memory memory' memory'' : Memory} {a b c d : Nat} {r : Register} {registers : Vector Int 16}

/-- A block stays where it is when nothing but bytes behind it change. -/
theorem HoldsBlock.of_sameOutside (h : memory.HoldsBlock a r registers)
    (hsame : memory.SameOutside memory' b c) (hbehind : a + (r.val + 1) ≤ b) :
    memory'.HoldsBlock a r registers := by
  intro q hq
  have hk : q.val < r.val + 1 := Nat.lt_succ_of_le hq
  rw [hsame (a + q.val) (Or.inl (by omega))]
  exact h q hq

/-- What changes two adjacent windows changes the window that they make up. -/
theorem SameOutside.append (h : memory.SameOutside memory' a c)
    (h' : memory'.SameOutside memory'' (a + c) d) : memory.SameOutside memory'' a (c + d) := by
  intro x hx
  rw [h' x (by omega), h x (by omega)]

end Memory

namespace Machine

variable {m n k : Machine} {variant : Variant} {r : Register}

/-- A load finds the block that stands at the index register. -/
theorem Loaded.register_eq (h : m.Loaded variant r n) {registers : Vector Int 16}
    (hblock : m.memory.HoldsBlock m.index.toNat r registers) (q : Register) (hq : q ≤ r) :
    n.register q = registers.get q :=
  (h.block q hq).symm.trans (hblock q hq)

theorem Loaded.memory_eq (h : m.Loaded variant r n) : n.memory = m.memory := by
  rw [h.rest]

theorem Loaded.index_eq (h : m.Loaded variant r n) : n.index = indexBehind variant m.index r := by
  rw [h.rest]

theorem Stored.index_eq (h : m.Stored variant r n) : n.index = indexBehind variant m.index r := by
  rw [h.rest]

/-- What is loaded are bytes, so that registers which held bytes still do. -/
theorem Loaded.fits (h : m.Loaded variant r n) (hbytes : ∀ q, Byte.Fits (m.register q))
    (q : Register) : Byte.Fits (n.register q) := by
  rcases Nat.lt_or_ge r.val q.val with hq | hq
  · rw [h.others q hq]
    exact hbytes q
  · have hblock : Byte.toInt _ = n.register q := h.block q hq
    rw [← hblock]
    exact Byte.fits_toInt _

/-- A store behind a load from the same place puts back the bytes that are there. -/
theorem Loaded.memory_eq_of_stored (h : m.Loaded variant r n)
    (h' : { n with index := m.index }.Stored variant r k) : k.memory = m.memory := by
  apply Memory.ext_byteAt
  intro a
  by_cases ha : m.index.toNat ≤ a ∧ a < m.index.toNat + (r.val + 1)
  · -- the address is the one of a register of the block
    obtain ⟨q, rfl⟩ : ∃ q : Register, a = m.index.toNat + q.val :=
      ⟨⟨a - m.index.toNat, by omega⟩, by simp only; omega⟩
    have hq : q ≤ r := by
      show q.val ≤ r.val
      omega
    have hvalue : Byte.toInt (k.memory.byteAt (m.index.toNat + q.val)) =
        Byte.toInt (m.memory.byteAt (m.index.toNat + q.val)) :=
      (h'.block q hq).trans (h.block q hq).symm
    exact Byte.toInt_injective hvalue
  · rw [h'.outside a (by show a < m.index.toNat ∨ m.index.toNat + (r.val + 1) ≤ a; omega)]
    show n.memory.byteAt a = _
    rw [h.memory_eq]

/-- A store that begins where another one has ended puts its block behind the first one. -/
theorem Stored.side_by_side (h : m.Stored variant r n) {r' : Register} {second : Vector Int 16}
    (h' : { n with registers := second }.Stored variant r' k) (hindex : 0 ≤ m.index)
    (hbehind : n.index = m.index + (r.val + 1)) :
    k.memory.HoldsBlock m.index.toNat r m.registers ∧
      k.memory.HoldsBlock (m.index.toNat + (r.val + 1)) r' second ∧
      m.memory.SameOutside k.memory m.index.toNat (r.val + 1 + (r'.val + 1)) := by
  have hstart : n.index.toNat = m.index.toNat + (r.val + 1) := by omega
  have hblock := h'.block
  have houtside := h'.outside
  simp only [hstart] at hblock houtside
  exact ⟨h.block.of_sameOutside houtside (Nat.le_refl _), hblock, h.outside.append houtside⟩

/-- **Stores and loads take each other back.**  Take a machine whose registers hold bytes, and whose index
register is followed by room for `V0` to `VX`.

A store succeeds.  Whatever the registers hold afterwards, once the index register is set back, a load
succeeds: `V0` to `VX` are what they were in the beginning, the other registers are as just before the
load, and so is memory outside the block as in the beginning.

A load succeeds, and once the index register is set back, so does a store, which leaves memory as it was in
the beginning.

Each transfer leaves the index register behind its block or where it was, as the variant has it.  Where it
moves, two stores in a row, with any bytes in the registers for the second, put their blocks side by side.
Once the index register is set back, two loads in a row find these two blocks. -/
theorem transfers_take_each_other_back (hindex : 0 ≤ m.index)
    (hbytes : ∀ q, Byte.Fits (m.register q)) (variant : Variant) (source : ByteSource)
    (store load : Instruction) (hstore : (Row.byte 0xF 0x55).Fits store)
    (hload : (Row.byte 0xF 0x65).Fits load) (hx : load.x = store.x)
    (hwindow : m.index + store.x.val + 1 ≤ 4096) :
    (∃ n, m.execute variant store source = .ok (n, source) ∧
      n.index = indexBehind variant m.index store.x ∧
      ∀ registers : Vector Int 16, ∃ k,
        { n with registers, index := m.index }.execute variant load source = .ok (k, source) ∧
        k.index = indexBehind variant m.index store.x ∧
        (∀ q, q ≤ store.x → k.register q = m.register q) ∧
        (∀ q, store.x < q → k.register q = registers.get q) ∧
        m.memory.SameOutside k.memory m.index.toNat (store.x.val + 1)) ∧
    (∃ n, m.execute variant load source = .ok (n, source) ∧
      n.index = indexBehind variant m.index store.x ∧
      ∃ k, { n with index := m.index }.execute variant store source = .ok (k, source) ∧
        k.index = indexBehind variant m.index store.x ∧ k.memory = m.memory) ∧
    (variant.transferMovesIndex = true → ∀ store' load' : Instruction,
      (Row.byte 0xF 0x55).Fits store' → (Row.byte 0xF 0x65).Fits load' → load'.x = store'.x →
      m.index + store.x.val + store'.x.val + 2 ≤ 4096 →
      ∀ second : Vector Int 16, (∀ q : Register, Byte.Fits (second.get q)) →
        ∃ n n', m.execute variant store source = .ok (n, source) ∧
          { n with registers := second }.execute variant store' source = .ok (n', source) ∧
          n'.index = m.index + store.x.val + store'.x.val + 2 ∧
          n'.memory.HoldsBlock m.index.toNat store.x m.registers ∧
          n'.memory.HoldsBlock (m.index.toNat + (store.x.val + 1)) store'.x second ∧
          m.memory.SameOutside n'.memory m.index.toNat (store.x.val + 1 + (store'.x.val + 1)) ∧
          ∀ registers : Vector Int 16, ∃ k k',
            { n' with registers, index := m.index }.execute variant load source = .ok (k, source) ∧
            k.execute variant load' source = .ok (k', source) ∧
            (∀ q, q ≤ store.x → k.register q = m.register q) ∧
            (∀ q, q ≤ store'.x → k'.register q = second.get q)) := by
  refine ⟨?_, ?_, ?_⟩
  · obtain ⟨n, hn, hstored⟩ := execute_store hstore hindex hbytes hwindow variant source
    refine ⟨n, hn, hstored.index_eq, ?_⟩
    intro registers
    let back : Machine := { n with registers, index := m.index }
    obtain ⟨k, hk, hloaded⟩ := back.execute_load hload hindex (hx ▸ hwindow) variant source
    rw [hx] at hloaded
    refine ⟨k, hk, hloaded.index_eq, hloaded.register_eq hstored.block, hloaded.others, ?_⟩
    rw [hloaded.memory_eq]
    exact hstored.outside
  · obtain ⟨n, hn, hloaded⟩ := execute_load hload hindex (hx ▸ hwindow) variant source
    rw [hx] at hloaded
    let back : Machine := { n with index := m.index }
    obtain ⟨k, hk, hstored⟩ :=
      back.execute_store hstore hindex (hloaded.fits hbytes) hwindow variant source
    exact ⟨n, hn, hloaded.index_eq, k, hk, hstored.index_eq, hloaded.memory_eq_of_stored hstored⟩
  · intro hmoves store' load' hstore' hload' hx' hroom second hsecond
    obtain ⟨n, hn, hstored⟩ := execute_store hstore hindex hbytes hwindow variant source
    have hbehind : n.index = m.index + (store.x.val + 1) :=
      hstored.index_eq.trans (indexBehind_of_moves hmoves _ _)
    let changed : Machine := { n with registers := second }
    obtain ⟨n', hn', hstored'⟩ := changed.execute_store hstore' (by show 0 ≤ n.index; omega) hsecond
      (by show n.index + _ + 1 ≤ 4096; omega) variant source
    obtain ⟨hfirst, hlast, houtside⟩ := hstored.side_by_side hstored' hindex hbehind
    have hend : n'.index = m.index + store.x.val + store'.x.val + 2 := by
      have hchanged : n'.index = n.index + (store'.x.val + 1) :=
        hstored'.index_eq.trans (indexBehind_of_moves hmoves _ _)
      omega
    refine ⟨n, n', hn, hn', hend, hfirst, hlast, houtside, ?_⟩
    intro registers
    let back : Machine := { n' with registers, index := m.index }
    obtain ⟨k, hk, hloaded⟩ := back.execute_load hload hindex (hx ▸ hwindow) variant source
    rw [hx] at hloaded
    have hnext : k.index = m.index + (store.x.val + 1) :=
      hloaded.index_eq.trans (indexBehind_of_moves hmoves _ _)
    have hstart : k.index.toNat = m.index.toNat + (store.x.val + 1) := by omega
    obtain ⟨k', hk', hloaded'⟩ := k.execute_load hload' (by omega) (by omega) variant source
    rw [hx'] at hloaded'
    -- the second load finds the second block where the first load has left the index register
    have hblock : k.memory.HoldsBlock k.index.toNat store'.x second := by
      rw [hstart, hloaded.memory_eq]
      exact hlast
    exact ⟨k, k', hk, hk', hloaded.register_eq hfirst, hloaded'.register_eq hblock⟩

/-- Three sevens and two values of 200 in the last five bytes of memory, stored and loaded again. -/
theorem transfers_take_each_other_back_at_end :
    ∃ m n n' k k' : Machine, m.index = 0xFFB ∧ m.register 2 = 7 ∧
      m.execute .chip8 ⟨0xF255⟩ (.ofList []) = .ok (n, .ofList []) ∧
      { n with registers := Vector.replicate 16 200 }.execute .chip8 ⟨0xF155⟩ (.ofList []) =
        .ok (n', .ofList []) ∧ n'.index = 0x1000 ∧
      { n' with registers := Vector.replicate 16 0, index := 0xFFB }.execute .chip8 ⟨0xF265⟩
        (.ofList []) = .ok (k, .ofList []) ∧ k.register 2 = 7 ∧
      k.execute .chip8 ⟨0xF165⟩ (.ofList []) = .ok (k', .ofList []) ∧ k'.register 1 = 200 := by
  let m : Machine := { blank with registers := Vector.replicate 16 7, index := 0xFFB }
  obtain ⟨-, -, htwice⟩ := transfers_take_each_other_back (m := m) (by decide) (by decide +kernel)
    .chip8 (.ofList []) ⟨0xF255⟩ ⟨0xF265⟩ (by decide) (by decide) rfl (by decide)
  obtain ⟨n, n', hn, hn', hend, -, -, -, hloads⟩ := htwice rfl ⟨0xF155⟩ ⟨0xF165⟩ (by decide)
    (by decide) rfl (by decide) (Vector.replicate 16 200) (by decide +kernel)
  obtain ⟨k, k', hk, hk', hfirst, hsecond⟩ := hloads (Vector.replicate 16 0)
  exact ⟨m, n, n', k, k', rfl, by decide, hn, hn', hend, hk, hfirst 2 (by decide), hk',
    hsecond 1 (by decide)⟩

end Machine

end Chip8
