/-
# Chip8.Proofs.Session.Variants — a flag of the variant matters to its own instructions only.

Two variants disagree about an execution (`Disputes`) if they differ in a flag, the instruction is one of
those that look at the flag, and the machine is in a state where the flag makes a difference.  An
execution that is not disputed does the same under both variants, and so does one that fails.

A session under another variant is then the twin of the session: as long as the session executes nothing
disputed, every list of calls comes to the same under the other variant.
-/
import Chip8.Proofs.Machine.Writes
import Chip8.Proofs.Session.Twin

namespace Chip8

/-! ## Disputed executions -/

namespace Instruction

/-- The shifts: `8XY6` and `8XYE`. -/
def shiftRows : List Row :=
  [.nibble 0x8 0x6, .nibble 0x8 0xE]

/-- The block transfers: `FX55` and `FX65`. -/
def transferRows : List Row :=
  [.byte 0xF 0x55, .byte 0xF 0x65]

end Instruction

/-- Two variants disagree about an instruction on a machine. -/
inductive Variant.Disputes (v w : Variant) (i : Instruction) (m : Machine) : Prop where
  /-- A shift between registers with different values. -/
  | shift (hv : v.shiftsSecond ≠ w.shiftsSecond) (hi : i.FitsOneOf Instruction.shiftRows)
      (hm : m.register i.x ≠ m.register i.y)
  /-- A bitwise operation on the flag register, or with the flag set. -/
  | bitwise (hv : v.bitwiseClearsFlag ≠ w.bitwiseClearsFlag)
      (hi : i.FitsOneOf Instruction.bitwiseRows)
      (hm : i.x = flagRegister ∨ m.register flagRegister ≠ 0)
  /-- A block transfer. -/
  | transfer (hv : v.transferMovesIndex ≠ w.transferMovesIndex)
      (hi : i.FitsOneOf Instruction.transferRows)

theorem Variant.disputes_iff {v w : Variant} {i : Instruction} {m : Machine} :
    v.Disputes w i m ↔
      v.shiftsSecond ≠ w.shiftsSecond ∧ i.FitsOneOf Instruction.shiftRows ∧
          m.register i.x ≠ m.register i.y ∨
        v.bitwiseClearsFlag ≠ w.bitwiseClearsFlag ∧ i.FitsOneOf Instruction.bitwiseRows ∧
          (i.x = flagRegister ∨ m.register flagRegister ≠ 0) ∨
        v.transferMovesIndex ≠ w.transferMovesIndex ∧ i.FitsOneOf Instruction.transferRows := by
  constructor
  · intro h
    cases h with
    | shift hv hi hm => exact Or.inl ⟨hv, hi, hm⟩
    | bitwise hv hi hm => exact Or.inr (Or.inl ⟨hv, hi, hm⟩)
    | transfer hv hi => exact Or.inr (Or.inr ⟨hv, hi⟩)
  · rintro (⟨hv, hi, hm⟩ | ⟨hv, hi, hm⟩ | ⟨hv, hi⟩)
    · exact .shift hv hi hm
    · exact .bitwise hv hi hm
    · exact .transfer hv hi

instance (v w : Variant) (i : Instruction) (m : Machine) : Decidable (v.Disputes w i m) :=
  decidable_of_iff _ Variant.disputes_iff.symm

namespace Machine

variable {v w : Variant} {i : Instruction} {m : Machine}

theorem setRegister_register (m : Machine) (r : Register) : m.setRegister r (m.register r) = m := by
  have hsame : m.registers.set r m.registers[r] = m.registers := Vector.set_getElem_self r.isLt
  show { m with registers := m.registers.set r m.registers[r] } = m
  rw [hsame]

/-- Resetting the flag does nothing where it is zero already. -/
theorem setBitwise_congr (r : Register) (x : Int) (h : v.bitwiseClearsFlag ≠ w.bitwiseClearsFlag →
    r ≠ flagRegister ∧ m.register flagRegister = 0) : setBitwise w m r x = setBitwise v m r x := by
  unfold setBitwise
  by_cases hv : v.bitwiseClearsFlag = w.bitwiseClearsFlag
  · rw [hv]
  · obtain ⟨hr, hflag⟩ := h hv
    have hzero : (m.setRegister r x).register flagRegister = 0 := by
      rw [register_setRegister, if_neg hr, hflag]
    have hreset : (m.setRegister r x).setFlag false = m.setRegister r x := by
      have hself := (m.setRegister r x).setRegister_register flagRegister
      rwa [hzero] at hself
    simp only [hreset, ite_self]

theorem shiftSource_congr (h : v.shiftsSecond ≠ w.shiftsSecond → m.register i.x = m.register i.y) :
    m.shiftSource w i = m.shiftSource v i := by
  unfold shiftSource
  by_cases hv : v.shiftsSecond = w.shiftsSecond
  · rw [hv]
  · simp only [h hv, ite_self]

theorem passBlock_congr (count : Nat) (h : v.transferMovesIndex = w.transferMovesIndex) :
    m.passBlock w count = m.passBlock v count := by
  unfold passBlock
  rw [h]

/-- A transfer that fails does so under every variant. -/
theorem storeThrough_congr {r : Register} (h : ∀ n, m.storeThrough v r = .ok n →
    v.transferMovesIndex = w.transferMovesIndex) : m.storeThrough w r = m.storeThrough v r := by
  unfold storeThrough at h ⊢
  simp only at h ⊢
  cases hs : m.store (m.firstRegisters (r.val + 1)) with
  | error failure => rfl
  | ok n =>
    rw [hs] at h
    exact congrArg Except.ok (passBlock_congr _ (h _ rfl))

theorem loadThrough_congr {r : Register} (h : ∀ n, m.loadThrough v r = .ok n →
    v.transferMovesIndex = w.transferMovesIndex) : m.loadThrough w r = m.loadThrough v r := by
  unfold loadThrough at h ⊢
  simp only at h ⊢
  cases hs : m.read m.index (r.val + 1 : Nat) with
  | error cause => rfl
  | ok bytes =>
    rw [hs] at h
    exact congrArg Except.ok (passBlock_congr _ (h _ rfl))

/-- An execution that is not disputed does the same under both variants, and one that fails fails under
both alike. -/
theorem apply_eq_of_not_disputed {byte : UInt8}
    (h : ∀ n, m.apply v byte i = .ok n → ¬ v.Disputes w i m) :
    m.apply w byte i = m.apply v byte i := by
  unfold apply at h ⊢
  -- the row that the word fits in each of the disputed cases
  have hrows {op : Op} {row : Row} {rows : List Row} (hop : i.op = op) (hrow : op.row? = some row)
      (hmem : row ∈ rows) : i.FitsOneOf rows := Instruction.fitsOneOf_of_op hop hrow hmem
  cases hop : i.op with rw [hop] at h
  | bitOr | bitAnd | bitXor =>
    have hagree := h _ rfl
    have hbits : i.FitsOneOf Instruction.bitwiseRows := hrows hop rfl (by decide)
    refine congrArg Except.ok (setBitwise_congr i.x _ fun hv => ⟨?_, ?_⟩)
    · intro hx
      exact hagree (.bitwise hv hbits (Or.inl hx))
    · exact Classical.not_not.mp fun hflag => hagree (.bitwise hv hbits (Or.inr hflag))
  | shiftRight | shiftLeft =>
    have hagree := h _ rfl
    have hshift : i.FitsOneOf Instruction.shiftRows := hrows hop rfl (by decide)
    have hsource : m.shiftSource w i = m.shiftSource v i :=
      shiftSource_congr fun hv => Classical.not_not.mp fun hm => hagree (.shift hv hshift hm)
    show Except.ok _ = Except.ok _
    rw [hsource]
  | storeRegs =>
    apply storeThrough_congr
    intro n hn
    exact Classical.not_not.mp fun hv => h n hn (.transfer hv (hrows hop rfl (by decide)))
  | loadRegs =>
    refine congrArg (Except.mapError (Stopped.map Failure.fault)) (loadThrough_congr ?_)
    intro n hn
    exact Classical.not_not.mp fun hv =>
      h n (mapError_eq_ok_iff.mpr hn) (.transfer hv (hrows hop rfl (by decide)))
  | _ => rfl

end Machine

/-! ## Sessions under another variant -/

/-- The same session under another variant. -/
def Session.withVariant (s : Session) (w : Variant) : Session :=
  { s with setup := { s.setup with variant := w } }

namespace Twin

variable {s t : Session} {v : Variant}

/-- The twin under another variant. -/
def ofVariant (v : Variant) : Twin where
  setup setup := { setup with variant := v }
  keypad := id
  timer := id
  traces := Eq

theorem faithful_ofVariant : (ofVariant v).Faithful where
  hook _ := rfl
  pacing _ := rfl
  fresh := rfl
  record := by
    rintro s trace rfl before i error
    rw [trace_record, trace_record]
    rfl

theorem isStill_ofVariant : (ofVariant v).IsStill := fun _ => rfl

theorem rel_ofVariant_iff : (ofVariant v).Rel s t ↔ t = s.withVariant v := by
  constructor
  · rintro ⟨trace, rfl, rfl⟩
    rfl
  · rintro rfl
    exact ⟨s.trace, rfl, rfl⟩

end Twin

namespace Session

variable {s : Session} {w : Variant}

/-- A cycle whose instruction, if it is executed, is not disputed. -/
theorem agrees_ofVariant (hr : s.machine.runState = .running)
    (h : ∀ i, s.step.result = .ok i → ¬ s.setup.variant.Disputes w i s.machine) :
    (Twin.ofVariant w).Agrees s := by
  intro i m hf
  by_cases hi : i.op = .unknown
  · exact Twin.agreesOn_of_unknown hi m
  · refine Twin.agreesOn_of_apply Twin.isStill_ofVariant (Machine.apply_eq_of_not_disputed ?_)
    intro n hx hdisputes
    obtain ⟨hok, -⟩ := (step_ends hr).of_apply hf hi hx
    apply h i hok
    -- a fetch moves the program counter, which no dispute is about
    rw [Machine.eq_advance_of_fetch hf] at hdisputes
    cases hdisputes with
    | shift hv hi hm => exact .shift hv hi hm
    | bitwise hv hi hm => exact .bitwise hv hi hm
    | transfer hv hi => exact .transfer hv hi

theorem execute_of_apply {i : Instruction} {n : Machine}
    (hx : s.machine.apply s.setup.variant (s.source.drawFor i).1 i = .ok n) :
    (s.execute i).result = .ok () := by
  have he : s.machine.carryOut s.setup.variant i s.source = .ok (n, (s.source.drawFor i).2) :=
    Machine.carryOut_eq_ok_iff.mpr ⟨hx, rfl⟩
  unfold execute
  rw [he]

theorem agreesThrough_ofVariant {patience : Nat} {c : Command}
    (h : ∀ p ∈ s.executedBy patience c, ¬ s.setup.variant.Disputes w p.2 p.1.machine) :
    (Twin.ofVariant w).AgreesThrough patience s c where
  cycles := by
    intro u hu
    obtain ⟨hsetup, hr⟩ := setup_of_mem_cyclesOf hu
    apply agrees_ofVariant hr
    intro i hi
    rw [hsetup]
    exact h (u, i) (mem_executedBy_of_cycle hu hi)
  byHand := by
    rintro i rfl
    refine Twin.agreesOn_of_apply Twin.isStill_ofVariant (Machine.apply_eq_of_not_disputed ?_)
    intro n hx
    exact h (s, i) (mem_executedBy_of_execute (execute_of_apply hx))

/-- **A flag matters to its own instructions only.**  Take a session in any state, and the same session
under another variant.  If the calls of a list execute no instruction on the first one about which the
two variants disagree, then after each call of the list both sessions are the same but for the variant,
and every call has come to the same: machine, source, count of cycles, trace, what the hook was told,
results and errors. -/
theorem variant_noninterference (patience : Nat) (s : Session) (w : Variant) (cs : List Command)
    (h : ∀ p ∈ s.executedAll patience cs, ¬ s.setup.variant.Disputes w p.2 p.1.machine) :
    ∀ done, done <+: cs → (s.withVariant w).performAll patience done =
      ((s.performAll patience done).1.withVariant w, (s.performAll patience done).2) := by
  rintro done ⟨rest, rfl⟩
  have hagrees : ∀ p ∈ s.calls patience done,
      (Twin.ofVariant w).AgreesThrough patience p.1 p.2 := by
    intro p hp
    apply agreesThrough_ofVariant
    intro q hq
    rw [setup_of_mem_calls hp]
    have hmem : p ∈ s.calls patience (done ++ rest) := by
      rw [calls_append]
      exact List.mem_append_left _ hp
    exact h q (mem_executedAll hmem hq)
  obtain ⟨hrel, hresults⟩ := Twin.faithful_ofVariant.answers_performAll Twin.isStill_ofVariant
    (Twin.rel_ofVariant_iff.mpr rfl) hagrees
  exact Prod.ext (Twin.rel_ofVariant_iff.mp hrel) hresults

/-- A program that shifts a register by itself and joins two registers while the flag is zero: the first
machine of the family and its extension go the same way. -/
theorem variant_noninterference_shift :
    ∃ (s : Session) (cs : List Command), s.setup.variant = .chip8 ∧
      (∀ p ∈ s.executedAll 0 cs, ¬ Variant.chip8.Disputes .superchip p.2 p.1.machine) ∧
      (s.performAll 0 cs).1.cycles = 4 ∧
      (s.withVariant .superchip).performAll 0 cs =
        ((s.performAll 0 cs).1.withVariant .superchip, (s.performAll 0 cs).2) := by
  let s := Session.start ⟨.chip8, .standard, true, none⟩ none (.ofList [])
  let cs : List Command := [.load [0x60, 0x04, 0x61, 0x04, 0x80, 0x16, 0x80, 0x11], .run (some 4)]
  have h : ∀ p ∈ s.executedAll 0 cs, ¬ Variant.chip8.Disputes .superchip p.2 p.1.machine := by
    decide +kernel
  exact ⟨s, cs, rfl, h, by decide +kernel,
    variant_noninterference 0 s .superchip cs h cs List.prefix_rfl⟩

end Session

end Chip8
