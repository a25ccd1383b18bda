/-
# Chip8.Proofs.Session.Addresses — what is true of addresses however far a host reaches.

A host that sets registers, writes memory or executes instructions by hand can leave the ranges of
`Machine.InRange`.  No call has more return addresses on the stack than it holds.  And the addresses that a
program makes by itself are not negative, so a kind of number to which all of these belong can only be
left by a push by hand.  `Machine.AddressesIn` says both.  With the kind of the natural numbers, no address
is negative; with the kind of all numbers, nothing is asked of the host.
-/
import Chip8.Proofs.Session.Execute
import Chip8.Proofs.Session.History

namespace Chip8

/-- The calls that push, by hand, numbers of one kind only.  All other calls are among them. -/
def Command.PushesOnly (A : Int → Prop) : Command → Prop
  | push address => A address
  | _ => True

/-- The addresses are of one kind, and the stack holds no more of them than it can. -/
structure Machine.AddressesIn (A : Int → Prop) (m : Machine) : Prop where
  pc : A m.pc
  returns : ∀ a ∈ m.stack, A a
  depth : m.stack.length ≤ stackCapacity

section Kind

variable {A : Int → Prop} (hA : ∀ a, 0 ≤ a → A a)

namespace Machine.AddressesIn

variable {m n : Machine}

include hA in
theorem of_boot {image : List UInt8} (hm : boot? image = some m) : m.AddressesIn A := by
  obtain ⟨memory, rfl⟩ := exists_memory_of_boot hm
  exact ⟨hA _ (Int.natCast_nonneg programStart), List.forall_mem_nil _, Nat.zero_le _⟩

/-- A machine with the same stack needs a program counter only. -/
theorem of_same_stack (h : m.AddressesIn A) (hstack : n.stack = m.stack) (hpc : A n.pc) :
    n.AddressesIn A :=
  ⟨hpc, hstack ▸ h.returns, hstack ▸ h.depth⟩

/-! ## Moves -/

include hA in
theorem advance (h : m.AddressesIn A) (offset : Int) : (m.advance offset).AddressesIn A :=
  h.of_same_stack rfl (hA _ (Int.emod_nonneg _ (by decide)))

include hA in
theorem fetch (h : m.AddressesIn A) {i : Instruction} (hf : m.fetch = .ok (i, n)) :
    n.AddressesIn A := by
  rw [eq_advance_of_fetch hf]
  exact h.advance hA 2

theorem jumpTo (h : m.AddressesIn A) {a : Int} (ha : A a) : (m.jumpTo a).AddressesIn A :=
  h.of_same_stack rfl ha

theorem push (h : m.AddressesIn A) {a : Int} (ha : A a) (hn : m.push a = .ok n) :
    n.AddressesIn A := by
  unfold Machine.push at hn
  split at hn
  · cases hn
  · next hdepth =>
    cases hn
    exact ⟨h.pc, List.forall_mem_cons.mpr ⟨ha, h.returns⟩, Nat.lt_of_not_le hdepth⟩

theorem pop (h : m.AddressesIn A) {a : Int} (hn : m.pop = .ok (a, n)) :
    A a ∧ n.AddressesIn A := by
  unfold Machine.pop at hn
  split at hn
  · cases hn
  · next rest hs =>
    cases hn
    have hreturns := h.returns
    have hdepth := h.depth
    rw [hs] at hreturns hdepth
    obtain ⟨ha, hrest⟩ := List.forall_mem_cons.mp hreturns
    exact ⟨ha, h.pc, hrest, Nat.le_of_succ_le hdepth⟩

theorem returnFrom (h : m.AddressesIn A) (hn : m.returnFrom = .ok n) : n.AddressesIn A := by
  unfold Machine.returnFrom at hn
  split at hn
  · cases hn
  · next hpop =>
    cases hn
    obtain ⟨ha, hm⟩ := h.pop hpop
    exact hm.jumpTo ha

theorem callTo (h : m.AddressesIn A) {a : Int} (ha : A a) (hn : m.callTo a = .ok n) :
    n.AddressesIn A := by
  unfold Machine.callTo at hn
  split at hn
  · cases hn
  · next hpush =>
    cases hn
    exact (h.push h.pc hpush).jumpTo ha

include hA in
theorem skipIf (h : m.AddressesIn A) (condition : Bool) :
    (m.skipIf condition).AddressesIn A := by
  unfold Machine.skipIf
  split
  · exact h.advance hA 2
  · exact h

/-- A round of the key wait goes back or stays behind its instruction. -/
theorem pc_of_awaitKey {r : Register} (hn : m.awaitKey r = .ok n) :
    n.pc = m.pc ∨ n.pc = (m.advance (-2)).pc := by
  have hbegin : m.beginWait.pc = m.pc := by
    unfold beginWait
    split <;> rfl
  have hback : (m.beginWait.advance (-2)).pc = (m.advance (-2)).pc := by
    simp only [Machine.advance, hbegin]
  rw [← hbegin, ← hback]
  unfold Machine.awaitKey at hn
  generalize m.beginWait = begun at hn
  cases hp : begun.pendingKey with
  | none =>
    simp only [hp] at hn
    cases hn
    exact Or.inr rfl
  | some key =>
    simp only [hp] at hn
    split at hn
    · cases hn
    · split at hn <;> cases hn
      · exact Or.inr rfl
      · exact Or.inl rfl

include hA in
/-- An instruction that succeeds keeps the addresses, whatever the registers hold. -/
theorem apply (h : m.AddressesIn A) {variant : Variant} {byte : UInt8} {i : Instruction}
    (hx : m.apply variant byte i = .ok n) : n.AddressesIn A := by
  by_cases hcall : i.op = .call
  · exact h.callTo (hA _ (Int.natCast_nonneg _)) (callTo_of_apply hcall hx)
  by_cases hret : i.op = .ret
  · exact h.returnFrom (returnFrom_of_apply hret hx)
  refine h.of_same_stack (stack_of_apply hcall hret hx) ?_
  have hframe := changesOnly_of_apply hx .pc
  have hwriters : i.MayWrite variant m .pc → i.op ∈ [.jump, .jumpOffset, .call, .ret, .skipEqByte,
      .skipNeByte, .skipEqReg, .skipNeReg, .skipPressed, .skipReleased, .awaitKey] := by
    intro hw
    cases hw with
    | pc hrows => exact Instruction.op_mem_of_fitsOneOf hrows
  unfold Machine.apply at hx
  cases hop : i.op with rw [hop] at hx hwriters
  | call => exact (hcall hop).elim
  | ret => exact (hret hop).elim
  | jump =>
    cases hx
    exact hA _ (Int.natCast_nonneg _)
  | jumpOffset =>
    cases hx
    exact hA _ (Int.emod_nonneg _ (by decide))
  | skipEqByte | skipNeByte | skipEqReg | skipNeReg | skipPressed | skipReleased =>
    cases hx
    exact (h.skipIf hA _).pc
  | awaitKey =>
    rcases pc_of_awaitKey hx with hpc | hpc <;> rw [hpc]
    · exact h.pc
    · exact (h.advance hA (-2)).pc
  | _ =>
    have hpc : n.pc = m.pc := hframe fun hw => absurd (hwriters hw) (by decide)
    rw [hpc]
    exact h.pc

/-- So does everything that a host does to the timer, the run state and the keys. -/
theorem handled (h : m.AddressesIn A) (hn : m.Handled n) : n.AddressesIn A := by
  cases hn with
  | same => exact h
  | ticked =>
    unfold tick
    split
    · exact h.of_same_stack rfl h.pc
    · exact h
  | runState | keypad => exact h.of_same_stack rfl h.pc

end Machine.AddressesIn

namespace Session

variable {s t : Session}

/-! ## Calls -/

include hA in
theorem StepEnds.addressesIn {result : Except SessionError Instruction}
    (h : s.machine.AddressesIn A) (ht : s.StepEnds t result) : t.machine.AddressesIn A := by
  cases ht with
  | unfetched journal hf => exact h.of_same_stack rfl h.pc
  | hookFaulted journal hf | passed journal hf | faulted journal hf =>
    have hm := h.fetch hA hf
    exact hm.of_same_stack rfl hm.pc
  | brokenOff journal hf | misfit journal hf => exact h.fetch hA hf
  | executed journal hf hi hx => exact (h.fetch hA hf).apply hA hx

include hA in
theorem addressesIn_step (h : s.machine.AddressesIn A) :
    s.step.session.machine.AddressesIn A := by
  by_cases hr : s.machine.runState = .running
  · exact (step_ends hr).addressesIn hA h
  · rw [step_of_not_running hr]
    exact h

include hA in
theorem CallEnds.addressesIn {c : Command} (h : s.machine.AddressesIn A)
    (ht : s.CallEnds c t) : t.machine.AddressesIn A := by
  cases ht with
  | handled journal hm => exact h.handled hm
  | booted journal _ hm => exact .of_boot hA hm
  | fetched _ hf => exact h.fetch hA hf
  | stepped _ => exact addressesIn_step hA h

/-- What a move of the machine keeps, answering with it keeps, as a move that fails leaves the machine. -/
theorem settle_keeps {α : Type} {P : Machine → Prop}
    {move : Except (Stopped Machine Cause) (α × Machine)} (h : P s.machine)
    (hatomic : Atomic s.machine move) (hmove : ∀ a m, move = .ok (a, m) → P m) :
    P (s.settle move).session.machine := by
  cases move with
  | error stopped =>
    show P stopped.state
    rw [hatomic stopped rfl]
    exact h
  | ok answer => exact hmove answer.1 answer.2 rfl

include hA in
/-- A call by hand keeps the addresses, unless it pushes one of another kind. -/
theorem addressesIn_byHand (patience : Nat) {c : Command} (hhand : ¬ c.IsHostCall)
    (hc : c.PushesOnly A) (h : s.machine.AddressesIn A) :
    (s.perform patience c).session.machine.AddressesIn A := by
  cases c with
  | execute i =>
    show (s.execute i).session.machine.AddressesIn A
    rcases s.execute_cases i with ⟨e, hs⟩ | ⟨n, journal, hx, hs⟩ <;> rw [hs]
    · exact h
    · exact h.apply hA hx
  | read address count =>
    show (s.read address count).session.machine.AddressesIn A
    rw [s.session_read]
    exact h
  | write address data =>
    refine settle_keeps h ((s.machine.atomic_write address data).map _) fun _ m hm => ?_
    obtain ⟨n, hn, hwritten⟩ := map_eq_ok_iff.mp hm
    cases hwritten
    unfold Machine.write at hn
    split at hn <;> cases hn
    exact h.of_same_stack rfl h.pc
  | push address =>
    refine settle_keeps h ((s.machine.atomic_push address).map _) fun _ m hm => ?_
    obtain ⟨n, hn, hpushed⟩ := map_eq_ok_iff.mp hm
    cases hpushed
    exact h.push hc hn
  | pop => exact settle_keeps h s.machine.atomic_pop fun a m hm => (h.pop hm).2
  | clearScreen | setFlag => exact h.of_same_stack rfl h.pc
  | _ => exact (hhand trivial).elim

include hA in
/-- A call that executes at most one cycle keeps the addresses. -/
theorem addressesIn_single (patience : Nat) {c : Command} (hc : c.PushesOnly A)
    (hsingle : c.IsSingle) (h : s.machine.AddressesIn A) :
    (s.perform patience c).session.machine.AddressesIn A := by
  by_cases hhost : c.IsHostCall
  · exact (call_ends patience s hhost hsingle).addressesIn hA h
  · exact addressesIn_byHand hA patience hhost hc h

include hA in
/-- Whatever a host calls, as long as it pushes numbers of one kind only, the addresses are of that kind. -/
theorem ReachableBy.addressesIn (h : s.ReachableBy (Command.PushesOnly A)) :
    s.machine.AddressesIn A := by
  refine ReachableBy.induct (P := fun t => t.machine.AddressesIn A) trivial trivial ?_ ?_ h
  · intro setup threshold source
    exact .of_boot hA Machine.boot?_nil
  · intro t patience c hc hsingle ht
    exact addressesIn_single hA patience hc hsingle ht

end Session

end Kind

end Chip8
