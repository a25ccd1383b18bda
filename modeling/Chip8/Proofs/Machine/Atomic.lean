/-
# Chip8.Proofs.Machine.Atomic — a move that fails has changed nothing.

A move that fails hands over the state that it has come to, and that state may hold a part of its work.
`Atomic` says that it holds none: where the move fails, the state is the one that the move began with.
Most moves are atomic because they check before they write anything.  A compound move is atomic when the
part that may fail comes first, as the push of a call comes before its jump.

The wait for a key does write before it checks: it begins a wait, and then looks up its candidate.  But a
wait that has just begun has no candidate, so a lookup that fails belongs to a wait that was in progress
before (`atomic_awaitKey`).

`atomic_primitive` goes through the 34 kinds of operations.  An instruction that fails has drawn no byte
either, as the only kind that draws one never fails (`atomic_carryOut`).
-/
import Chip8.Primitive
import Chip8.Proofs.Machine.Fetch

namespace Chip8

/-! ## Atomic moves -/

/-- Where a move of the state `s` fails, the state is still `s`. -/
def Atomic {σ ε α : Type} (s : σ) (x : Except (Stopped σ ε) α) : Prop :=
  ∀ stopped, x = .error stopped → stopped.state = s

namespace Atomic

variable {σ ε δ α β : Type} {s : σ} {x : Except (Stopped σ ε) α}

theorem ok (s : σ) (a : α) : Atomic s (.ok a : Except (Stopped σ ε) α) :=
  nofun

theorem error (s : σ) (reason : ε) : Atomic s (.error ⟨s, reason⟩ : Except (Stopped σ ε) α) := by
  rintro _ ⟨⟩
  rfl

/-- A move that fails by its first part is as atomic as that part. -/
theorem first (h : Atomic s x) {stopped : Stopped σ ε} (hx : x = .error stopped) :
    Atomic s (.error stopped : Except (Stopped σ ε) β) := by
  rintro _ ⟨⟩
  exact h stopped hx

theorem map (h : Atomic s x) (f : α → β) : Atomic s (x.map f) := by
  cases x with
  | ok a => exact .ok s (f a)
  | error stopped => exact h.first rfl

theorem mapError (h : Atomic s x) (f : ε → δ) : Atomic s (x.mapError (Stopped.map f)) := by
  intro stopped hx
  obtain ⟨first, hfirst, rfl⟩ := mapError_eq_error_iff.mp hx
  exact h first hfirst

end Atomic

namespace Machine

variable (m : Machine)

/-! ## Memory and stack -/

theorem atomic_write (address : Int) (data : List UInt8) : Atomic m (m.write address data) := by
  unfold write
  split
  · exact .error m _
  · exact .ok m _

theorem atomic_push (address : Int) : Atomic m (m.push address) := by
  unfold push
  split
  · exact .error m _
  · exact .ok m _

theorem atomic_pop : Atomic m m.pop := by
  unfold pop
  split
  · exact .error m _
  · exact .ok m _

theorem atomic_fetch : Atomic m m.fetch := by
  unfold fetch
  split
  · exact .error m _
  · exact .ok m _

/-! ## Flow -/

/-- The jump of a return comes behind the pop. -/
theorem atomic_returnFrom : Atomic m m.returnFrom := by
  unfold returnFrom
  split
  · next hpop => exact m.atomic_pop.first hpop
  · exact .ok m _

/-- The jump of a call comes behind the push. -/
theorem atomic_callTo (address : Int) : Atomic m (m.callTo address) := by
  unfold callTo
  split
  · next hpush => exact (m.atomic_push m.pc).first hpush
  · exact .ok m _

/-! ## Block transfers -/

theorem atomic_store (values : List Int) : Atomic m (m.store values) := by
  unfold store
  split
  · exact .error m _
  · exact (m.atomic_write m.index _).mapError Failure.fault

/-- The index register moves only behind the block that was stored. -/
theorem atomic_storeThrough (variant : Variant) (r : Register) :
    Atomic m (m.storeThrough variant r) := by
  unfold storeThrough
  simp only
  split
  · next hstore => exact (m.atomic_store _).first hstore
  · exact .ok m _

theorem atomic_loadThrough (variant : Variant) (r : Register) :
    Atomic m (m.loadThrough variant r) := by
  unfold loadThrough
  simp only
  split
  · exact .error m _
  · exact .ok m _

/-! ## Screen and keys -/

/-- The whole sprite is read before the first cell is flipped. -/
theorem atomic_drawSprite (x y : Int) (height : Nat) : Atomic m (m.drawSprite x y height) := by
  unfold drawSprite
  split
  · exact .error m _
  · exact .ok m _

/-- A wait whose candidate names no key was in progress before, so that nothing has begun. -/
theorem atomic_awaitKey (r : Register) : Atomic m (m.awaitKey r) := by
  unfold awaitKey
  cases haw : m.awaitingKey with
  | false =>
    have hbegun : m.beginWait.pendingKey = none := by
      simp [beginWait, haw]
    simp only [hbegun]
    exact .ok m _
  | true =>
    have hbegun : m.beginWait = m := if_pos haw
    simp only [hbegun]
    split
    · exact .ok m _
    · split
      · exact .error m _
      · split <;> exact .ok m _

/-! ## Every instruction -/

/-- **A primitive that fails has changed nothing.** -/
theorem atomic_primitive (op : Op) (variant : Variant) (byte : UInt8) (i : Instruction) :
    Atomic m (op.primitive variant byte i m) := by
  cases op with
  | ret => exact m.atomic_returnFrom.mapError Failure.fault
  | call => exact (m.atomic_callTo i.address).mapError Failure.fault
  | draw => exact (m.atomic_drawSprite _ _ i.nibble).mapError Failure.fault
  | awaitKey => exact m.atomic_awaitKey i.x
  | storeDecimal => exact m.atomic_store _
  | storeRegs => exact m.atomic_storeThrough variant i.x
  | loadRegs => exact (m.atomic_loadThrough variant i.x).mapError Failure.fault
  | _ => exact .ok m _

theorem atomic_apply (variant : Variant) (byte : UInt8) (i : Instruction) :
    Atomic m (m.apply variant byte i) :=
  m.atomic_primitive i.op variant byte i

variable {m} {variant : Variant} {i : Instruction} {source : ByteSource}

/-- An instruction that is carried out makes of the machine what it does with the byte it is given, and
leaves the source behind that byte. -/
theorem carryOut_eq_ok_iff {n : Machine} {rest : ByteSource} :
    m.carryOut variant i source = .ok (n, rest) ↔
      m.apply variant (source.drawFor i).1 i = .ok n ∧ rest = (source.drawFor i).2 := by
  unfold carryOut
  cases m.apply variant (source.drawFor i).1 i with
  | error stopped =>
    constructor
    · intro h
      cases h
    · rintro ⟨h, -⟩
      cases h
  | ok k =>
    constructor
    · intro h
      cases h
      exact ⟨rfl, rfl⟩
    · rintro ⟨h, rfl⟩
      cases h
      rfl

/-- An instruction that fails is no random load, so it has drawn no byte. -/
theorem drawFor_of_apply_eq_error {byte : UInt8} {stopped : Stopped Machine Failure}
    (hx : m.apply variant byte i = .error stopped) (source : ByteSource) :
    source.drawFor i = (0, source) := by
  apply if_neg
  intro hop
  unfold apply at hx
  rw [hop] at hx
  cases hx

/-- An instruction that fails leaves the machine and the source as they were. -/
theorem carryOut_eq_error_iff {stopped : Stopped (Machine × ByteSource) Failure} :
    m.carryOut variant i source = .error stopped ↔
      m.apply variant (source.drawFor i).1 i = .error ⟨m, stopped.reason⟩ ∧
        stopped.state = (m, source) := by
  unfold carryOut
  cases hx : m.apply variant (source.drawFor i).1 i with
  | error first =>
    obtain ⟨n, failure⟩ := first
    obtain rfl : n = m := m.atomic_apply _ _ _ _ hx
    rw [drawFor_of_apply_eq_error hx]
    constructor
    · intro h
      cases h
      exact ⟨rfl, rfl⟩
    · obtain ⟨state, reason⟩ := stopped
      rintro ⟨h, rfl⟩
      cases h
      rfl
  | ok k =>
    constructor
    · intro h
      cases h
    · rintro ⟨h, -⟩
      cases h

/-- **An instruction that fails has changed nothing and drawn no byte.** -/
theorem atomic_carryOut (variant : Variant) (i : Instruction) (m : Machine) (source : ByteSource) :
    Atomic (m, source) (m.carryOut variant i source) := by
  intro stopped hx
  exact (carryOut_eq_error_iff.mp hx).2

end Machine

end Chip8
