/-
# Chip8.Proofs.Session.Budget — runs on a budget.

A run with a limit is a loop: as long as the machine is running and the limit is not reached, execute a
cycle and count it.  `Session.LoopEnds` is that loop as a relation, its two tests in their order and a
failing cycle ending it at once.  The run of a session computes it (`loopEnds_iff`), so that the loop
comes to an end under every limit, also a negative one.

A run can be cut at any cycle (`runFrom_add_of_ok`, `runFrom_add_of_error`), and what it has done is a
list of cycles that all succeeded, perhaps with one behind them that failed (`stepsThen_runFrom`).
-/
import Chip8.Proofs.Session.History

namespace Chip8.Session

variable {s t : Session} {done n : Nat}

/-! ## Cycles of a run -/

/-- A cycle that succeeds is counted. -/
theorem StepEnds.cycles_of_ok {i : Instruction} (ht : s.StepEnds t (.ok i)) :
    t.cycles = s.cycles + 1 := by
  cases ht <;> rfl

/-- A cycle of a running machine is not refused. -/
theorem StepEnds.ne_notRunning {result : Except SessionError Instruction}
    (ht : s.StepEnds t result) (r : RunState) : result ≠ .error (.notRunning r) := by
  cases ht <;> nofun

/-! ## Cutting a run -/

/-- Cycles that were executed before a run are added to its count. -/
theorem runFrom_add_done (d done n : Nat) (s : Session) :
    runFrom (d + done) n s = (runFrom done n s).map (d + ·) := by
  induction n generalizing done s with
  | zero => rfl
  | succ n ih =>
    rcases s.round_cases with hr | ⟨hr, ⟨t, i, hs⟩ | ⟨t, e, hs⟩⟩
    · rw [runFrom_of_not_running hr, runFrom_of_not_running hr]
      rfl
    · rw [runFrom_succ_of_ok hr hs, runFrom_succ_of_ok hr hs]
      exact ih (done + 1) t
    · rw [runFrom_succ_of_error hr hs, runFrom_succ_of_error hr hs]
      rfl

/-- A run that has not failed goes on with what is left of a larger budget. -/
theorem runFrom_add_of_ok {j : Nat} (a b : Nat) (h : runFrom done a s = ⟨t, .ok j⟩) :
    runFrom done (a + b) s = runFrom j b t := by
  induction a generalizing done s with
  | zero =>
    cases h
    rw [Nat.zero_add]
  | succ a ih =>
    rcases s.round_cases with hr | ⟨hr, ⟨u, i, hs⟩ | ⟨u, e, hs⟩⟩
    · -- a machine that has stopped executes nothing of either budget
      rw [runFrom_of_not_running hr] at h
      cases h
      rw [runFrom_of_not_running hr, runFrom_of_not_running hr]
    · rw [runFrom_succ_of_ok hr hs] at h
      rw [Nat.succ_add, runFrom_succ_of_ok hr hs]
      exact ih h
    · rw [runFrom_succ_of_error hr hs] at h
      cases h

/-- A run that has failed fails in the same way on a larger budget. -/
theorem runFrom_add_of_error {e : SessionError} (a b : Nat)
    (h : runFrom done a s = ⟨t, .error e⟩) : runFrom done (a + b) s = ⟨t, .error e⟩ := by
  induction a generalizing done s with
  | zero => cases h
  | succ a ih =>
    rcases s.round_cases with hr | ⟨hr, ⟨u, i, hs⟩ | ⟨u, e', hs⟩⟩
    · rw [runFrom_of_not_running hr] at h
      cases h
    · rw [runFrom_succ_of_ok hr hs] at h
      rw [Nat.succ_add, runFrom_succ_of_ok hr hs]
      exact ih h
    · rw [runFrom_succ_of_error hr hs] at h
      rw [Nat.succ_add, runFrom_succ_of_error hr hs]
      exact h

/-! ## A run as a list of cycles -/

/-- Some cycles, all of which succeed. -/
def StepsTo (patience : Nat) (s : Session) (k : Nat) (u : Session) : Prop :=
  ∃ is : List Instruction, is.length = k ∧
    s.performAll patience (List.replicate k .step) = (u, is.map fun i => .ok (.stepped i))

theorem StepsTo.zero (patience : Nat) (s : Session) : s.StepsTo patience 0 s :=
  ⟨[], rfl, rfl⟩

theorem StepsTo.cons {patience k : Nat} {u : Session} {i : Instruction} (hs : s.step = ⟨t, .ok i⟩)
    (h : t.StepsTo patience k u) : s.StepsTo patience (k + 1) u := by
  obtain ⟨is, hlength, his⟩ := h
  refine ⟨i :: is, by rw [List.length_cons, hlength], ?_⟩
  rw [List.replicate_succ]
  unfold performAll
  rw [perform_of_step patience hs]
  simp only [his]
  rfl

/-- The answer of a run that first executes cycles which succeed: it answers with their number once `n`
cycles are executed or the machine has stopped, and fails as the next cycle does. -/
inductive StepsThen (patience : Nat) (s : Session) (n : Nat) : Reply Nat → Prop where
  | returned {k : Nat} {u : Session} (hk : k ≤ n) (hu : s.StepsTo patience k u)
      (hstop : k = n ∨ u.machine.runState ≠ .running) : StepsThen patience s n ⟨u, .ok k⟩
  | failed {k : Nat} {u : Session} {e : SessionError} (hk : k < n) (hu : s.StepsTo patience k u)
      (hr : u.machine.runState = .running) (he : u.step.result = .error e) :
      StepsThen patience s n ⟨u.step.session, .error e⟩

theorem StepsThen.cons {patience : Nat} {r : Reply Nat} {i : Instruction} (hs : s.step = ⟨t, .ok i⟩)
    (h : StepsThen patience t n r) : StepsThen patience s (n + 1) (r.map (1 + ·)) := by
  cases h with
  | @returned k u hk hu hstop =>
    rw [show (⟨u, .ok k⟩ : Reply Nat).map (1 + ·) = ⟨u, .ok (k + 1)⟩ by
      rw [Nat.add_comm k 1]
      rfl]
    refine .returned (by omega) (hu.cons hs) ?_
    exact hstop.imp_left (congrArg (· + 1))
  | failed hk hu hr he => exact .failed (by omega) (hu.cons hs) hr he

/-- A run calls cycles one by one. -/
theorem stepsThen_runFor (patience n : Nat) (s : Session) :
    StepsThen patience s n (s.runFor n) := by
  induction n generalizing s with
  | zero => exact .returned (Nat.le_refl 0) (.zero patience s) (Or.inl rfl)
  | succ n ih =>
    unfold runFor
    rcases s.round_cases with hr | ⟨hr, ⟨t, i, hs⟩ | ⟨t, e, hs⟩⟩
    · rw [runFrom_of_not_running hr]
      exact .returned (Nat.zero_le _) (.zero patience s) (Or.inr hr)
    · rw [runFrom_succ_of_ok hr hs, Nat.add_comm 0 1, runFrom_add_done]
      exact (ih t).cons hs
    · have hfailed := StepsThen.failed (Nat.succ_pos n) (.zero patience s) hr
        (show s.step.result = .error e by rw [hs])
      rw [runFrom_succ_of_error hr hs]
      rwa [show s.step.session = t by rw [hs]] at hfailed

/-! ## The loop -/

/-- How the loop of a run with a limit ends when it comes to its test with a count of executed cycles. -/
inductive LoopEnds (limit : Int) : Nat → Session → Reply Nat → Prop where
  /-- The machine is not running. -/
  | stopped {done : Nat} {s : Session} (hr : s.machine.runState ≠ .running) :
      LoopEnds limit done s ⟨s, .ok done⟩
  /-- The limit is reached. -/
  | spent {done : Nat} {s : Session} (hr : s.machine.runState = .running) (hd : limit ≤ done) :
      LoopEnds limit done s ⟨s, .ok done⟩
  /-- A cycle fails. -/
  | failed {done : Nat} {s t : Session} {e : SessionError} (hr : s.machine.runState = .running)
      (hd : done < limit) (hs : s.step = ⟨t, .error e⟩) : LoopEnds limit done s ⟨t, .error e⟩
  /-- A cycle succeeds, and the loop goes round. -/
  | counted {done : Nat} {s t : Session} {i : Instruction} {r : Reply Nat}
      (hr : s.machine.runState = .running) (hd : done < limit) (hs : s.step = ⟨t, .ok i⟩)
      (hrest : LoopEnds limit (done + 1) t r) : LoopEnds limit done s r

theorem loopEnds_runFrom (done n : Nat) (s : Session) :
    LoopEnds (done + n) done s (runFrom done n s) := by
  induction n generalizing done s with
  | zero =>
    by_cases hr : s.machine.runState = .running
    · exact .spent hr (by omega)
    · exact .stopped hr
  | succ n ih =>
    have hd : (done : Int) < done + (n + 1 : Nat) := by omega
    rcases s.round_cases with hr | ⟨hr, ⟨t, i, hs⟩ | ⟨t, e, hs⟩⟩
    · rw [runFrom_of_not_running hr]
      exact .stopped hr
    · have hrest := ih (done + 1) t
      rw [show ((done + 1 : Nat) : Int) + n = done + (n + 1 : Nat) by omega] at hrest
      rw [runFrom_succ_of_ok hr hs]
      exact .counted hr hd hs hrest
    · rw [runFrom_succ_of_error hr hs]
      exact .failed hr hd hs

namespace LoopEnds

variable {limit : Int} {r : Reply Nat}

/-- The loop ends in one way only. -/
theorem eq_runFrom (h : LoopEnds limit done s r) : r = runFrom done (limit - done).toNat s := by
  induction h with
  | stopped hr => rw [runFrom_of_not_running hr]
  | @spent done s hr hd =>
    rw [show (limit - done).toNat = 0 by omega]
    rfl
  | @failed done s t e hr hd hs =>
    obtain ⟨n, hn⟩ : ∃ n, (limit - done).toNat = n + 1 := ⟨_, (Nat.succ_pred (by omega)).symm⟩
    rw [hn, runFrom_succ_of_error hr hs]
  | @counted done s t i r hr hd hs _ ih =>
    rw [show (limit - done).toNat = (limit - (done + 1 : Nat)).toNat + 1 by omega,
      runFrom_succ_of_ok hr hs]
    exact ih

/-- The cycles that the loop has counted were executed, and are no more than the limit allows. -/
theorem of_ok (h : LoopEnds limit done s r) (hd : done ≤ max limit 0) {k : Nat}
    (hk : r.result = .ok k) :
    k ≤ max limit 0 ∧ r.session.cycles + done = s.cycles + k ∧
      (k = max limit 0 ∨ r.session.machine.runState ≠ .running) := by
  induction h with
  | stopped hr =>
    cases hk
    exact ⟨hd, rfl, Or.inr hr⟩
  | spent hr hspent =>
    cases hk
    exact ⟨hd, rfl, Or.inl (by omega)⟩
  | failed => cases hk
  | @counted done s t i r hr hlt hs _ ih =>
    obtain ⟨hle, hcycles, hstop⟩ := ih (by omega) hk
    have hends := step_ends hr
    rw [hs] at hends
    have hone : t.cycles = s.cycles + 1 := hends.cycles_of_ok
    exact ⟨hle, by omega, hstop⟩

/-- The loop asks for a cycle only of a machine that is running. -/
theorem ne_notRunning (h : LoopEnds limit done s r) (state : RunState) :
    r.result ≠ .error (.notRunning state) := by
  induction h with
  | stopped | spent => nofun
  | @failed done s t e hr hd hs =>
    have hends := step_ends hr
    rw [hs] at hends
    intro he
    obtain rfl := Except.error.inj he
    exact hends.ne_notRunning state rfl
  | counted _ _ _ _ ih => exact ih

end LoopEnds

theorem loopEnds_iff {limit : Int} {r : Reply Nat} :
    LoopEnds limit 0 s r ↔ r = s.runFor limit.toNat := by
  constructor
  · intro h
    have heq := h.eq_runFrom
    rwa [Int.ofNat_zero, Int.sub_zero] at heq
  · rintro rfl
    by_cases hlimit : 0 ≤ limit
    · have hends := loopEnds_runFrom 0 limit.toNat s
      rwa [show ((0 : Nat) : Int) + limit.toNat = limit by omega] at hends
    · rw [show limit.toNat = 0 by omega]
      by_cases hr : s.machine.runState = .running
      · exact .spent hr (by omega)
      · exact .stopped hr

/-! ## Runs of a session -/

theorem run_eq_runFor {cycles : Option Int} {limit : Int}
    (h : cycles.or s.setup.pacing.maxCycles = some limit) (patience : Nat) :
    s.run patience cycles = s.runFor limit.toNat := by
  unfold run budget
  rw [h]
  rfl

theorem run_some (patience n : Nat) (s : Session) : s.run patience (some (n : Int)) = s.runFor n :=
  run_eq_runFor (show (some (n : Int)).or _ = some (n : Int) from rfl) patience

/-- **A run does not depend on how the host cuts it up.**  This is so in every session, whatever its
variant, its source, its hook and its history.  Two runs one after the other leave what one run on both
budgets leaves, and their counts add up; if the first one fails, the one run fails likewise.  A run is a
list of cycles that ends by its length, by a machine that has stopped, or by a cycle that fails.  And a
run with a limit, named by the host or else by the session, ends as its loop ends: it is not refused,
and if it answers, the answer counts its cycles, within the limit and short of it only on a machine that
has stopped. -/
theorem run_on_budget (patience : Nat) (s : Session) :
    (∀ a b j : Nat, ∀ t, s.run patience (some (a : Int)) = ⟨t, .ok j⟩ →
        s.run patience (some ((a + b : Nat) : Int)) =
          (t.run patience (some (b : Int))).map (j + ·)) ∧
      (∀ a b : Nat, ∀ t e, s.run patience (some (a : Int)) = ⟨t, .error e⟩ →
        s.run patience (some ((a + b : Nat) : Int)) = ⟨t, .error e⟩) ∧
      (∀ n : Nat, StepsThen patience s n (s.run patience (some (n : Int)))) ∧
      (∀ cycles limit, cycles.or s.setup.pacing.maxCycles = some limit →
        (∀ r, LoopEnds limit 0 s r ↔ r = s.run patience cycles) ∧
          (∀ state, (s.run patience cycles).result ≠ .error (.notRunning state)) ∧
          ∀ r : Nat, (s.run patience cycles).result = .ok r →
            r ≤ max limit 0 ∧ (s.run patience cycles).session.cycles = s.cycles + r ∧
              (r = max limit 0 ∨
                (s.run patience cycles).session.machine.runState ≠ .running)) := by
  refine ⟨?_, ?_, ?_, ?_⟩
  · intro a b j t h
    rw [run_some] at h ⊢
    rw [run_some, ← Nat.add_zero j]
    unfold runFor
    rw [runFrom_add_of_ok a b h, ← runFrom_add_done, Nat.add_zero]
  · intro a b t e h
    rw [run_some] at h ⊢
    exact runFrom_add_of_error a b h
  · intro n
    rw [run_some]
    exact stepsThen_runFor patience n s
  · intro cycles limit hlimit
    rw [run_eq_runFor hlimit]
    have hends : LoopEnds limit 0 s (s.runFor limit.toNat) := loopEnds_iff.mpr rfl
    refine ⟨fun r => loopEnds_iff, hends.ne_notRunning, ?_⟩
    intro r hr
    obtain ⟨hle, hcycles, hstop⟩ := hends.of_ok (by omega) hr
    exact ⟨hle, hcycles, hstop⟩

/-- A program that goes round in a circle, cut behind its first cycle. -/
theorem run_on_budget_circle :
    ∃ s t : Session, s.ReachableBy Command.IsHostCall ∧ s.run 0 (some 1) = ⟨t, .ok 1⟩ ∧
      s.run 0 (some 3) = (t.run 0 (some 2)).map (1 + ·) := by
  let s := ((Session.start ⟨.standard, .standard, true, none⟩ none (.ofList [])).perform 0
    (.load [0x12, 0x00])).session
  have hr : s.ReachableBy Command.IsHostCall := (ReachableBy.start _ _ _).perform 0 trivial
  have hone : (s.run 0 (some 1)).result.toOption = some 1 := by decide +kernel
  rcases hs : s.run 0 (some 1) with ⟨t, result⟩
  rw [hs] at hone
  cases result with
  | error e => cases hone
  | ok k =>
    obtain rfl := Option.some.inj hone
    obtain ⟨hcut, -⟩ := run_on_budget 0 s
    exact ⟨s, t, hr, hs, hcut 1 2 1 t hs⟩

end Chip8.Session
