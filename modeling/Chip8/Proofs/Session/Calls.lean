/-
# Chip8.Proofs.Session.Calls — the calls of a list, with the sessions on which they are made.

What happens in the course of a list of calls is told call by call.  `Session.calls` pairs each call with
the session on which it is made, so that everything else is read off pairs: in which sessions cycles
began (`cyclesAll`), and which instructions were executed, in a cycle or by hand (`executedAll`).

No call changes the setup (`setup_perform`), so the sessions of all these pairs have one setup.
-/
import Chip8.Proofs.Session.CycleLog
import Chip8.Proofs.Session.Execute

namespace Chip8.Session

section

variable (patience : Nat) (s : Session)

/-- The calls of a list, each with the session on which it is made. -/
def calls (s : Session) : List Command → List (Session × Command)
  | [] => []
  | c :: cs => (s, c) :: calls (s.perform patience c).session cs

theorem calls_append (cs ds : List Command) :
    s.calls patience (cs ++ ds) =
      s.calls patience cs ++ (s.performAll patience cs).1.calls patience ds := by
  induction cs generalizing s with
  | nil => rfl
  | cons c cs ih => exact congrArg (_ :: ·) (ih _)

/-- The sessions in which the cycles of a list of calls begin. -/
def cyclesAll (cs : List Command) : List Session :=
  (s.calls patience cs).flatMap fun p => p.1.cyclesOf patience p.2

theorem cyclesAll_append (cs ds : List Command) :
    s.cyclesAll patience (cs ++ ds) =
      s.cyclesAll patience cs ++ (s.performAll patience cs).1.cyclesAll patience ds := by
  unfold cyclesAll
  rw [calls_append, List.flatMap_append]

/-- The instructions that cycles execute, each with the session in which its cycle begins: those of the
cycles that succeed. -/
def executions (us : List Session) : List (Session × Instruction) :=
  us.filterMap fun u => u.step.result.toOption.map (u, ·)

/-- The instructions that a call executes, in its cycles or by hand. -/
def executedBy : Command → List (Session × Instruction)
  | .execute i => (s.execute i).result.toOption.toList.map fun _ => (s, i)
  | c => executions (s.cyclesOf patience c)

/-- The instructions that a list of calls executes. -/
def executedAll (cs : List Command) : List (Session × Instruction) :=
  (s.calls patience cs).flatMap fun p => p.1.executedBy patience p.2

end

variable {patience : Nat} {s t u : Session} {c : Command} {cs : List Command} {i : Instruction}

/-! ## Entries -/

theorem mem_cyclesAll (hc : (s, c) ∈ t.calls patience cs) (hu : u ∈ s.cyclesOf patience c) :
    u ∈ t.cyclesAll patience cs :=
  List.mem_flatMap_of_mem hc hu

theorem mem_executedAll {p : Session × Instruction} (hc : (s, c) ∈ t.calls patience cs)
    (hp : p ∈ s.executedBy patience c) : p ∈ t.executedAll patience cs :=
  List.mem_flatMap_of_mem hc hp

theorem mem_cyclesOf_step (hr : s.machine.runState = .running) :
    s ∈ s.cyclesOf patience .step := by
  rw [show s.cyclesOf patience .step = [s] from if_pos hr]
  exact List.mem_singleton_self s

/-- The calls are those of the list. -/
theorem mem_of_mem_calls {p : Session × Command} (hp : p ∈ s.calls patience cs) : p.2 ∈ cs := by
  induction cs generalizing s with
  | nil => cases hp
  | cons c cs ih =>
    rcases List.mem_cons.mp hp with rfl | hp
    · exact List.mem_cons_self
    · exact List.mem_cons_of_mem c (ih hp)

/-- A cycle that succeeds has executed its instruction. -/
theorem mem_executedBy_of_cycle (hu : u ∈ s.cyclesOf patience c) (hi : u.step.result = .ok i) :
    (u, i) ∈ s.executedBy patience c := by
  have hmem : (u, i) ∈ executions (s.cyclesOf patience c) :=
    List.mem_filterMap.mpr ⟨u, hu, by rw [hi]; rfl⟩
  cases c with
  | execute => cases hu
  | _ => exact hmem

theorem mem_executedBy_of_execute (hi : (s.execute i).result = .ok ()) :
    (s, i) ∈ s.executedBy patience (.execute i) := by
  show (s, i) ∈ (s.execute i).result.toOption.toList.map fun _ => (s, i)
  rw [hi]
  exact List.mem_singleton_self _

/-! ## What every entry has -/

/-- What every cycle keeps, holds where any cycle of a run begins, and the machine runs there. -/
theorem cyclesFrom_keeps {P : Session → Prop} (hstep : ∀ t, P t → P t.step.session) {n : Nat}
    (h : P s) : ∀ u ∈ s.cyclesFrom n, P u ∧ u.machine.runState = .running := by
  induction n generalizing s with
  | zero => exact List.forall_mem_nil _
  | succ n ih =>
    have hnext := hstep s h
    rcases s.round_cases with hr | ⟨hr, ⟨t, i, hs⟩ | ⟨t, e, hs⟩⟩
    · rw [cyclesFrom_of_not_running hr]
      exact List.forall_mem_nil _
    · rw [cyclesFrom_succ_of_ok hr hs]
      rw [hs] at hnext
      exact List.forall_mem_cons.mpr ⟨⟨h, hr⟩, ih hnext⟩
    · rw [cyclesFrom_succ_of_error hr hs]
      exact List.forall_mem_singleton.mpr ⟨h, hr⟩

/-- The same is true of the cycles of a call. -/
theorem cyclesOf_keeps {P : Session → Prop} (hstep : ∀ t, P t → P t.step.session) (h : P s) :
    ∀ u ∈ s.cyclesOf patience c, P u ∧ u.machine.runState = .running := by
  cases c with
  | step =>
    rw [← cyclesFrom_one]
    exact cyclesFrom_keeps hstep h
  | run cycles => exact cyclesFrom_keeps hstep h
  | runFrame => exact cyclesFrom_keeps hstep h
  | _ => exact List.forall_mem_nil _

/-- What every call keeps, holds where any call of a list is made. -/
theorem calls_keep {P : Session → Prop}
    (hcs : ∀ c ∈ cs, ∀ t, P t → P (t.perform patience c).session) (h : P s) :
    ∀ p ∈ s.calls patience cs, P p.1 := by
  induction cs generalizing s with
  | nil => exact List.forall_mem_nil _
  | cons c cs ih =>
    obtain ⟨hc, hrest⟩ := List.forall_mem_cons.mp hcs
    exact List.forall_mem_cons.mpr ⟨h, ih hrest (hc s h)⟩

/-! ## Calls that execute nothing -/

/-- Answering with a move of the machine changes the machine at most. -/
theorem settle_leaves {α : Type} (s : Session)
    (move : Except (Stopped Machine Cause) (α × Machine)) :
    (s.settle move).session.setup = s.setup ∧ (s.settle move).session.source = s.source ∧
      (s.settle move).session.reported = s.reported := by
  cases move <;> exact ⟨rfl, rfl, rfl⟩

/-- A call that executes nothing leaves the setup, the source, and what the hook was told of. -/
theorem idle_leaves (patience : Nat) (s : Session) (hc : c.IsIdle) :
    (s.perform patience c).session.setup = s.setup ∧
      (s.perform patience c).session.source = s.source ∧
      (s.perform patience c).session.reported = s.reported := by
  by_cases hhost : c.IsHostCall
  · have hends := call_ends patience s hhost hc.isSingle
    generalize (s.perform patience c).session = t at hends ⊢
    cases hends with
    | handled | booted | fetched => exact ⟨rfl, rfl, rfl⟩
    | stepped hstep =>
      subst hstep
      exact hc.elim
  · cases c with
    | write | push | pop => exact s.settle_leaves _
    | read address count =>
      have hs : (s.perform patience (.read address count)).session = s :=
        s.session_read address count
      rw [hs]
      exact ⟨rfl, rfl, rfl⟩
    | clearScreen | setFlag => exact ⟨rfl, rfl, rfl⟩
    | execute => exact hc.elim
    | _ => exact (hhost trivial).elim

/-! ## The setup -/

theorem setup_step (s : Session) : s.step.session.setup = s.setup := by
  by_cases hr : s.machine.runState = .running
  · exact (step_ends hr).setup
  · rw [step_of_not_running hr]

theorem setup_execute (s : Session) (i : Instruction) : (s.execute i).session.setup = s.setup := by
  rcases s.execute_cases i with ⟨e, hs⟩ | ⟨n, journal, -, hs⟩ <;> rw [hs]

/-- A call that executes at most one cycle leaves the setup. -/
theorem setup_single (patience : Nat) (s : Session) (hc : c.IsSingle) :
    (s.perform patience c).session.setup = s.setup := by
  by_cases hidle : c.IsIdle
  · exact (s.idle_leaves patience hidle).1
  · cases c with
    | step => exact s.setup_step
    | execute i => exact s.setup_execute i
    | run | runFrame => exact hc.elim
    | _ => exact (hidle trivial).elim

/-- No call changes the setup. -/
theorem setup_perform (patience : Nat) (s : Session) (c : Command) :
    (s.perform patience c).session.setup = s.setup := by
  obtain ⟨cs, hcs, hs⟩ := exists_singles patience s c
  rw [hs]
  refine performAll_keeps patience (P := fun t => t.setup = s.setup) ?_ rfl
  intro d hd t ht
  rw [setup_single patience t (hcs d hd).1, ht]

theorem setup_performAll (patience : Nat) (s : Session) (cs : List Command) :
    (s.performAll patience cs).1.setup = s.setup := by
  refine performAll_keeps patience (P := fun t => t.setup = s.setup) ?_ rfl
  intro c _ t ht
  rw [setup_perform, ht]

/-- The calls of a list are made on one setup. -/
theorem setup_of_mem_calls {p : Session × Command} (hp : p ∈ s.calls patience cs) :
    p.1.setup = s.setup := by
  refine calls_keep (P := fun t => t.setup = s.setup) ?_ rfl p hp
  intro c _ t ht
  rw [setup_perform, ht]

/-- The cycles of a call have its setup, and the machine runs where they begin. -/
theorem setup_of_mem_cyclesOf (hu : u ∈ s.cyclesOf patience c) :
    u.setup = s.setup ∧ u.machine.runState = .running := by
  refine cyclesOf_keeps (P := fun t => t.setup = s.setup) ?_ rfl u hu
  intro t ht
  rw [setup_step, ht]

end Chip8.Session
