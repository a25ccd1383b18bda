/-
# Chip8.Proofs.Session.CallStack — calls and returns over the life of a session.

Each cycle of a log executes a call, executes a return, or does neither, which is told by what it
answered and where it fetched (`Session.flow?`).  So a log has a word of calls and returns, and in every
session that a host can bring about the stack holds the open calls of that word, each as the address
behind it (`stack_eq_openCalls`).  The program may jump out of its subroutines, fault in the middle of
them, or rewrite them: the word is read off what was executed, not off what stands in memory.

One cycle does one of three things to the stack (`Machine.Flows`), which is shown end by end; the word
grows accordingly (`Machine.Nests.flows`), and the log carries this to whole histories.
-/
import Chip8.Proofs.Machine.Faults
import Chip8.Proofs.Machine.Writes
import Chip8.Proofs.Session.CycleLog
import Chip8.Proofs.Session.Nesting

namespace Chip8

/-! ## The calls and returns of a log -/

/-- The call or the return that a cycle has executed, by where it fetched and what it answered. -/
def Flow.ofResult? (pc : Int) : Except SessionError Instruction → Option Flow
  | .error _ => none
  | .ok i =>
    if i.family = 0x2 then some (.call pc)
    else if i.family = 0x0 ∧ i.byte = 0xEE then some .ret
    else none

namespace Session

/-- The call or the return that a cycle of the session executes. -/
def flow? (u : Session) : Option Flow :=
  Flow.ofResult? u.machine.pc u.step.result

/-- The calls and returns that the cycles of a log have executed. -/
def flow (log : List Session) : List Flow :=
  log.filterMap flow?

theorem flow_append (log more : List Session) : flow (log ++ more) = flow log ++ flow more :=
  List.filterMap_append

theorem flow_append_singleton (log : List Session) (u : Session) :
    flow (log ++ [u]) = flow log ++ u.flow?.toList := by
  rw [flow_append]
  apply congrArg (flow log ++ ·)
  cases hu : u.flow? with
  | none => exact List.filterMap_cons_none hu
  | some f => exact List.filterMap_cons_some hu

end Session

namespace Flow

variable {i : Instruction} (pc : Int)

theorem ofResult?_of_call (hop : i.op = .call) : ofResult? pc (.ok i) = some (.call pc) := by
  have hcall := (Instruction.op_eq_iff rfl).mp hop
  exact if_pos hcall

theorem ofResult?_of_ret (hop : i.op = .ret) : ofResult? pc (.ok i) = some .ret := by
  obtain ⟨hfamily, hbyte⟩ := (Instruction.op_eq_iff rfl).mp hop
  simp [ofResult?, hfamily, hbyte]

theorem ofResult?_of_other (hcall : i.op ≠ .call) (hret : i.op ≠ .ret) :
    ofResult? pc (.ok i) = none := by
  have hcall' : ¬ i.family = 0x2 := fun h => hcall (Instruction.op_of_fits rfl h)
  have hret' : ¬ (i.family = 0x0 ∧ i.byte = 0xEE) := fun h => hret (Instruction.op_of_fits rfl h)
  unfold ofResult?
  simp only [if_neg hcall', if_neg hret']

end Flow

/-! ## One cycle -/

namespace Machine

/-- What a cycle does to the stack when it executes a call, a return, or neither. -/
inductive Flows (m n : Machine) : Option Flow → Prop where
  | call (hstack : n.stack = (m.pc + 2) :: m.stack) : Flows m n (some (.call m.pc))
  | ret (hstack : m.stack = n.pc :: n.stack) : Flows m n (some .ret)
  | stay (hstack : n.stack = m.stack) : Flows m n none

end Machine

namespace Session

/-- A fetch leaves the stack as it is. -/
theorem stack_of_fetch {m n : Machine} {i : Instruction} (hf : m.fetch = .ok (i, n)) :
    n.stack = m.stack := by
  rw [Machine.eq_advance_of_fetch hf]
  rfl

/-- However a cycle ends, the stack follows the call or the return that it has executed. -/
theorem StepEnds.flows {s t : Session} {result : Except SessionError Instruction}
    (h : s.machine.InRange) (ht : s.StepEnds t result) :
    s.machine.Flows t.machine (Flow.ofResult? s.machine.pc result) := by
  cases ht with
  | unfetched => exact .stay rfl
  | hookFaulted journal hf | brokenOff journal hf | faulted journal hf | misfit journal hf =>
    have hstack := stack_of_fetch hf
    exact .stay hstack
  | @passed journal i m hf hi =>
    have hstack := stack_of_fetch hf
    rw [Flow.ofResult?_of_other _ (by rw [hi]; decide) (by rw [hi]; decide)]
    exact .stay hstack
  | @executed journal i m n hf hi hx =>
    have hstack := stack_of_fetch hf
    show s.machine.Flows n _
    by_cases hcall : i.op = .call
    · have hpc : m.pc = s.machine.pc + 2 := ((Machine.fetch_eq_ok_iff h.pc.1).mp hf).2.2 ▸ rfl
      rw [Flow.ofResult?_of_call _ hcall]
      apply Machine.Flows.call
      rw [Machine.of_callTo (Machine.callTo_of_apply hcall hx), ← hstack, ← hpc]
    · by_cases hret : i.op = .ret
      · obtain ⟨a, rest, hm, rfl⟩ := Machine.of_returnFrom (Machine.returnFrom_of_apply hret hx)
        rw [Flow.ofResult?_of_ret _ hret]
        apply Machine.Flows.ret
        rw [← hstack]
        exact hm
      · rw [Flow.ofResult?_of_other _ hcall hret]
        apply Machine.Flows.stay
        rw [← hstack]
        exact Machine.stack_of_apply hcall hret hx

end Session

/-! ## Whole histories -/

namespace Machine

/-- The stack holds the open calls of a word, each as the address behind it, and is as high as the word
has more calls than returns. -/
structure Nests (m : Machine) (word : List Flow) : Prop where
  opens : m.stack.reverse = (Flow.openCalls word).map (· + 2)
  balance : m.stack.length + word.count .ret = word.countP Flow.isCall

namespace Nests

variable {m n : Machine} {word : List Flow}

theorem of_stack (h : m.Nests word) (hstack : n.stack = m.stack) : n.Nests word := by
  refine ⟨?_, ?_⟩
  · rw [hstack]
    exact h.opens
  · rw [hstack]
    exact h.balance

/-- A cycle that executes a call or a return adds it to the word. -/
theorem flows (h : m.Nests word) {f : Option Flow} (hf : m.Flows n f) :
    n.Nests (word ++ f.toList) := by
  have hopens := h.opens
  have hbalance := h.balance
  cases hf with
  | call hstack =>
    refine ⟨?_, ?_⟩
    · simp [hstack, Flow.openCalls_append_call, hopens]
    · simp [hstack, List.count_append, List.countP_append, Flow.isCall]
      omega
  | ret hstack =>
    rw [hstack, List.reverse_cons] at hopens
    rw [hstack, List.length_cons] at hbalance
    refine ⟨?_, ?_⟩
    · simp [Flow.openCalls_append_ret, List.map_dropLast, ← hopens]
    · simp [List.count_append, List.countP_append, Flow.isCall]
      omega
  | stay hstack =>
    rw [Option.toList_none, List.append_nil]
    exact h.of_stack hstack

/-- A return goes behind the call that it matches. -/
theorem pc_of_ret (h : m.Nests word) (hf : m.Flows n (some .ret)) :
    (∃ a, Flow.Matches word a) ∧ ∀ a, Flow.Matches word a → n.pc = a + 2 := by
  have hopens := h.opens
  cases hf with
  | ret hstack =>
    rw [hstack, List.reverse_cons] at hopens
    refine ⟨?_, ?_⟩
    · obtain ⟨opens, latest, hsplit, -, hlatest⟩ := List.map_eq_append_iff.mp hopens.symm
      obtain ⟨a, rfl, -⟩ := List.map_eq_singleton_iff.mp hlatest
      exact ⟨a, Flow.matches_iff.mpr ⟨opens, hsplit⟩⟩
    · intro a ha
      obtain ⟨opens, hsplit⟩ := Flow.matches_iff.mp ha
      rw [hsplit, List.map_append, List.map_singleton] at hopens
      obtain ⟨-, hlatest⟩ := List.append_inj' hopens rfl
      exact List.singleton_inj.mp hlatest

end Nests

theorem stack_of_handled {m n : Machine} (h : m.Handled n) : n.stack = m.stack := by
  cases h with
  | ticked =>
    unfold tick
    split <;> rfl
  | same | runState | keypad => rfl

theorem stack_of_boot {image : List UInt8} {m : Machine} (h : boot? image = some m) :
    m.stack = [] := by
  obtain ⟨memory, rfl⟩ := exists_memory_of_boot h
  rfl

theorem nests_nil {m : Machine} (h : m.stack = []) : m.Nests [] := by
  refine ⟨?_, ?_⟩
  · rw [h]
    rfl
  · rw [h]
    rfl

end Machine

namespace Session

theorem flows_step {u : Session} (h : u.machine.InRange) (hr : u.machine.runState = .running) :
    u.machine.Flows u.step.session.machine u.flow? :=
  (step_ends hr).flows h

theorem isCarried_nests (Allowed : Command → Prop) :
    IsCarried Allowed fun s log => s.machine.Nests (flow log) where
  start _ _ _ := Machine.nests_nil rfl
  cycle hm hr h := by
    rw [flow_append_singleton]
    exact h.flows (flows_step hm hr)
  handled _ hm h := h.of_stack (Machine.stack_of_handled hm)
  fetched _ hf h := h.of_stack (stack_of_fetch hf)
  booted _ hm _ := Machine.nests_nil (Machine.stack_of_boot hm)

/-- **The discipline of calls and returns.**  In every session that a host can bring about, whatever
the program, the stack lists, the oldest first, the addresses behind those calls executed since the last
load that no later return matches.  So its height is calls minus returns, and at most twelve.  Every
return goes behind the call that it matches.  No other cycle, whether it executes an instruction, faults
or is broken off, moves the stack, and no call on the session does whose cycles execute neither. -/
theorem stack_eq_openCalls {s : Session} {log : List Session}
    (h : s.LoggedBy Command.IsHostCall log) :
    s.machine.stack.reverse = (Flow.openCalls (flow log)).map (· + 2) ∧
      s.machine.stack.length + (flow log).count .ret = (flow log).countP Flow.isCall ∧
      s.machine.stack.length ≤ 12 ∧
      (∀ before u after, log = before ++ u :: after → u.flow? = some .ret →
        (∃ a, Flow.Matches (flow before) a) ∧
          ∀ a, Flow.Matches (flow before) a → u.step.session.machine.pc = a + 2) ∧
      (∀ u ∈ log, u.flow? = none → u.step.session.machine.stack = u.machine.stack) ∧
      (∀ patience c, c.IsHostCall → ¬ c.Boots → flow (s.cyclesOf patience c) = [] →
        (s.perform patience c).session.machine.stack = s.machine.stack) := by
  have hnests {t : Session} {history : List Session} (ht : t.LoggedBy Command.IsHostCall history) :
      t.machine.Nests (flow history) :=
    ht.induct (fun _ hc => hc) (isCarried_nests _)
  have hnow := hnests h
  refine ⟨hnow.opens, hnow.balance, h.reachable.inRange.depth, ?_, ?_, ?_⟩
  · intro before u after hu hret
    obtain ⟨hr, hlogged⟩ := h.of_append trivial hu
    have hflows := flows_step hlogged.reachable.inRange hr
    rw [hret] at hflows
    exact (hnests hlogged).pc_of_ret hflows
  · intro u hu hnone
    obtain ⟨before, after, hlog⟩ := List.append_of_mem hu
    obtain ⟨hr, hlogged⟩ := h.of_append trivial hlog
    have hflows := flows_step hlogged.reachable.inRange hr
    rw [hnone] at hflows
    cases hflows with
    | stay hstack => exact hstack
  · intro patience c hc hboots hnone
    -- the word is the same before and after the call, and it determines the stack
    have hnext := (hnests (h.performed patience hc hboots)).opens
    rw [flow_append, hnone, List.append_nil, ← hnow.opens] at hnext
    exact List.reverse_inj.mp hnext

/-- A session in a subroutine that has called another one, from which it has returned: the last cycle
went behind the inner call. -/
theorem stack_eq_openCalls_nested :
    ∃ s log, LoggedBy Command.IsHostCall s log ∧
      flow log = [.call 0x200, .call 0x204, .ret] ∧ s.machine.stack.reverse = [0x202] ∧
      s.machine.pc = 0x206 := by
  let booted := ((Session.start ⟨.standard, .standard, true, none⟩ none (.ofList [])).perform 0
    (.load [0x22, 0x04, 0x00, 0xEE, 0x22, 0x08, 0x00, 0xEE, 0x00, 0xEE])).session
  have hbooted : booted.LoggedBy Command.IsHostCall [] :=
    (LoggedBy.start _ _ _).booted 0 trivial (by show _ ≤ _; decide)
  have hrun := hbooted.performed 0 (c := .run (some 3)) trivial id
  have hflow : flow ([] ++ booted.cyclesOf 0 (.run (some 3))) = [.call 0x200, .call 0x204, .ret] := by
    decide +kernel
  obtain ⟨hstack, -⟩ := stack_eq_openCalls hrun
  rw [hflow] at hstack
  exact ⟨_, _, hrun, hflow, hstack, by decide +kernel⟩

end Session

end Chip8
