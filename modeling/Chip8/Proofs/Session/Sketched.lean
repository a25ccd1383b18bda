/-
# Chip8.Proofs.Session.Sketched — sessions that follow a sketch.

A program that is freshly loaded is followed cycle by cycle on a sketch of the machine, whatever the host
does to the keys, the timer and the run state between cycles, and however the cycles are called for.
`Session.IsSketched` says so of a session and of the sessions in which its cycles began.  If the program never
leaves what a sketch can tell (`Sketch.Runs`), every call keeps this (`IsSketched.performAll`), and no cycle
faults or meets an unknown word.
-/
import Chip8.Proofs.Program.Sketch

namespace Chip8

namespace Sketch

/-- The course of a program whose cycles see the given keypads. -/
def course (image : List UInt8) (ps : List Keypad) : Option Sketch :=
  ps.foldlM (next image) start

theorem course_append_singleton (image : List UInt8) (ps : List Keypad) (p : Keypad) :
    course image (ps ++ [p]) = (course image ps).bind fun σ => σ.next image p := by
  rw [course, List.foldlM_append]
  cases h : ps.foldlM (next image) start with
  | none => simp [course, h]
  | some σ => simp [course, h]

/-- Whatever keypads the cycles see, the program can be followed. -/
def Runs (image : List UInt8) : Prop :=
  ∀ ps, ∃ σ, course image ps = some σ

end Sketch

namespace Session

/-- The cycle that begins in the session goes well: a known instruction is executed and succeeds, and
neither has anything been called so far nor has memory changed but where numbers are stored. -/
structure GoesWell (origin : Memory) (u : Session) : Prop where
  succeeds : ∃ i, u.step.result = .ok i ∧ i.op ≠ .unknown
  stack : u.machine.stack = []
  memory : origin.SameOutside u.machine.memory 0x300 3

/-- The session follows a sketch: the cycles that began in the sessions `us` went well, and the sketch at
the end of their course depicts its machine. -/
structure IsSketched (image : List UInt8) (origin : Memory) (s : Session) (us : List Session) : Prop where
  depicts : ∃ σ, Sketch.course image (us.map (·.machine.keypad)) = some σ ∧
    σ.Depicts origin s.machine ∧ σ.wait = Wait.Status.after (roundsOf us)
  cycles : s.cycles = us.length
  well : ∀ u ∈ us, u.GoesWell origin

namespace IsSketched

variable {image : List UInt8} {origin : Memory} {s : Session} {us : List Session}

/-- What the host does to the machine is not in a sketch. -/
theorem handled (h : s.IsSketched image origin us) {m : Machine} (journal : Journal)
    (hm : s.machine.Handled m) : IsSketched image origin { s with machine := m, journal } us where
  depicts := by
    obtain ⟨σ, hcourse, hσ, hwait⟩ := h.depicts
    exact ⟨σ, hcourse, hσ.handled hm, hwait⟩
  cycles := h.cycles
  well := h.well

/-- A cycle goes one step on in the course. -/
theorem step (hruns : Sketch.Runs image) (hmem : origin.Carries image)
    (hr : s.machine.runState = .running) (h : s.IsSketched image origin us) :
    s.step.session.IsSketched image origin (us ++ [s]) := by
  obtain ⟨σ, hcourse, hσ, hwait⟩ := h.depicts
  obtain ⟨τ, hτ⟩ := hruns ((us ++ [s]).map (·.machine.keypad))
  have hnext : σ.next image s.machine.keypad = some τ := by
    rw [List.map_append, List.map_singleton, Sketch.course_append_singleton, hcourse] at hτ
    exact hτ
  obtain ⟨i, hi, hexecute⟩ := Option.bind_eq_some_iff.mp hnext
  obtain ⟨hpc, hcurrent⟩ := hσ.current hmem hi
  obtain ⟨hknown, n, hn, hdepicts⟩ := hσ.execute hmem hi hexecute s.setup.variant
    (s.source.drawFor i).1
  have hplace := hσ.pc
  have hfetch : s.machine.fetch = .ok (i, { s.machine with pc := s.machine.pc + 2 }) :=
    (Machine.fetch_eq_ok_iff (by omega)).mpr ⟨by omega, hcurrent.symm, rfl⟩
  obtain ⟨hresult, journal, hs⟩ := (step_ends hr).of_apply hfetch hknown hn
  rw [hs]
  refine ⟨⟨τ, hτ, hdepicts, ?_⟩, ?_, ?_⟩
  · rw [Sketch.wait_of_execute hexecute, roundsOf_append_singleton, hcurrent]
    split
    · rw [Wait.Status.after_append_singleton, hwait]
    · rw [List.append_nil, hwait]
  · show s.cycles + 1 = (us ++ [s]).length
    rw [h.cycles, List.length_append, List.length_singleton]
  · intro u hu
    rcases List.mem_append.mp hu with hu | hu
    · exact h.well u hu
    · obtain rfl := List.mem_singleton.mp hu
      exact ⟨⟨i, hresult, hknown⟩, hσ.stack, hσ.memory⟩

/-- Every call but a load and a fetch outside any cycle goes on in the course by its cycles. -/
theorem perform (hruns : Sketch.Runs image) (hmem : origin.Carries image)
    (h : s.IsSketched image origin us) (patience : Nat) {c : Command} (hc : c.IsDriving)
    (hb : ¬ c.Boots) :
    (s.perform patience c).session.IsSketched image origin (us ++ s.cyclesOf patience c) := by
  refine carried_perform (P := IsSketched image origin) (step hruns hmem)
    (fun journal hm ht => ht.handled journal hm) ?_ patience hc.isHostCall hb h
  rintro i m rfl -
  exact hc.elim

/-- So does every list of such calls. -/
theorem performAll (hruns : Sketch.Runs image) (hmem : origin.Carries image)
    (h : s.IsSketched image origin us) (patience : Nat) {cs : List Command}
    (hcs : ∀ c ∈ cs, c.IsDriving ∧ ¬ c.Boots) :
    (s.performAll patience cs).1.IsSketched image origin (us ++ s.cyclesAll patience cs) := by
  induction cs generalizing s us with
  | nil => exact (List.append_nil us).symm ▸ h
  | cons c cs ih =>
    obtain ⟨⟨hc, hb⟩, hrest⟩ := List.forall_mem_cons.mp hcs
    have hlater := ih (h.perform hruns hmem patience hc hb) hrest
    rwa [List.append_assoc] at hlater

end IsSketched

/-- A program that can be followed is followed from its load on, through any calls but loads and fetches
outside any cycle. -/
theorem sketched_of_load {image : List UInt8} (hruns : Sketch.Runs image)
    (hfits : image.length ≤ 0x100) (s : Session) (patience : Nat) {cs : List Command}
    (hcs : ∀ c ∈ cs, c.IsDriving ∧ ¬ c.Boots) :
    ∃ t, s.load image = ⟨t, .ok ()⟩ ∧ t.machine.memory.Carries image ∧
      (t.performAll patience cs).1.IsSketched image t.machine.memory (t.cyclesAll patience cs) := by
  have hsize : image.length ≤ maxImageSize := by
    rw [Machine.maxImageSize_eq]
    omega
  obtain ⟨m, hm⟩ := exists_boot_of_fits hsize
  obtain ⟨journal, hload⟩ := s.load_of_boot hm
  refine ⟨_, hload, Machine.carries_boot hfits hm, ?_⟩
  have hfirst : IsSketched image m.memory
      { s with machine := m, cycles := 0, trace := #[], journal } [] :=
    ⟨⟨.start, rfl, .boot hfits hm, rfl⟩, rfl, List.forall_mem_nil _⟩
  exact hfirst.performAll hruns (Machine.carries_boot hfits hm) patience hcs

end Session

end Chip8
