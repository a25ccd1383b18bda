/-
# Chip8.Proofs.Session.Untraced — tracing is passive.

`Session.untraced` is the session that would be there if tracing had been off: the same session without
a trace, which will not keep one either.  Nothing that a call does looks at the trace or asks whether
there is one, except to record a cycle.  So the two sessions are twins and stay twins under every list of
calls (`untraced_performAll`).
-/
import Chip8.Proofs.Session.Twin

namespace Chip8

/-- The session without its trace, and with tracing off. -/
def Session.untraced (s : Session) : Session :=
  { s with setup := { s.setup with isTracing := false }, trace := #[] }

/-- The same answer, with the session afterwards untraced. -/
def Reply.untraced {α : Type} (r : Reply α) : Reply α :=
  ⟨r.session.untraced, r.result⟩

namespace Twin

/-- The twin without a trace. -/
def untraced : Twin where
  setup setup := { setup with isTracing := false }
  keypad := id
  timer := id
  traces _ trace := trace = #[]

/-- A session that keeps no trace records nothing. -/
theorem faithful_untraced : untraced.Faithful where
  hook _ := rfl
  pacing _ := rfl
  fresh := rfl
  record := by
    rintro s trace rfl before i error
    rfl

theorem isStill_untraced : untraced.IsStill := fun _ => rfl

theorem rel_untraced_iff {s t : Session} : untraced.Rel s t ↔ t = s.untraced := by
  constructor
  · rintro ⟨trace, rfl, rfl⟩
    rfl
  · rintro rfl
    exact ⟨#[], rfl, rfl⟩

/-- Instructions know nothing of tracing. -/
theorem agreesThrough_untraced (patience : Nat) (s : Session) (c : Command) :
    untraced.AgreesThrough patience s c where
  cycles _ _ _ _ _ := agreesOn_of_apply isStill_untraced rfl
  byHand _ _ := agreesOn_of_apply isStill_untraced rfl

end Twin

namespace Session

/-- A list of calls answers the same without the trace, and leaves the same but for the trace. -/
theorem untraced_performAll (s : Session) (patience : Nat) (cs : List Command) :
    s.untraced.performAll patience cs =
      ((s.performAll patience cs).1.untraced, (s.performAll patience cs).2) := by
  obtain ⟨hrel, hresults⟩ := Twin.faithful_untraced.answers_performAll Twin.isStill_untraced
    (Twin.rel_untraced_iff.mpr rfl) fun p _ => Twin.agreesThrough_untraced patience p.1 p.2
  exact Prod.ext (Twin.rel_untraced_iff.mp hrel) hresults

end Session

end Chip8
