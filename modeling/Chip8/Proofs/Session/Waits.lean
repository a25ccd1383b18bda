/-
# Chip8.Proofs.Session.Waits — the waits for keys one after another.

The keypads that rounds of waits see come apart into those of the waits that have ended and those of a
wait that has not (`Wait.LastEnds`).  What is left of all these rounds is little: the candidate of the wait
that is going on, and the key with which the last wait has ended.  `Wait.Status` keeps these two round by
round, and it knows the last key exactly (`lastEnds_iff`).
-/
import Chip8.Proofs.Session.Calls
import Chip8.Proofs.Session.KeyWait
import Mathlib.Data.List.Induction

namespace Chip8

namespace Wait

/-! ## Waits that have ended -/

/-- The keypads are those of waits that have all ended, the last one with the given key. -/
inductive AllEnded : List Keypad → Option Key → Prop where
  | nil : AllEnded [] none
  | wait {before seen : List Keypad} {last : Option Key} {q : Keypad}
      (h : AllEnded before last) (hseen : isOver seen = false)
      (hover : isOver (seen ++ [q]) = true) :
      AllEnded (before ++ (seen ++ [q])) (candidate seen)

/-- Of the waits whose rounds saw the keypads, the last one that has ended did so with the given key; if
there is none, no wait has ended.  One more wait may be going on. -/
def LastEnds (rounds : List Keypad) (last : Option Key) : Prop :=
  ∃ before after, rounds = before ++ after ∧ AllEnded before last ∧ isOver after = false

/-- All rounds belong to waits that have ended, or to one that is going on. -/
theorem exists_lastEnds (rounds : List Keypad) : ∃ last, LastEnds rounds last := by
  induction rounds using List.reverseRecOn with
  | nil => exact ⟨none, [], [], rfl, .nil, rfl⟩
  | append_singleton rounds p ih =>
    obtain ⟨last, before, seen, rfl, hbefore, hseen⟩ := ih
    by_cases hover : isOver (seen ++ [p]) = true
    · exact ⟨_, before ++ (seen ++ [p]), [], by simp, hbefore.wait hseen hover, rfl⟩
    · exact ⟨last, before, seen ++ [p], List.append_assoc .., hbefore, Bool.eq_false_iff.mpr hover⟩

/-! ## Round by round -/

/-- What is left of the rounds so far. -/
structure Status where
  /-- The candidate of the wait that is going on. -/
  candidate : Option Key
  /-- The key of the last wait that has ended. -/
  last : Option Key
  deriving DecidableEq

namespace Status

/-- No round has been. -/
def start : Status :=
  ⟨none, none⟩

/-- A round sees a keypad.  Without a candidate it takes the lowest key that is down for one, and if it
finds the candidate up the wait has ended. -/
def see (w : Status) (p : Keypad) : Status :=
  match w.candidate with
  | none => { w with candidate := p.lowest? }
  | some k => if p.isDown k then w else ⟨none, some k⟩

/-- What is left of rounds. -/
def after (rounds : List Keypad) : Status :=
  rounds.foldl see start

theorem after_append_singleton (rounds : List Keypad) (p : Keypad) :
    after (rounds ++ [p]) = (after rounds).see p := by
  rw [after, List.foldl_append]
  rfl

/-- Rounds that do not end a wait leave its candidate. -/
theorem foldl_see {w : Status} (hw : w.candidate = none) {seen : List Keypad}
    (h : isOver seen = false) : seen.foldl see w = ⟨Wait.candidate seen, w.last⟩ := by
  induction seen using List.reverseRecOn with
  | nil =>
    obtain ⟨c, last⟩ := w
    obtain rfl : c = none := hw
    rfl
  | append_singleton seen q ih =>
    have hseen := isOver_eq_false_of_append h
    rw [List.foldl_append, ih hseen, List.foldl_cons, List.foldl_nil, candidate_append,
      candidate_singleton]
    cases hk : Wait.candidate seen with
    | none => rfl
    | some k =>
      have hdown : q.isDown k = true := by
        rw [← Bool.not_eq_false]
        intro hup
        rw [(isOver_append_singleton hseen q).mpr ⟨k, hk, hup⟩] at h
        cases h
      simp only [see, hdown, if_true, Option.some_or]

/-- Waits that have all ended leave their last key. -/
theorem after_of_allEnded {rounds : List Keypad} {last : Option Key} (h : AllEnded rounds last) :
    after rounds = ⟨none, last⟩ := by
  induction h with
  | nil => rfl
  | @wait before seen last q _ hseen hover ih =>
    obtain ⟨k, hk, hup⟩ := (isOver_append_singleton hseen q).mp hover
    have hbefore : before.foldl see start = ⟨none, last⟩ := ih
    rw [after, List.foldl_append, List.foldl_append, hbefore, foldl_see rfl hseen, hk]
    show see ⟨some k, last⟩ q = _
    simp only [see, hup, Bool.false_eq_true, if_false]

end Status

theorem LastEnds.last_eq {rounds : List Keypad} {last : Option Key} (h : LastEnds rounds last) :
    (Status.after rounds).last = last := by
  obtain ⟨before, after, rfl, hbefore, hafter⟩ := h
  have hended : before.foldl Status.see Status.start = ⟨none, last⟩ :=
    Status.after_of_allEnded hbefore
  rw [Status.after, List.foldl_append, hended, Status.foldl_see rfl hafter]

/-- The key of the last wait that has ended is the one that is kept round by round. -/
theorem lastEnds_iff {rounds : List Keypad} {last : Option Key} :
    LastEnds rounds last ↔ (Status.after rounds).last = last := by
  refine ⟨LastEnds.last_eq, ?_⟩
  rintro rfl
  obtain ⟨last, h⟩ := exists_lastEnds rounds
  rwa [h.last_eq]

end Wait

namespace Session

/-- The keypads that rounds of waits have seen, among the cycles that began in some sessions. -/
def roundsOf (us : List Session) : List Keypad :=
  (us.filter fun u => u.machine.current.op = .awaitKey).map fun u => u.machine.keypad

theorem roundsOf_append_singleton (us : List Session) (u : Session) :
    roundsOf (us ++ [u]) =
      roundsOf us ++ if u.machine.current.op = .awaitKey then [u.machine.keypad] else [] := by
  rw [roundsOf, List.filter_append, List.map_append, List.filter_singleton]
  by_cases h : u.machine.current.op = .awaitKey <;> simp [roundsOf, h]

end Session

end Chip8
