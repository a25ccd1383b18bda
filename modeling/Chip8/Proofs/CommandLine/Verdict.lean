/-
# Chip8.Proofs.CommandLine.Verdict — bad programs are reported, and which of them are not.

A run from arguments with a positive clock rate always comes to an end.  Unless it crashes, a bad program
or a bad key list is reported by a line and the exit code 1, a fault while frames are run is printed in
front of the screen and ends with 1 too, and everything else ends with 0.  It crashes on a word that does
not fit into sixteen bits, on a path that cannot be looked at or holds a directory, and on an option that
is given nothing.
-/
import Chip8.Proofs.CommandLine.Play

namespace Chip8.CommandLine

/-- A crash is an end without an exit code, and the only one. -/
theorem RunEnds.crashes_iff {c : Choices} {file : HostFile} {entropy : ByteSource} {outcome : Outcome}
    (h : RunEnds c file entropy outcome) :
    Crashes c file ↔ ∀ code, outcome.ending ≠ .exit code := by
  cases h with
  | crashed hcrash hending => exact ⟨fun _ => hending, fun _ => hcrash⟩
  | refused t hno _ => exact ⟨fun hcrash => absurd hcrash hno, fun hending => absurd rfl (hending 1)⟩
  | @played held frames hno _ _ _ hprepares =>
    refine ⟨fun hcrash => absurd hcrash hno, fun hending => ?_⟩
    obtain ⟨hreachable, hhook⟩ := hprepares.reachable
    rcases playFrames_cases (c := c) hreachable hhook frames with
      ⟨-, -, hexit⟩ | ⟨f, -, -, hexit⟩ <;> exact absurd hexit (hending _)

/-- **What a run reports.**  Take arguments that are accepted, with a positive clock rate, and whatever
stands at the path of the program.  The run ends without an exit code exactly if it crashes.  If it does
not crash, it ends in one of three ways: with a line that begins with `Error: ` and the code 1 if the
program cannot be obtained, read or loaded or the keys are bad; with the message of a fault behind
`Execution error: `, the screen behind that, and the code 1 if a frame fails, which it does by a fault
only; and with the code 0 otherwise. -/
theorem run_reports_unless_crashed {arguments : List String} (files : String → HostFile)
    (entropy : ByteSource) {c : Choices} (hc : Choices.ofArguments arguments = .ok c) {rate : Int}
    (hrate : c.clockRate = .value rate) (hpos : 0 < rate) :
    let file := files c.rom
    let isBad := ProgramFails c file ∨ ∃ keys, c.keys = .value keys ∧ KeysFail keys
    ∃ outcome, runArguments arguments files entropy = .ok outcome ∧
      (Crashes c file ↔ ∀ code, outcome.ending ≠ .exit code) ∧
      (¬ Crashes c file → isBad →
        ∃ m, outcome.printed.getLast? = some ("Error: " ++ m) ∧ outcome.ending = .exit 1) ∧
      (¬ Crashes c file → ¬ isBad →
        ∃ held frames, Prepares c file entropy held ∧ c.frames = .value frames ∧
          let r := held.runFrames frames.toNat
          (∀ e, r.result = .error e → ∃ f, e = .fault f ∧
            outcome.printed = linesOf c r (some f) ∧ outcome.ending = .exit 1) ∧
          (r.result = .ok () → outcome.printed = linesOf c r none ∧ outcome.ending = .exit 0)) := by
  intro file isBad
  obtain ⟨outcome, hrun, hends⟩ := run_ends files entropy hc hrate hpos
  refine ⟨outcome, hrun, hends.crashes_iff, ?_, ?_⟩
  · intro hno hbad
    cases hends with
    | crashed hcrash _ => exact absurd hcrash hno
    | refused t _ _ => exact ⟨t.message, by simp [Trouble.line], rfl⟩
    | played _ hprogram hkeys _ _ =>
      rcases hbad with hbad | ⟨keys, hk, hbad⟩
      · exact absurd hbad hprogram
      · exact absurd hbad (hkeys keys hk)
  · intro hno hgood
    cases hends with
    | crashed hcrash _ => exact absurd hcrash hno
    | refused t _ hbad => exact absurd hbad hgood
    | @played held frames _ _ _ hframes hprepares =>
      refine ⟨held, frames, hprepares, hframes, ?_⟩
      obtain ⟨hreachable, hhook⟩ := hprepares.reachable
      rcases playFrames_cases (c := c) hreachable hhook frames with
        ⟨hresult, hprinted, hending⟩ | ⟨f, hresult, hprinted, hending⟩
      · refine ⟨fun e he => ?_, fun _ => ⟨hprinted, hending⟩⟩
        rw [hresult] at he
        cases he
      · refine ⟨fun e he => ?_, fun hok => ?_⟩
        · rw [hresult] at he
          cases he
          exact ⟨f, rfl, hprinted, hending⟩
        · rw [hresult] at hok
          cases hok

/-- A return without a call is printed, and the run ends with the code 1. -/
theorem run_reports_unless_crashed_underflow :
    ∃ c outcome, Choices.ofArguments ["--hex", "00EE", "--frames", "1"] = .ok c ∧
      c.clockRate = .value 750 ∧
      runArguments ["--hex", "00EE", "--frames", "1"] (fun _ => .absent) (.ofList []) = .ok outcome ∧
      ¬ Crashes c .absent ∧
      "Execution error: Return with empty call stack" ∈ outcome.printed ∧
      outcome.ending = .exit 1 := by
  have hc : Choices.ofArguments ["--hex", "00EE", "--frames", "1"] =
      .ok { Choices.standard with hex := "00EE", frames := .value 1 } :=
    eq_ok_of_toOption (by decide +kernel)
  obtain ⟨outcome, hrun, hcrash, -, -⟩ := run_reports_unless_crashed (fun _ => .absent)
    (.ofList []) hc rfl (show (0 : Int) < 750 by decide)
  have heval : (runArguments ["--hex", "00EE", "--frames", "1"] (fun _ => .absent)
      (.ofList [])).toOption.map (fun o => (o.printed.head?, o.printed[1]?, o.ending)) =
      some (some "Running inline program", some "Execution error: Return with empty call stack",
        .exit 1) := by decide +kernel
  simp only [hrun, Except.toOption, Option.map_some, Option.some.injEq, Prod.mk.injEq] at heval
  obtain ⟨-, hprinted, hending⟩ := heval
  exact ⟨_, outcome, hc, rfl, hrun, fun h => hcrash.mp h 1 hending,
    List.mem_of_getElem? hprinted, hending⟩

/-- A word that does not fit into sixteen bits is not reported: the arguments are accepted, nothing is
printed, and the error escapes. -/
theorem overflowing_word_escapes :
    ∃ c, Choices.ofArguments ["--hex", "10000"] = .ok c ∧ c.clockRate = .value 750 ∧
      c.hex = "10000" ∧ ∃ journal,
        runArguments ["--hex", "10000"] (fun _ => .absent) (.ofList []) =
          .ok ⟨[], journal, .escape (.word .tooBig)⟩ := by
  have hc : Choices.ofArguments ["--hex", "10000"] =
      .ok { Choices.standard with hex := "10000" } := eq_ok_of_toOption (by decide +kernel)
  refine ⟨_, hc, rfl, rfl, ⟨some .warning, #[]⟩, ?_⟩
  exact eq_ok_of_toOption (by decide +kernel)

end Chip8.CommandLine
