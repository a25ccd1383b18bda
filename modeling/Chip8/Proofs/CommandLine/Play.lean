/-
# Chip8.Proofs.CommandLine.Play — how a run from the command line ends.

A run passes four gates: the settings, the program, the keys, and the number of frames.  At each of them
it goes on, or is refused with a line that tells of the trouble, or ends by an error that nobody reports.
Which of these happens can be read off the choices and the file (`ProgramFails`, `KeysFail`, `Crashes`).
Behind the last gate there is a session, its frames are run, and the run ends with an exit code.
-/
import Chip8.CommandLine.Play
import Chip8.Proofs.Program.Words
import Chip8.Proofs.Session.Frames

namespace Chip8.CommandLine

variable {c : Choices} {file : HostFile}

/-! ## Bad programs and keys -/

/-- The program cannot be obtained, read or loaded: one of its words is no numeral between 0 and
`0xFFFF`, or nothing that can be read stands at its path, or it is too large. -/
def ProgramFails (c : Choices) (file : HostFile) : Prop :=
  if c.rom = "" then
    (∃ word ∈ Program.words c.hex, Program.isProgramWord word = false) ∨
      3584 < 2 * (Program.words c.hex).length
  else ∀ bytes, file = .regular bytes → 3584 < bytes.length

/-- One of the words is no key. -/
def KeysFail (keys : String) : Prop :=
  ∃ word ∈ Program.words keys, Program.isKeyWord word = false

/-- The failing program is not reported: the first of its words that fails is a numeral, so that its
value is out of range; or the path holds a directory, or is too long to be looked at. -/
inductive ProgramEscapes (c : Choices) (file : HostFile) : Prop where
  | word {word : List Char} (hrom : c.rom = "")
      (hfirst : (Program.words c.hex).find? (fun w => !Program.isProgramWord w) = some word)
      (hnumeral : Program.isNumeral word = true)
  | file (hrom : c.rom ≠ "") (hfile : file = .directory ∨ file = .tooLong)

/-- The run ends by an error that nobody reports.  Files that are there but cannot be read, for want of
permission or by a failing disk, are left out of `HostFile`, and so out of this list. -/
inductive Crashes (c : Choices) (file : HostFile) : Prop where
  /-- An option of the settings was given nothing. -/
  | setting (h : c.level = .nothing ∨ c.variant = .nothing ∨ c.seed = some .nothing)
  /-- The program fails in a way that is not reported. -/
  | program (h : ProgramEscapes c file)
  /-- The keys were given nothing. -/
  | keys (hprogram : ¬ ProgramFails c file) (h : c.keys = .nothing)
  /-- The number of frames was given nothing. -/
  | frames (hprogram : ¬ ProgramFails c file) {keys : String} (hkeys : c.keys = .value keys)
      (hvalid : ¬ KeysFail keys) (h : c.frames = .nothing)

/-- The crashes, gate by gate. -/
theorem crashes_iff_gates : Crashes c file ↔
    (c.level = .nothing ∨ c.variant = .nothing ∨ c.seed = some .nothing) ∨ ProgramEscapes c file ∨
      (¬ ProgramFails c file ∧ (c.keys = .nothing ∨
        ∃ keys, c.keys = .value keys ∧ ¬ KeysFail keys ∧ c.frames = .nothing)) := by
  constructor
  · intro h
    cases h with
    | setting h => exact Or.inl h
    | program h => exact Or.inr (Or.inl h)
    | keys hprogram h => exact Or.inr (Or.inr ⟨hprogram, Or.inl h⟩)
    | frames hprogram hkeys hvalid h => exact Or.inr (Or.inr ⟨hprogram, Or.inr ⟨_, hkeys, hvalid, h⟩⟩)
  · rintro (h | h | ⟨hprogram, h | ⟨keys, hkeys, hvalid, h⟩⟩)
    · exact .setting h
    · exact .program h
    · exact .keys hprogram h
    · exact .frames hprogram hkeys hvalid h

theorem ProgramEscapes.fails (h : ProgramEscapes c file) : ProgramFails c file := by
  unfold ProgramFails
  cases h with
  | word hrom hfirst _ =>
    rw [if_pos hrom]
    exact Or.inl ⟨_, List.mem_of_find?_eq_some hfirst, by simpa using List.find?_some hfirst⟩
  | file hrom hfile =>
    rw [if_neg hrom]
    rintro bytes rfl
    simp at hfile

/-! ## The gates -/

/-- Settings are made unless an option was given nothing. -/
theorem settings_cases {rate : Int} (hrate : c.clockRate = .value rate) (hpos : 0 < rate) :
    ((c.level = .nothing ∨ c.variant = .nothing ∨ c.seed = some .nothing) ∧
      ∃ gap, c.settings = .error (.gap gap)) ∨
    (¬ (c.level = .nothing ∨ c.variant = .nothing ∨ c.seed = some .nothing) ∧
      ∃ settings, c.settings = .ok settings) := by
  have hpacing : Pacing.ofRates rate Pacing.standardTimerRate Pacing.standardMaxCycles =
      .ok ⟨rate, Pacing.standardTimerRate, Pacing.standardMaxCycles, hpos, by decide⟩ := by
    rw [Pacing.ofRates, dif_pos hpos, dif_pos (by decide)]
  unfold Choices.settings Choices.needSeed
  rw [hrate]
  cases c.level with
  | nothing => exact Or.inl ⟨Or.inl rfl, _, rfl⟩
  | value level =>
    simp only [Given.need, mapError_ok, hpacing, bind, Except.bind]
    cases c.variant with
    | nothing => exact Or.inl ⟨Or.inr (Or.inl rfl), _, rfl⟩
    | value variant =>
      cases c.seed with
      | none => exact Or.inr ⟨by simp, _, rfl⟩
      | some given =>
        cases given with
        | nothing => exact Or.inl ⟨Or.inr (Or.inr rfl), _, rfl⟩
        | value seed => exact Or.inr ⟨by simp, _, rfl⟩

theorem load_eq_of_fits {s : Session} {image : List UInt8} (h : image.length ≤ 3584) :
    Session.orTrouble (s.load image) = .ok (s.load image).session := by
  obtain ⟨m, hm⟩ := Session.exists_boot_of_fits h
  obtain ⟨journal, hload⟩ := s.load_of_boot hm
  rw [hload]
  rfl

theorem load_eq_of_large {s : Session} {image : List UInt8} (h : 3584 < image.length) :
    Session.orTrouble (s.load image) = .error (.session (.imageTooLarge image.length)) := by
  rw [s.load_of_large h]
  rfl

/-- A program is loaded by one of the two loads, or there is a trouble, which escapes or is reported. -/
theorem loadProgram_cases (c : Choices) (file : HostFile) (s : Session) :
    (¬ ProgramFails c file ∧ ∃ command : Command, command.IsHostCall ∧
      loadProgram c file s = .ok (s.perform 0 command).session) ∨
    (ProgramFails c file ∧ ∃ t, loadProgram c file s = .error t ∧
      (t.isReported = false ↔ ProgramEscapes c file)) := by
  unfold loadProgram ProgramFails
  by_cases hrom : c.rom = ""
  · rw [if_pos hrom, if_pos hrom]
    have hescapes : ProgramEscapes c file ↔ ∃ word,
        (Program.words c.hex).find? (fun w => !Program.isProgramWord w) = some word ∧
          Program.isNumeral word = true := by
      constructor
      · intro h
        cases h with
        | word _ hfirst hnumeral => exact ⟨_, hfirst, hnumeral⟩
        | file hne _ => exact absurd hrom hne
      · rintro ⟨word, hfirst, hnumeral⟩
        exact .word hrom hfirst hnumeral
    unfold Session.loadText
    cases hread : Program.readImage c.hex with
    | error e =>
      obtain ⟨word, hfirst, hover⟩ := Program.readImage_eq_error hread
      have hbad : Program.isProgramWord word = false := by simpa using List.find?_some hfirst
      refine Or.inr ⟨Or.inl ⟨word, List.mem_of_find?_eq_some hfirst, hbad⟩, .word e, rfl, ?_⟩
      rw [hescapes, hfirst]
      simp [Trouble.isReported, hover]
    | ok image =>
      obtain ⟨hnone, hlen⟩ := Program.readImage_eq_ok hread
      have hgood : ¬ ∃ word ∈ Program.words c.hex, Program.isProgramWord word = false := by
        simpa using hnone
      rw [← hlen]
      by_cases hfits : image.length ≤ 3584
      · refine Or.inl ⟨by simp [hgood, hfits], .load image, trivial, ?_⟩
        exact load_eq_of_fits hfits
      · refine Or.inr ⟨Or.inr (by omega), _, load_eq_of_large (by omega), ?_⟩
        rw [hescapes, hnone]
        simp [Trouble.isReported]
  · rw [if_neg hrom, if_neg hrom]
    have hescapes : ProgramEscapes c file ↔ file = .directory ∨ file = .tooLong := by
      constructor
      · intro h
        cases h with
        | word hempty _ _ => exact absurd hempty hrom
        | file _ hfile => exact hfile
      · exact .file hrom
    rw [hescapes]
    cases file with
    | absent | blocked | unnameable =>
      exact Or.inr ⟨by simp, .missingFile c.rom, rfl, by simp [Trouble.isReported]⟩
    | tooLong =>
      exact Or.inr ⟨by simp, .session (.file (.tooLong _)), rfl, by simp [Trouble.isReported]⟩
    | directory =>
      exact Or.inr ⟨by simp, .session (.file (.directory _)), rfl, by simp [Trouble.isReported]⟩
    | regular bytes =>
      by_cases hfits : bytes.length ≤ 3584
      · refine Or.inl ⟨?_, .loadFile c.rom (.regular bytes), trivial, load_eq_of_fits hfits⟩
        intro h
        have := h bytes rfl
        omega
      · have hlarge : 3584 < bytes.length := by omega
        refine Or.inr ⟨?_, _, load_eq_of_large hlarge, by simp [Trouble.isReported]⟩
        rintro bytes' h
        cases h
        exact hlarge

/-- A trouble that is reported is the last line of a run that ends with the code 1. -/
theorem failed_of_reported {t : Trouble} (h : t.isReported = true) (printed : List String)
    (s : Session) : failed printed s t = ⟨printed ++ [t.line], s.journal, .exit 1⟩ :=
  if_pos h

/-! ## The session whose frames are run -/

/-- The session that has passed the gates: opened with the settings, with the program loaded and the keys
put down. -/
def Prepares (c : Choices) (file : HostFile) (entropy : ByteSource) (held : Session) : Prop :=
  ∃ settings loaded keys, c.settings = .ok settings ∧
    loadProgram c file (openSession settings c.wantsTrace entropy) = .ok loaded ∧
    c.keys = .value keys ∧ loaded.holdKeys keys = .ok held

/-- It is a session that a host can bring about, and it has no hook. -/
theorem Prepares.reachable {entropy : ByteSource} {held : Session}
    (h : Prepares c file entropy held) :
    held.ReachableBy Command.IsHostCall ∧ held.setup.hook = none := by
  obtain ⟨settings, loaded, keys, -, hload, -, hkeys⟩ := h
  have hopened : (openSession settings c.wantsTrace entropy).ReachableBy Command.IsHostCall :=
    .start _ _ _
  rcases loadProgram_cases c file (openSession settings c.wantsTrace entropy) with
    ⟨-, command, hhost, hok⟩ | ⟨-, t, herror, -⟩
  · obtain rfl : _ = loaded := Except.ok.inj (hok.symm.trans hload)
    rcases Session.holdKeys_cases _ keys with ⟨-, ks, -, hheld⟩ | ⟨-, t, -, herror⟩
    · obtain rfl : _ = held := Except.ok.inj (hheld.symm.trans hkeys)
      refine ⟨(hopened.perform 0 hhost).perform 0 (c := .setKeys ks) trivial, ?_⟩
      show (Session.perform 0 _ (.setKeys ks)).session.setup.hook = none
      rw [Session.setup_perform, Session.setup_perform]
      rfl
    · rw [herror] at hkeys
      cases hkeys
  · rw [herror] at hload
    cases hload

/-- The lines of a run whose frames came to `r`, with the fault that ended them if one did. -/
def linesOf (c : Choices) (r : Reply Unit) (fault : Option Fault) : List String :=
  (if c.isQuiet then [] else [announcement c]) ++
    (fault.map fun f => "Execution error: " ++ f.message).toList ++
    (if c.wantsTrace then r.session.traceLines else []) ++ [r.session.screenText] ++
    (if c.isQuiet then [] else figures r.session.summary)

/-- Frames that are run end with an exit code: 0 if they all went well, and 1 behind a fault, whose line
the screen still follows. -/
theorem playFrames_cases {held : Session} (h : held.ReachableBy Command.IsHostCall)
    (hhook : held.setup.hook = none) (frames : Int) :
    let r := held.runFrames frames.toNat
    let outcome := playFrames c frames (if c.isQuiet then [] else [announcement c]) held
    (r.result = .ok () ∧ outcome.printed = linesOf c r none ∧ outcome.ending = .exit 0) ∨
      ∃ f, r.result = .error (.fault f) ∧ outcome.printed = linesOf c r (some f) ∧
        outcome.ending = .exit 1 := by
  intro r outcome
  cases hr : r.result with
  | ok =>
    have houtcome : outcome = shown c (if c.isQuiet then [] else [announcement c]) r.session 0 := by
      simp only [outcome, playFrames, show (held.runFrames frames.toNat).result = _ from hr]
      rfl
    refine Or.inl ⟨rfl, ?_, ?_⟩
    · rw [houtcome, linesOf, Option.map_none, Option.toList_none, List.append_nil]
      rfl
    · rw [houtcome]
      rfl
  | error e =>
    -- nothing but a fault ends a frame, so the error is one that is shown
    obtain ⟨f, rfl, -⟩ := Session.tellsFault_of_runFrames h hhook hr
    have houtcome : outcome = shown c
        ((if c.isQuiet then [] else [announcement c]) ++ ["Execution error: " ++ f.message])
        r.session 1 := by
      simp only [outcome, playFrames, show (held.runFrames frames.toNat).result = _ from hr]
      rfl
    refine Or.inr ⟨f, rfl, ?_, ?_⟩
    · rw [houtcome]
      rfl
    · rw [houtcome]
      rfl

/-! ## The ends of a run -/

/-- How a run ends. -/
inductive RunEnds (c : Choices) (file : HostFile) (entropy : ByteSource) : Outcome → Prop where
  /-- By an error that nobody reports. -/
  | crashed {outcome : Outcome} (h : Crashes c file) (hending : ∀ code, outcome.ending ≠ .exit code) :
      RunEnds c file entropy outcome
  /-- By a line that tells of the trouble with the program or the keys. -/
  | refused {printed : List String} {journal : Journal} (t : Trouble) (hno : ¬ Crashes c file)
      (h : ProgramFails c file ∨ ∃ keys, c.keys = .value keys ∧ KeysFail keys) :
      RunEnds c file entropy ⟨printed ++ [t.line], journal, .exit 1⟩
  /-- With its frames run. -/
  | played {held : Session} {frames : Int} (hno : ¬ Crashes c file)
      (hprogram : ¬ ProgramFails c file) (hkeys : ∀ keys, c.keys = .value keys → ¬ KeysFail keys)
      (hframes : c.frames = .value frames) (h : Prepares c file entropy held) :
      RunEnds c file entropy
        (playFrames c frames (if c.isQuiet then [] else [announcement c]) held)

/-- A run from choices with a positive clock rate ends in one of these ways. -/
theorem run_ends {arguments : List String} (files : String → HostFile) (entropy : ByteSource)
    (hc : Choices.ofArguments arguments = .ok c) {rate : Int} (hrate : c.clockRate = .value rate)
    (hpos : 0 < rate) :
    ∃ outcome, runArguments arguments files entropy = .ok outcome ∧
      RunEnds c (files c.rom) entropy outcome := by
  unfold runArguments
  rw [hc]
  rcases settings_cases hrate hpos with ⟨hgap, gap, hsettings⟩ | ⟨hnogap, settings, hsettings⟩
  · simp only [hsettings]
    exact ⟨_, rfl, .crashed (.setting hgap) nofun⟩
  · simp only [hsettings]
    refine ⟨_, rfl, ?_⟩
    unfold play
    rcases loadProgram_cases c (files c.rom) (openSession settings c.wantsTrace entropy) with
      ⟨hgood, command, -, hload⟩ | ⟨hbad, t, hload, hreported⟩
    · have hnoescape : ¬ ProgramEscapes c (files c.rom) := fun h => hgood h.fails
      simp only [hload, playLoaded]
      cases hkeys : c.keys with
      | nothing => exact .crashed (.keys hgood hkeys) nofun
      | value keys =>
        simp only [Given.need]
        rcases Session.holdKeys_cases
          ((openSession settings c.wantsTrace entropy).perform 0 command).session keys with
          ⟨hvalid, ks, -, hheld⟩ | ⟨hinvalid, t, hreported, hheld⟩
        · have hvalidkeys : ¬ KeysFail keys := by
            rintro ⟨word, hw, hbad⟩
            rw [hvalid word hw] at hbad
            cases hbad
          have hall : ∀ ks, c.keys = .value ks → ¬ KeysFail ks := by
            intro ks hks
            obtain rfl : keys = ks := Given.value.inj (hkeys.symm.trans hks)
            exact hvalidkeys
          simp only [hheld]
          cases hframes : c.frames with
          | nothing => exact .crashed (.frames hgood hkeys hvalidkeys hframes) nofun
          | value frames =>
            have hno : ¬ Crashes c (files c.rom) := by
              simp [crashes_iff_gates, hnogap, hnoescape, hkeys, hframes]
            exact .played hno hgood hall hframes
              ⟨settings, _, keys, hsettings, hload, hkeys, hheld⟩
        · simp only [hheld, failed_of_reported hreported]
          have hno : ¬ Crashes c (files c.rom) := by
            simp [crashes_iff_gates, hnogap, hnoescape, hkeys, show KeysFail keys from hinvalid]
          exact .refused t hno (Or.inr ⟨keys, hkeys, hinvalid⟩)
    · simp only [hload]
      by_cases ht : t.isReported = true
      · rw [failed_of_reported ht]
        have hno : ¬ Crashes c (files c.rom) := by
          simp [crashes_iff_gates, hnogap, hbad, ← hreported, ht]
        exact .refused t hno (Or.inl hbad)
      · rw [failed, if_neg ht]
        exact .crashed (.program (hreported.mp (by simpa using ht))) nofun

/-- What a computed result is. -/
theorem eq_ok_of_toOption {ε α : Type} {x : Except ε α} {a : α} (h : x.toOption = some a) :
    x = .ok a := by
  cases x with
  | error e => cases h
  | ok b => exact congrArg Except.ok (Option.some.inj h)

end Chip8.CommandLine
