/-
# Chip8.Proofs.Showcase — the command line and a showcase show the same run.

A request for an image, a preset, frames, keys and a seed can be put on the command line, which traces
nothing and keeps a journal, or to a showcase, which traces everything and keeps none.  The two sessions
are alike, so both pass or fail at the image and the keys with the same trouble, run the same frames, and
show the same screen and figures with the same fault.
-/
import Chip8.Proofs.CommandLine.Arguments
import Chip8.Proofs.CommandLine.Play
import Chip8.Showcase

namespace Chip8

open CommandLine (KeysFail)

/-! ## Sessions made ready -/

namespace Session

/-- The same trouble, or sessions that are alike. -/
inductive AlikeResults : Except Trouble Session → Except Trouble Session → Prop where
  | error (t : Trouble) : AlikeResults (.error t) (.error t)
  | ok {u v : Session} (h : u.Alike v) : AlikeResults (.ok u) (.ok v)

/-- The session with an image loaded and keys put down. -/
def readied (s : Session) (image : List UInt8) (keys : String) : Except Trouble Session :=
  match orTrouble (s.load image) with
  | .error t => .error t
  | .ok loaded => loaded.holdKeys keys

theorem alikeResults_orTrouble {r q : Reply Unit} (hresult : r.result = q.result)
    (hsession : r.session.Alike q.session) : AlikeResults (orTrouble r) (orTrouble q) := by
  unfold orTrouble
  rw [hresult]
  cases q.result with
  | error e => exact .error _
  | ok => exact .ok hsession

theorem Alike.holdKeys {s t : Session} (h : s.Alike t) (text : String) :
    AlikeResults (s.holdKeys text) (t.holdKeys text) := by
  unfold Session.holdKeys
  cases Program.readKeys text with
  | error e => exact .error _
  | ok keys => exact alikeResults_orTrouble (h.setKeys keys).1 (h.setKeys keys).2

/-- Sessions that are alike are made ready alike. -/
theorem Alike.readied {s t : Session} (h : s.Alike t) (image : List UInt8) (keys : String) :
    AlikeResults (s.readied image keys) (t.readied image keys) := by
  have hload := alikeResults_orTrouble (h.load image).1 (h.load image).2
  unfold Session.readied
  generalize orTrouble (s.load image) = x at hload ⊢
  generalize orTrouble (t.load image) = y at hload ⊢
  cases hload with
  | error e => exact .error e
  | ok hloaded => exact hloaded.holdKeys keys

/-- A session is made ready by a load and by keys, unless the image is too large or the keys are bad. -/
theorem readied_cases (s : Session) (image : List UInt8) (keys : String) :
    ((3584 < image.length ∨ KeysFail keys) ∧
      ∃ t : Trouble, t.isReported = true ∧ s.readied image keys = .error t) ∨
    (¬ (3584 < image.length ∨ KeysFail keys) ∧ ∃ ks,
      s.readied image keys = .ok (s.performAll 0 [.load image, .setKeys ks]).1) := by
  unfold readied
  by_cases hlarge : 3584 < image.length
  · exact Or.inl ⟨Or.inl hlarge, _, rfl, by rw [CommandLine.load_eq_of_large hlarge]⟩
  · rw [CommandLine.load_eq_of_fits (by omega)]
    rcases (s.load image).session.holdKeys_cases keys with
      ⟨hvalid, ks, -, hheld⟩ | ⟨hinvalid, t, hreported, hheld⟩
    · refine Or.inr ⟨?_, ks, hheld⟩
      rintro (h | ⟨word, hw, hbad⟩)
      · exact hlarge h
      · rw [hvalid word hw] at hbad
        cases hbad
    · exact Or.inl ⟨Or.inr hinvalid, t, hreported, hheld⟩

/-- The frames of a session that was made ready without a hook end by nothing but a fault. -/
theorem tellsFault_of_readied {s held : Session} (h : s.ReachableBy Command.IsHostCall)
    (hhook : s.setup.hook = none) {image : List UInt8} {keys : String}
    (hheld : s.readied image keys = .ok held) {n : Nat} {e : SessionError}
    (he : (held.runFrames n).result = .error e) : e.TellsFault := by
  rcases s.readied_cases image keys with ⟨-, t, -, herror⟩ | ⟨-, ks, hready⟩
  · rw [herror] at hheld
    cases hheld
  · obtain rfl : _ = held := Except.ok.inj (hready.symm.trans hheld)
    refine tellsFault_of_runFrames (h.performAll 0 ?_) ?_ he
    · simp only [List.forall_mem_cons]
      exact ⟨trivial, trivial, nofun⟩
    · rw [setup_performAll, hhook]

end Session

/-! ## The first characters of lines -/

namespace Text

/-- The first two characters of a line. -/
def head2 (line : String) : List Char :=
  line.toList.take 2

theorem head2_append {front : String} (h : 2 ≤ front.toList.length) (back : String) :
    head2 (front ++ back) = head2 front := by
  rw [head2, String.toList_append, List.take_append_of_le_length h]
  rfl

/-- Joined lines begin with the first line. -/
theorem exists_joinLines (line : String) (ls : List String) :
    ∃ back, joinLines (line :: ls) = line ++ back := by
  cases ls with
  | nil => exact ⟨"", by simp [joinLines]⟩
  | cons next ls => exact ⟨_, by rw [joinLines, String.intercalate_cons_cons, String.append_assoc]⟩

end Text

/-! ## What is shown -/

section Shown

open Text (head2 head2_append)

/-- The line of a fault is the only line of a summary that begins as it does; a fault without a text has
no line. -/
theorem Showcase.mem_summaryLines_iff {s : Summary} {fault : Option String} {m : String} :
    "Runtime: " ++ m ∈ summaryLines s fault ↔ fault = some m ∧ m ≠ "" := by
  have hkey : head2 ("Runtime: " ++ m) = ['R', 'u'] := by
    rw [head2_append (by decide)]
    decide
  have hother {ls : List String} (h : ∀ line ∈ ls, head2 line ≠ ['R', 'u']) :
      "Runtime: " ++ m ∉ ls := fun hm => h _ hm hkey
  have hfront : "Runtime: " ++ m ∉ ["EXECUTION SUMMARY", Text.rule '=' 40,
      "Cycles: " ++ toString s.cycles, "State: " ++ s.runState.name,
      "PC: " ++ Text.hex 3 s.pc ++ "   I: " ++ Text.hex 3 s.index,
      "Stack depth: " ++ toString s.stackDepth, "Delay timer: " ++ toString s.delayTimer] := by
    apply hother
    simp only [List.forall_mem_cons, String.append_assoc]
    refine ⟨by decide, by decide, ?_, ?_, ?_, ?_, ?_, nofun⟩ <;> rw [head2_append (by decide)] <;>
      decide
  have hback : "Runtime: " ++ m ∉ ["", "REGISTERS", Text.rule '-' 40] := hother (by decide)
  have hregisters : "Runtime: " ++ m ∉ s.registers.map fun p => registerLine p.1 p.2 := by
    apply hother
    intro line hline
    obtain ⟨p, -, rfl⟩ := List.mem_map.mp hline
    rw [registerLine]
    simp only [String.append_assoc]
    rw [head2_append (by decide)]
    decide
  have hempty : "Runtime: " ++ m ≠ "" := by
    intro h
    rw [h] at hkey
    cases hkey
  simp only [summaryLines, List.mem_append, hfront, hback, hregisters, false_or, or_false]
  cases fault with
  | none => simp
  | some text =>
    by_cases htext : text = ""
    · subst htext
      have hnone : (some "").filter (fun text : String => !text.isEmpty) = none := by decide
      simp [hnone, eq_comm]
    · have hsome : (some text).filter (fun text : String => !text.isEmpty) = some text := by
        simp [htext]
      rw [hsome]
      constructor
      · intro h
        obtain rfl : m = text := by simpa [hempty] using h
        exact ⟨rfl, htext⟩
      · rintro ⟨h, -⟩
        simp [Option.some.inj h]

/-- The framed screen begins with its edge. -/
theorem Session.head2_screenText (s : Session) : head2 s.screenText = ['+', '-'] := by
  obtain ⟨back, hback⟩ := Text.exists_joinLines Screen.edge
    ((s.machine.screen.lines Screen.standardOn Screen.standardOff).map (fun l => "|" ++ l ++ "|") ++
      [Screen.edge])
  have hscreen : s.screenText = Screen.edge ++ back := hback
  rw [hscreen, head2_append (by decide)]
  decide

/-- The text of the error that ended frames, if one did. -/
def errorText (r : Reply Unit) : Option String :=
  match r.result with
  | .ok () => none
  | .error e => some e.message

/-- The lines of a run that was shown. -/
def CommandLine.shownLines (path screen : String) (shown : Summary) (fault : Option String) :
    List String :=
  ["Loading ROM: " ++ path] ++ (fault.map fun m => "Execution error: " ++ m).toList ++ [screen] ++
    figures shown

/-- The line of a fault is the only line of a run that begins as it does. -/
theorem CommandLine.mem_shownLines_iff {path m : String} {s : Session} {shown : Summary}
    {fault : Option String} :
    "Execution error: " ++ m ∈ shownLines path s.screenText shown fault ↔ fault = some m := by
  have hkey : head2 ("Execution error: " ++ m) = ['E', 'x'] := by
    rw [head2_append (by decide)]
    decide
  have hother {ls : List String} (h : ∀ line ∈ ls, head2 line ≠ ['E', 'x']) :
      "Execution error: " ++ m ∉ ls := fun hm => h _ hm hkey
  have hfront : "Execution error: " ++ m ∉ ["Loading ROM: " ++ path] := by
    apply hother
    simp only [List.forall_mem_singleton]
    rw [head2_append (by decide)]
    decide
  have hscreen : "Execution error: " ++ m ∉ [s.screenText] := by
    apply hother
    simp [s.head2_screenText]
  have hfigures : "Execution error: " ++ m ∉ figures shown := by
    apply hother
    simp only [figures, List.forall_mem_cons, String.append_assoc]
    refine ⟨?_, ?_, ?_, ?_, nofun⟩ <;> rw [head2_append (by decide)] <;> decide
  simp only [shownLines, List.mem_append, hfront, hscreen, hfigures, false_or, or_false]
  cases fault with
  | none => simp
  | some text => simp [eq_comm]

/-- Two sessions that are alike show the same figures. -/
theorem Session.Alike.figures {s t : Session} (h : s.Alike t) :
    CommandLine.figures s.summary = CommandLine.figures t.summary := by
  simp only [CommandLine.figures, summary, h.machine, h.cycles]

theorem Session.Alike.screenText {s t : Session} (h : s.Alike t) : s.screenText = t.screenText := by
  rw [Session.screenText, Session.screenText, h.machine]

end Shown

/-! ## On the command line -/

namespace CommandLine

/-- The arguments of a request for an image: its path, a preset, frames, keys and a seed. -/
def imageArguments (path preset keys : String) (frames seed : Int) : List String :=
  [assignment .rom path, assignment .variant preset, assignment .frames (toString frames),
    assignment .keys keys, assignment .seed (toString seed)]

/-- What they choose. -/
def imageChoices (path keys : String) (v : Variant) (frames seed : Int) : Choices :=
  { Choices.standard with
    rom := path
    variant := .value v
    frames := .value frames
    seed := some (.value seed)
    keys := .value keys }

section Image

variable {path preset keys : String} {v : Variant} {frames seed : Int}

theorem ofArguments_imageArguments (hpath : path ≠ "") (hdashes : path ≠ "--")
    (hpreset : Variant.preset? preset = some v) (hframes : Text.hasDecimal frames = true)
    (hkeys : keys ≠ "--") (hseed : Text.hasDecimal seed = true) :
    Choices.ofArguments (imageArguments path preset keys frames seed) =
      .ok (imageChoices path keys v frames seed) := by
  have hnumeral {n : Int} (hn : Text.hasDecimal n = true) : toString n ≠ "--" := by
    intro h
    have hnone : Text.readDecimal? "--".toList = none := by decide
    have hread := Text.readDecimal?_toString hn
    rw [h, hnone] at hread
    cases hread
  have hpresetdashes : preset ≠ "--" := by
    rintro rfl
    cases hpreset
  have hvariant : readNamed .variant Variant.presets preset = .ok v := by
    rw [readNamed, show Variant.presets.lookup preset = some v from hpreset]
  have hvalues : ∀ p ∈ [(Field.rom, path), (.variant, preset), (.frames, toString frames),
      (.keys, keys), (.seed, toString seed)], p.2 ≠ "--" := by
    simp only [List.forall_mem_cons]
    exact ⟨hdashes, hpresetdashes, hnumeral hframes, hkeys, hnumeral hseed, nofun⟩
  refine Choices.ofArguments_assignments hvalues ?_ (Or.inl hpath)
  simp only [List.map_cons, List.map_nil, Choices.useAll, Choices.use, Choices.useField, hvariant,
    readWhole_toString hframes, readWhole_toString hseed, Except.map]
  rfl

theorem settings_imageChoices :
    (imageChoices path keys v frames seed).settings = .ok ⟨.warning, .standard, v, some seed⟩ := rfl

/-- A run for an image goes as far as its session is made ready. -/
theorem playLoaded_imageChoices (hpath : path ≠ "") (keys : String) (v : Variant) (frames seed : Int)
    (bytes : List UInt8) (s : Session) :
    let c := imageChoices path keys v frames seed
    let outcome :=
      match loadProgram c (.regular bytes) s with
      | .error t => failed [] s t
      | .ok loaded => playLoaded c [announcement c] loaded
    (∀ t : Trouble, t.isReported = true → s.readied bytes keys = .error t →
      ∃ front journal, outcome = ⟨front ++ [t.line], journal, .exit 1⟩) ∧
    ∀ held, s.readied bytes keys = .ok held →
      outcome = playFrames c frames ["Loading ROM: " ++ path] held := by
  intro c
  have hload : loadProgram c (.regular bytes) s = Session.orTrouble (s.load bytes) := by
    unfold loadProgram
    rw [if_neg (show c.rom ≠ "" from hpath)]
    rfl
  have hannounce : announcement c = "Loading ROM: " ++ path := by
    rw [announcement, if_neg (show c.rom ≠ "" from hpath)]
    rfl
  have hkeys : c.keys = .value keys := rfl
  have hframes : c.frames = .value frames := rfl
  simp only [hload, hannounce, playLoaded, hkeys, hframes, Given.need]
  unfold Session.readied
  generalize Session.orTrouble (s.load bytes) = x
  cases x with
  | error e =>
    constructor
    · intro t hreported ht
      obtain rfl : e = t := Except.error.inj ht
      exact ⟨[], _, failed_of_reported hreported [] s⟩
    · intro held hheld
      cases hheld
  | ok loaded =>
    dsimp only
    generalize loaded.holdKeys keys = y
    cases y with
    | error e =>
      constructor
      · intro t hreported ht
        obtain rfl : e = t := Except.error.inj ht
        exact ⟨["Loading ROM: " ++ path], _, failed_of_reported hreported _ loaded⟩
      · intro held hheld
        cases hheld
    | ok u =>
      constructor
      · intro t _ ht
        cases ht
      · intro held hheld
        obtain rfl : u = held := Except.ok.inj hheld
        rfl

/-- The frames of a run for an image come to the lines that are shown, if they end by nothing but a
fault. -/
theorem playFrames_imageChoices (path keys : String) (v : Variant) (frames seed : Int)
    (held : Session)
    (h : ∀ e, (held.runFrames frames.toNat).result = .error e → e.TellsFault) :
    let r := held.runFrames frames.toNat
    let outcome := playFrames (imageChoices path keys v frames seed) frames ["Loading ROM: " ++ path]
      held
    outcome.printed = shownLines path r.session.screenText r.session.summary (errorText r) ∧
      outcome.ending = .exit (if (errorText r).isSome then 1 else 0) := by
  intro r outcome
  simp only [outcome, playFrames]
  rw [show held.runFrames frames.toNat = r from rfl]
  unfold errorText shownLines
  cases hr : r.result with
  | ok => exact ⟨rfl, rfl⟩
  | error e =>
    obtain ⟨f, rfl, -⟩ := h e hr
    exact ⟨rfl, rfl⟩

end Image

end CommandLine

/-! ## The same run -/

namespace Showcase

variable {path preset keys program : String} {v : Variant} {bytes : List UInt8} {frames seed : Int}

theorem text_ne_empty {r : Reply Unit} (h : ∀ e, r.result = .error e → e.TellsFault) {m : String}
    (hm : errorText r = some m) : m ≠ "" := by
  unfold errorText at hm
  cases hr : r.result with
  | ok =>
    rw [hr] at hm
    cases hm
  | error e =>
    rw [hr] at hm
    cases hm
    obtain ⟨f, rfl, htext⟩ := h e hr
    exact htext

/-- Frames that end by nothing but a fault have pages, which tell of it. -/
theorem pagesAfter_eq {r : Reply Unit} (h : ∀ e, r.result = .error e → e.TellsFault) :
    pagesAfter r = .ok (pagesOf r.session (errorText r)) := by
  unfold pagesAfter errorText
  cases hr : r.result with
  | ok => rfl
  | error e =>
    obtain ⟨f, rfl, -⟩ := h e hr
    rfl

/-- A showcase of an image presents what its session comes to. -/
theorem present_of_rom (path program keys : String) (bytes : List UInt8) (frames seed : Int)
    (hpreset : Variant.preset? preset = some v) :
    let q : Showcase := ⟨some (path, .regular bytes), program, preset, frames, keys, seed⟩
    let opened := Session.start ⟨v, .standard, true, none⟩ none (.ofSeed seed)
    (∀ t, opened.readied bytes keys = .error t → q.present = ⟨t.line, "", ""⟩) ∧
      ∀ held, opened.readied bytes keys = .ok held →
        let r := held.runFrames frames.toNat
        q.present = pagesOf r.session (errorText r) := by
  intro q opened
  have hload : q.loadProgram opened = Session.orTrouble (opened.load bytes) := rfl
  have hrun : q.run =
      match opened.readied bytes keys with
      | .error t => .error t
      | .ok held => pagesAfter (held.runFrames frames.toNat) := by
    unfold run Session.readied
    simp only [q, hpreset]
    rw [hload]
    cases Session.orTrouble (opened.load bytes) <;> rfl
  unfold present
  rw [hrun]
  constructor
  · intro t ht
    rw [ht]
  · intro held hheld r
    have hpages : pagesAfter r = .ok (pagesOf r.session (errorText r)) := by
      apply pagesAfter_eq
      intro e he
      exact Session.tellsFault_of_readied (.start _ _ _) rfl hheld he
    simp only [hheld, show held.runFrames frames.toNat = r from rfl, hpages]

open CommandLine in
/-- Both hosts show the same frames: one screen, one set of figures, and one error or none. -/
theorem printed_of_alike {quiet traced : Session} (h : quiet.Alike traced)
    (hfaults : ∀ e, (traced.runFrames frames.toNat).result = .error e → e.TellsFault)
    {outcome : Outcome} (houtcome : outcome = playFrames (imageChoices path keys v frames seed) frames
      ["Loading ROM: " ++ path] quiet) :
    ∃ r, traced.runFrames frames.toNat = r ∧
      outcome.printed = shownLines path r.session.screenText r.session.summary (errorText r) ∧
      outcome.ending = .exit (if (errorText r).isSome then 1 else 0) := by
  obtain ⟨hresult, hsession⟩ := h.runFrames frames.toNat
  obtain ⟨hprinted, hending⟩ := playFrames_imageChoices path keys v frames seed quiet
    fun e he => hfaults e (hresult.symm.trans he)
  have herror : errorText (quiet.runFrames frames.toNat) =
      errorText (traced.runFrames frames.toNat) := by
    unfold errorText
    rw [hresult]
  refine ⟨_, rfl, ?_, ?_⟩
  · rw [houtcome, hprinted, herror, shownLines, shownLines, hsession.figures, hsession.screenText]
  · rw [houtcome, hending, herror]

/-- The exit code tells whether there was an error. -/
theorem ending_iff {ending : CommandLine.Ending} {fault : Option String}
    (h : ending = .exit (if fault.isSome then 1 else 0)) :
    (∀ m, fault = some m → ending = .exit 1) ∧ (ending = .exit 0 ↔ fault = none) := by
  subst h
  cases fault with
  | none => exact ⟨nofun, by simp⟩
  | some text => exact ⟨fun _ _ => rfl, by simp⟩

open CommandLine in
/-- What the command line printed and what a showcase presents tell the same of a request. -/
structure TellsSame (path : String) (isRefused : Prop) (outcome : Outcome) (pages : Pages) : Prop where
  /-- A refused request: the last printed line is presented, and the exit code is 1. -/
  refused : isRefused → ∃ m, outcome.printed.getLast? = some ("Error: " ++ m) ∧
    outcome.ending = .exit 1 ∧ pages = ⟨"Error: " ++ m, "", ""⟩
  /-- Any other: the same screen and figures, and an execution error with the exit code 1 exactly where
  the summary tells of the same error. -/
  shown : ¬ isRefused → ∃ screen figures fault,
    outcome.printed = shownLines path screen figures fault ∧
    pages.screen = screen ∧ pages.summary = Text.joinLines (summaryLines figures fault) ∧
    (∀ m, "Execution error: " ++ m ∈ outcome.printed ∧ outcome.ending = .exit 1 ↔
      "Runtime: " ++ m ∈ summaryLines figures fault) ∧
    (outcome.ending = .exit 0 ↔ ∀ m, "Runtime: " ++ m ∉ summaryLines figures fault)

open CommandLine in
/-- Two hosts with sessions that are alike tell the same.  The sessions stay abstract here, since the
source of a seed is nothing to compute with. -/
theorem tellsSame_of_alike {quiet traced : Session} (h : quiet.Alike traced)
    (hreachable : traced.ReachableBy Command.IsHostCall) (hhook : traced.setup.hook = none)
    {outcome : Outcome} {pages : Pages}
    (hplayError : ∀ t : Trouble, t.isReported = true → quiet.readied bytes keys = .error t →
      ∃ front journal, outcome = ⟨front ++ [t.line], journal, .exit 1⟩)
    (hplayOk : ∀ held, quiet.readied bytes keys = .ok held →
      outcome = playFrames (imageChoices path keys v frames seed) frames ["Loading ROM: " ++ path] held)
    (hpresentError : ∀ t, traced.readied bytes keys = .error t → pages = ⟨t.line, "", ""⟩)
    (hpresentOk : ∀ held, traced.readied bytes keys = .ok held →
      pages = pagesOf (held.runFrames frames.toNat).session
        (errorText (held.runFrames frames.toNat))) :
    TellsSame path (3584 < bytes.length ∨ KeysFail keys) outcome pages := by
  have hready := h.readied bytes keys
  rcases quiet.readied_cases bytes keys with ⟨hbad, t, hreported, hquiet⟩ | ⟨hgood, ks, hquiet⟩
  · refine ⟨fun _ => ?_, fun hgood => absurd hbad hgood⟩
    rw [hquiet] at hready
    generalize htraced : traced.readied bytes keys = y at hready
    cases hready
    obtain ⟨front, journal, rfl⟩ := hplayError t hreported hquiet
    exact ⟨t.message, by simp [Trouble.line], rfl, hpresentError t htraced⟩
  · refine ⟨fun hbad => absurd hbad hgood, fun _ => ?_⟩
    rw [hquiet] at hready
    generalize htraced : traced.readied bytes keys = y at hready
    cases hready with
    | @ok _ heldTraced hheld =>
      have hfaults : ∀ e, (heldTraced.runFrames frames.toNat).result = .error e → e.TellsFault :=
        fun e he => Session.tellsFault_of_readied hreachable hhook htraced he
      obtain ⟨r, hr, hprinted, hending⟩ := printed_of_alike hheld hfaults (hplayOk _ hquiet)
      obtain ⟨hone, hzero⟩ := ending_iff hending
      have hpages := hpresentOk heldTraced htraced
      rw [hr] at hfaults hpages
      -- a fault that ends frames has a text, so that the summary has a line for it
      have hmem : ∀ m, "Runtime: " ++ m ∈ summaryLines r.session.summary (errorText r) ↔
          errorText r = some m := by
        intro m
        rw [mem_summaryLines_iff]
        exact and_iff_left_of_imp (text_ne_empty hfaults)
      have hscreen : pages.screen = r.session.screenText := by rw [hpages, pagesOf]
      have hsummary : pages.summary =
          Text.joinLines (summaryLines r.session.summary (errorText r)) := by
        rw [hpages, pagesOf]
      refine ⟨_, _, _, hprinted, hscreen, hsummary, ?_, ?_⟩
      · intro m
        rw [hprinted, mem_shownLines_iff, hmem]
        exact ⟨fun h => h.1, fun h => ⟨h, hone m h⟩⟩
      · rw [hzero]
        simp only [hmem]
        exact Option.eq_none_iff_forall_ne_some

open CommandLine in
/-- **The command line and a showcase agree.**  Take an image at a path, a preset, keys, and a number of
frames and a seed that can be written in decimal; neither the path nor the keys are two lone dashes.  If
the image is too large or the keys are bad, the last line that the command line prints is the one that
the showcase presents on its first page, with the other pages empty, and the exit code is 1.  Otherwise
both show the same screen and the same figures.  The command line then ends with 1 behind an execution
error exactly if the summary has a line for the same error, and with 0 if it has none. -/
theorem presents_what_is_printed (files : String → HostFile) (program : String) (entropy : ByteSource)
    (hpath : path ≠ "") (hdashes : path ≠ "--") (hfile : files path = .regular bytes)
    (hpreset : Variant.preset? preset = some v) (hframes : Text.hasDecimal frames = true)
    (hkeys : keys ≠ "--") (hseed : Text.hasDecimal seed = true) :
    ∃ outcome,
      runArguments (imageArguments path preset keys frames seed) files entropy = .ok outcome ∧
      TellsSame path (3584 < bytes.length ∨ KeysFail keys) outcome
        (present ⟨some (path, .regular bytes), program, preset, frames, keys, seed⟩) := by
  let c := imageChoices path keys v frames seed
  have hrun : runArguments (imageArguments path preset keys frames seed) files entropy =
      .ok (play c ⟨.warning, .standard, v, some seed⟩ (.regular bytes) entropy) := by
    rw [runArguments, ofArguments_imageArguments hpath hdashes hpreset hframes hkeys hseed]
    simp only [settings_imageChoices]
    rw [show files (imageChoices path keys v frames seed).rom = .regular bytes from hfile]
  obtain ⟨hplayError, hplayOk⟩ := playLoaded_imageChoices hpath keys v frames seed bytes
    (openSession ⟨.warning, .standard, v, some seed⟩ false entropy)
  obtain ⟨hpresentError, hpresentOk⟩ := present_of_rom path program keys bytes frames seed hpreset
  have halike : (openSession ⟨.warning, .standard, v, some seed⟩ false entropy).Alike
    (Session.start ⟨v, .standard, true, none⟩ none (.ofSeed seed)) := rfl
  exact ⟨_, hrun, tellsSame_of_alike halike (.start _ _ _) rfl hplayError hplayOk hpresentError
    hpresentOk⟩

open CommandLine in
/-- A return without a call: the command line prints the error, and the summary tells of it. -/
theorem presents_what_is_printed_underflow :
    ∃ outcome figures fault,
      runArguments (imageArguments "a.ch8" "chip8" "5" 1 0) (fun _ => .regular [0x00, 0xEE])
        (.ofList []) = .ok outcome ∧
      "Execution error: Return with empty call stack" ∈ outcome.printed ∧
      outcome.ending = .exit 1 ∧
      (present ⟨some ("a.ch8", .regular [0x00, 0xEE]), "", "chip8", 1, "5", 0⟩).summary =
        Text.joinLines (summaryLines figures fault) ∧
      "Runtime: Return with empty call stack" ∈ summaryLines figures fault := by
  have hpreset : Variant.preset? "chip8" = some .chip8 := rfl
  have hframes : Text.hasDecimal 1 = true := by decide +kernel
  have hseed : Text.hasDecimal 0 = true := by decide +kernel
  have hpath : "a.ch8" ≠ "" ∧ "a.ch8" ≠ "--" ∧ "5" ≠ "--" := by decide
  obtain ⟨outcome, hrun, htells⟩ := presents_what_is_printed (fun _ => .regular [0x00, 0xEE]) ""
    (.ofList []) hpath.1 hpath.2.1 rfl hpreset hframes hpath.2.2 hseed
  have hgood : ¬ (3584 < [(0x00 : UInt8), 0xEE].length ∨ KeysFail "5") := by
    rintro (h | ⟨word, hw, hbad⟩)
    · simp at h
    · have hall : ∀ word ∈ Program.words "5", Program.isKeyWord word = true := by decide +kernel
      rw [hall word hw] at hbad
      cases hbad
  obtain ⟨screen, figures, fault, -, -, hsummary, herror, -⟩ := htells.shown hgood
  have heval : (runArguments (imageArguments "a.ch8" "chip8" "5" 1 0)
      (fun _ => .regular [0x00, 0xEE]) (.ofList [])).toOption.map (fun o => (o.printed[1]?, o.ending)) =
      some (some "Execution error: Return with empty call stack", .exit 1) := by decide +kernel
  simp only [hrun, Except.toOption, Option.map_some, Option.some.injEq, Prod.mk.injEq] at heval
  obtain ⟨hprinted, hending⟩ := heval
  have hmem : "Execution error: " ++ "Return with empty call stack" ∈ outcome.printed :=
    List.mem_of_getElem? hprinted
  exact ⟨outcome, figures, fault, hrun, hmem, hending, hsummary, (herror _).mp ⟨hmem, hending⟩⟩

/-- A dash shows as itself; the table of characters that do not is looked through as a list. -/
theorem quoted_dashes : Text.quoted "--" = "'--'" := by
  have hdashes : "--".toList = ['-', '-'] := by decide
  have hquote : Text.quoteFor ['-', '-'] = '\'' := by decide
  have hprintable : Text.isPrintable '-' = true := by
    rw [Text.isPrintable, ← Array.any_toList]
    decide +kernel
  have hescape : Text.escape '\'' '-' = ['-'] := by
    rw [Text.escape, if_neg (by decide), if_neg (by decide), if_neg (by decide), if_neg (by decide),
      if_pos hprintable]
  simp only [Text.quoted, hdashes, hquote, List.flatMap_cons, List.flatMap_nil, hescape]
  decide

theorem readied_dashes (s : Session) :
    s.readied [0x12, 0x00] "--" = .error (.word (.notNumeral "--")) := by
  have hread : Program.readKeys "--" = .error (.notNumeral "--") := rfl
  rw [Session.readied, CommandLine.load_eq_of_fits (by decide)]
  simp only [Session.holdKeys, hread]

open CommandLine in
/-- Two lone dashes as keys: the showcase tells of a word that is no numeral, but the command line takes
them for keys that were given nothing and ends without a line or an exit code. -/
theorem dashes_as_keys_escape :
    (∃ journal, runArguments (imageArguments "a.ch8" "chip8" "--" 1 0)
      (fun _ => .regular [0x12, 0x00]) (.ofList []) =
        .ok ⟨["Loading ROM: a.ch8"], journal, .gap .keys⟩) ∧
      present ⟨some ("a.ch8", .regular [0x12, 0x00]), "", "chip8", 1, "--", 0⟩ =
        ⟨"Error: invalid literal for int() with base 16: '--'", "", ""⟩ := by
  have hline : (Trouble.word (.notNumeral "--")).line =
      "Error: invalid literal for int() with base 16: '--'" := by
    unfold Trouble.line Trouble.message Program.WordError.message
    simp only [quoted_dashes]
    decide +kernel
  obtain ⟨hpresent, -⟩ := present_of_rom "a.ch8" "" "--" [0x12, 0x00] 1 0
    (show Variant.preset? "chip8" = some .chip8 from rfl)
  refine ⟨⟨⟨some .warning, #[]⟩, eq_ok_of_toOption (by decide +kernel)⟩, ?_⟩
  rw [hpresent _ (readied_dashes _), hline]

end Showcase

end Chip8
