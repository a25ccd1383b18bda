/-
# Chip8.CommandLine.Choices — what the arguments choose.

The uses of options take effect in the order of the arguments, so the last use of an option wins, and
a request for help ends the reading at once.  Arguments that belong to no option are gathered and
refused at the end, and so are rates that no session accepts.

An option that takes a value may be given nothing, with a parser of arguments that is old enough
(`Use.ofAttached`).  For a program this is the same as not using the
option; the other choices then have a gap, which is found when the choice is needed.
-/
import Chip8.CommandLine.Grammar
import Chip8.Journal
import Chip8.Text.Numeral
import Chip8.Variant

namespace Chip8.CommandLine

/-- A choice without which a run cannot go on, in the order in which they are needed. -/
inductive Gap where
  | level
  | clockRate
  | variant
  | seed
  | keys
  | frames
  deriving DecidableEq, Repr

namespace Gap

/-- The text of a choice that is needed and was given nothing. -/
def message : Gap → String
  | level => "attribute name must be string, not 'list'"
  | clockRate => "'<=' not supported between instances of 'list' and 'int'"
  | variant => "unhashable type: 'list'"
  | seed => "The only supported seed types are: None,\nint, float, str, bytes, and bytearray."
  | keys => "'list' object has no attribute 'replace'"
  | frames => "'list' object cannot be interpreted as an integer"

end Gap

/-- What an option was given. -/
inductive Given (α : Type) where
  /-- A value. -/
  | value (a : α)
  /-- Nothing: two dashes in the place of the value, as older parsers of arguments read them. -/
  | nothing
  deriving DecidableEq

namespace Given

/-- The value, where it is needed. -/
def need {α : Type} (gap : Gap) : Given α → Except Gap α
  | value a => .ok a
  | nothing => .error gap

end Given

/-- What the arguments choose. -/
structure Choices where
  /-- The path of the program image; empty when there is none. -/
  rom : String
  /-- The program as hexadecimal words; empty when there is none. -/
  hex : String
  /-- The disputed semantics. -/
  variant : Given Variant
  /-- How many frames to run. -/
  frames : Given Int
  /-- Instructions in a second of emulated time. -/
  clockRate : Given Int
  /-- The seed of the random source, if one is chosen. -/
  seed : Option (Given Int)
  /-- The keys that are held down. -/
  keys : Given String
  /-- Whether to print the trace. -/
  wantsTrace : Bool
  /-- Whether to print nothing but the screen. -/
  isQuiet : Bool
  /-- The least level of the events that are shown. -/
  level : Given Level
  deriving DecidableEq

namespace Choices

/-- What is chosen without any argument. -/
def standard : Choices where
  rom := ""
  hex := ""
  variant := .value .standard
  frames := .value 60
  clockRate := .value Pacing.standardClockRate
  seed := none
  keys := .value ""
  wantsTrace := false
  isQuiet := false
  level := .value .warning

end Choices

/-- Why the reading of arguments ends without choices. -/
inductive Stop where
  /-- Help was asked for. -/
  | help
  /-- The arguments are refused. -/
  | usage (error : UsageError)
  deriving DecidableEq

/-- The whole number that a value stands for. -/
def readWhole (f : Field) (value : String) : Except Stop Int :=
  match Text.readDecimal? value.toList with
  | some v => .ok v
  | none => .error (.usage (.notWhole f value))

/-- What a value stands for among named things. -/
def readNamed {α : Type} (f : Field) (named : List (String × α)) (value : String) :
    Except Stop α :=
  match named.lookup value with
  | some a => .ok a
  | none => .error (.usage (.notAllowed f value (named.map (·.1))))

namespace Choices

/-- The effect of a value. -/
def useField (c : Choices) (f : Field) (value : String) : Except Stop Choices :=
  match f with
  | .rom => .ok { c with rom := value }
  | .hex => .ok { c with hex := value }
  | .variant => (readNamed f Variant.presets value).map fun v => { c with variant := .value v }
  | .frames => (readWhole f value).map fun n => { c with frames := .value n }
  | .clockRate => (readWhole f value).map fun n => { c with clockRate := .value n }
  | .seed => (readWhole f value).map fun n => { c with seed := some (.value n) }
  | .keys => .ok { c with keys := .value value }
  | .logLevel =>
    (readNamed f (Level.all.map fun l => (l.name, l)) value).map fun l =>
      { c with level := .value l }

/-- The effect of giving nothing where a value is taken. -/
def useNothing (c : Choices) : Field → Choices
  | .rom => { c with rom := "" }
  | .hex => { c with hex := "" }
  | .variant => { c with variant := .nothing }
  | .frames => { c with frames := .nothing }
  | .clockRate => { c with clockRate := .nothing }
  | .seed => { c with seed := some .nothing }
  | .keys => { c with keys := .nothing }
  | .logLevel => { c with level := .nothing }

/-- The effect of one use of an option. -/
def use (c : Choices) : Use → Except Stop Choices
  | .flag .help => .error .help
  | .flag .trace => .ok { c with wantsTrace := true }
  | .flag .quiet => .ok { c with isQuiet := true }
  | .field f value => c.useField f value
  | .nothing f => .ok (c.useNothing f)

/-- The effect of uses in order. -/
def useAll (c : Choices) : List Use → Except Stop Choices
  | [] => .ok c
  | u :: rest =>
    match c.use u with
    | .error stop => .error stop
    | .ok c => c.useAll rest

/-- The effect of arguments in order, and the arguments that belong to no option, the latest first. -/
def takeTokens (c : Choices) (strays : List String) :
    List Token → Except Stop (Choices × List String)
  | [] => .ok (c, strays)
  | .value text :: rest => c.takeTokens (text :: strays) rest
  | .stray text :: rest => c.takeTokens (text :: strays) rest
  | .endMark :: rest => c.takeTokens ("--" :: strays) rest
  | .option spelling o attached :: rest =>
    match expand spelling o attached with
    | .error e => .error (.usage e)
    | .ok e =>
      match e.awaits, rest with
      | none, rest =>
        match c.useAll e.uses with
        | .error stop => .error stop
        | .ok c => c.takeTokens strays rest
      | some f, .value value :: rest =>
        match c.useAll (e.uses ++ [.field f value]) with
        | .error stop => .error stop
        | .ok c => c.takeTokens strays rest
      | some f, _ => .error (.usage (.missingValue f))

/-- The choices of a list of arguments, with a program among them. -/
def ofArguments (arguments : List String) : Except Stop Choices :=
  match classifyAll arguments with
  | .error e => .error (.usage e)
  | .ok tokens =>
    match standard.takeTokens [] tokens with
    | .error stop => .error stop
    | .ok (c, strays) =>
      if !strays.isEmpty then .error (.usage (.unrecognized strays.reverse))
      else if c.rom = "" ∧ c.hex = "" then .error (.usage .noProgram)
      else .ok c

end Choices

/-! ## Settings of a session -/

/-- Why choices make no settings. -/
inductive Obstacle where
  /-- A choice was given nothing. -/
  | gap (gap : Gap)
  /-- The choices are refused. -/
  | usage (error : UsageError)
  deriving DecidableEq

/-- The choices that a session is opened with. -/
structure Settings where
  /-- The least level of the events that are shown. -/
  level : Level
  /-- The rates of the session. -/
  pacing : Pacing
  /-- The disputed semantics. -/
  variant : Variant
  /-- The seed of the random source, if one is chosen. -/
  seed : Option Int
  deriving DecidableEq

namespace Choices

/-- The seed, if one is chosen. -/
def needSeed (c : Choices) : Except Gap (Option Int) :=
  match c.seed with
  | none => .ok none
  | some given => (given.need .seed).map some

/-- The settings that the choices ask for, with each choice needed in its turn. -/
def settings (c : Choices) : Except Obstacle Settings := do
  let level ← (c.level.need .level).mapError .gap
  let rate ← (c.clockRate.need .clockRate).mapError .gap
  let pacing ← (Pacing.ofRates rate Pacing.standardTimerRate Pacing.standardMaxCycles).mapError
    fun e => .usage (.pacing e)
  let variant ← (c.variant.need .variant).mapError .gap
  let seed ← c.needSeed.mapError .gap
  return ⟨level, pacing, variant, seed⟩

end Choices

end Chip8.CommandLine
