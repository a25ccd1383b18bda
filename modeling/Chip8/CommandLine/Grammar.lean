/-
# Chip8.CommandLine.Grammar — options, and how arguments are read as uses of them.

An option is a flag or takes a value.  Every option has a long spelling with two dashes, and some have
a short one with one dash.  A long spelling may be cut short as long as only one option fits.  A value
follows as the next argument, or stands in the same argument: behind an equals sign, or glued to a short
spelling.  Two lone dashes in that place are dropped, so that the option is given nothing; so it is with
older parsers of arguments, while newer ones take them for the value.

Short flags may be glued together, the last of them with an option that takes a value.  What stands
behind a short flag goes on with short spellings, whether an equals sign is in between or not; an equals
sign further on is part of the text.

An argument that begins with a dash is read as an option, unless it is a lone dash, or no option fits
it and it looks like a negative number or has a space in it.  After two lone dashes nothing is read as
an option.
-/
import Chip8.Pacing
import Chip8.Text.DecimalDigit
import Chip8.Text.Quoted

namespace Chip8.CommandLine

/-- The options that take no value. -/
inductive Flag where
  | help
  | trace
  | quiet
  deriving DecidableEq, Repr

/-- The options that take a value. -/
inductive Field where
  | rom
  | hex
  | variant
  | frames
  | clockRate
  | seed
  | keys
  | logLevel
  deriving DecidableEq, Repr

/-- An option. -/
inductive Opt where
  | flag (f : Flag)
  | field (f : Field)
  deriving DecidableEq, Repr

namespace Opt

/-- The options in the order in which they are listed. -/
def all : List Opt :=
  [flag .help, field .rom, field .hex, field .variant, field .frames, field .clockRate, field .seed,
    field .keys, flag .trace, flag .quiet, field .logLevel]

/-- How an option is spelled. -/
def spellings : Opt → List String
  | flag .help => ["-h", "--help"]
  | field .rom => ["--rom", "-r"]
  | field .hex => ["--hex", "-x"]
  | field .variant => ["--quirks", "-q"]
  | field .frames => ["--frames", "-f"]
  | field .clockRate => ["--clock-rate"]
  | field .seed => ["--seed"]
  | field .keys => ["--keys", "-k"]
  | flag .trace => ["--trace", "-t"]
  | flag .quiet => ["--quiet"]
  | field .logLevel => ["--log-level"]

/-- The name of an option in errors. -/
def title (o : Opt) : String :=
  "/".intercalate o.spellings

end Opt

/-- All spellings in order, each with its option. -/
def spelled : List (List Char × Opt) :=
  Opt.all.flatMap fun o => o.spellings.map fun s => (s.toList, o)

/-- Why arguments are refused. -/
inductive UsageError where
  /-- More than one option fits a cut spelling. -/
  | ambiguous (argument : String) (spellings : List String)
  /-- The value of an option is missing. -/
  | missingValue (f : Field)
  /-- A flag was given a value. -/
  | unwantedValue (f : Flag) (value : String)
  /-- The value is no whole number. -/
  | notWhole (f : Field) (value : String)
  /-- The value is none of those allowed. -/
  | notAllowed (f : Field) (value : String) (allowed : List String)
  /-- Arguments that belong to no option. -/
  | unrecognized (arguments : List String)
  /-- No program was named. -/
  | noProgram
  /-- The rates were refused. -/
  | pacing (error : PacingError)
  deriving DecidableEq

namespace UsageError

/-- An error about one option. -/
def about (o : Opt) (text : String) : String :=
  "argument " ++ o.title ++ ": " ++ text

/-- The text of refused arguments. -/
def message : UsageError → String
  | ambiguous argument spellings =>
    "ambiguous option: " ++ argument ++ " could match " ++ ", ".intercalate spellings
  | missingValue f => about (.field f) "expected one argument"
  | unwantedValue f value => about (.flag f) ("ignored explicit argument " ++ Text.quoted value)
  | notWhole f value => about (.field f) ("invalid int value: " ++ Text.quoted value)
  | notAllowed f value allowed =>
    about (.field f) ("invalid choice: " ++ Text.quoted value ++ " (choose from " ++
      ", ".intercalate (allowed.map Text.quoted) ++ ")")
  | unrecognized arguments => "unrecognized arguments: " ++ " ".intercalate arguments
  | noProgram => "Either --rom or --hex is required"
  | pacing error => error.message

end UsageError

/-! ## Reading one argument -/

/-- An argument by its role. -/
inductive Token where
  /-- A value. -/
  | value (text : String)
  /-- An option as it is spelled in full, and what stands behind the spelling in the same argument. -/
  | option (spelling : List Char) (o : Opt) (attached : Option (List Char))
  /-- An argument that looks like an option and fits none. -/
  | stray (text : String)
  /-- Two lone dashes. -/
  | endMark
  deriving DecidableEq

/-- The parts of an argument before and behind its first equals sign. -/
def splitEquals (cs : List Char) : List Char × Option (List Char) :=
  match cs.dropWhile (· != '=') with
  | _ :: text => (cs.takeWhile (· != '='), some text)
  | [] => (cs, none)

/-- The options that an argument may mean when it is no full spelling. -/
def candidates (cs : List Char) : List (List Char × Opt × Option (List Char)) :=
  match cs with
  | '-' :: '-' :: _ =>
    let (name, attached) := splitEquals cs
    (spelled.filter fun s => name.isPrefixOf s.1).map fun s => (s.1, s.2, attached)
  | a :: b :: rest =>
    (spelled.filter fun s => s.1 == [a, b]).map fun s => (s.1, s.2, some rest)
  | _ => []

/-- The characters look like a negative number: digits behind a dash, perhaps with a point before the
last of them, and perhaps with a line end. -/
def looksNegative : List Char → Bool
  | '-' :: rest =>
    let body := if rest.getLast? = some '\n' then rest.dropLast else rest
    let isDigit (c : Char) := (Text.decimalDigit? c).isSome
    match body.dropWhile isDigit with
    | [] => !body.isEmpty
    | '.' :: fraction => !fraction.isEmpty && fraction.all isDigit
    | _ => false
  | _ => false

/-- The role of an argument before two lone dashes. -/
def classify (argument : String) : Except UsageError Token :=
  let cs := argument.toList
  if cs.head? ≠ some '-' then .ok (.value argument)
  else
    match spelled.lookup cs with
    | some o => .ok (.option cs o none)
    | none =>
      if cs.length = 1 then .ok (.value argument)
      else
        let (name, attached) := splitEquals cs
        match spelled.lookup name with
        | some o => .ok (.option name o attached)
        | none =>
          match candidates cs with
          | [] =>
            if looksNegative cs || cs.contains ' ' then .ok (.value argument)
            else .ok (.stray argument)
          | [(spelling, o, attached)] => .ok (.option spelling o attached)
          | several => .error (.ambiguous argument (several.map fun c => String.ofList c.1))

/-- The roles of all arguments. -/
def classifyAll : List String → Except UsageError (List Token)
  | [] => .ok []
  | argument :: rest =>
    if argument = "--" then .ok (.endMark :: rest.map .value)
    else
      match classify argument with
      | .error e => .error e
      | .ok token => (classifyAll rest).map (token :: ·)

/-! ## Uses of options -/

/-- One use of an option. -/
inductive Use where
  /-- A flag. -/
  | flag (f : Flag)
  /-- An option with its value. -/
  | field (f : Field) (value : String)
  /-- An option that takes a value and is given nothing, which only older parsers let pass. -/
  | nothing (f : Field)
  deriving DecidableEq

namespace Use

/-- The use of an option with a value in the same argument.  That two dashes are no value is the rule of
older parsers. -/
def ofAttached (f : Field) (text : List Char) : Use :=
  if text = ['-', '-'] then nothing f else field f (String.ofList text)

end Use

/-- What one argument with options in it comes to. -/
structure Expansion where
  /-- The uses that are complete. -/
  uses : List Use
  /-- An option that still waits for its value. -/
  awaits : Option Field
  deriving DecidableEq

namespace Expansion

/-- A complete use. -/
def ofUse (u : Use) : Expansion :=
  ⟨[u], none⟩

/-- A use before others. -/
def cons (u : Use) (e : Expansion) : Expansion :=
  { e with uses := u :: e.uses }

end Expansion

/-- A short flag with the text behind it, which goes on with more short spellings. -/
def expandShort (f : Flag) : List Char → Except UsageError Expansion
  | [] => .ok (.ofUse (.flag f))
  | c :: rest =>
    match spelled.lookup ['-', c] with
    | none => .error (.unwantedValue f (String.ofList (c :: rest)))
    | some (.field next) =>
      if rest.isEmpty then .ok ⟨[.flag f], some next⟩
      else .ok ⟨[.flag f, .ofAttached next rest], none⟩
    | some (.flag next) => (expandShort next rest).map (.cons (.flag f))

/-- A spelling with one dash. -/
def isShort (spelling : List Char) : Bool :=
  spelling.length == 2

/-- What an option comes to with what is attached to it. -/
def expand (spelling : List Char) (o : Opt) (attached : Option (List Char)) :
    Except UsageError Expansion :=
  match o, attached with
  | .field f, none => .ok ⟨[], some f⟩
  | .field f, some text => .ok (.ofUse (.ofAttached f text))
  | .flag f, none => .ok (.ofUse (.flag f))
  | .flag f, some text =>
    if isShort spelling && !text.isEmpty then expandShort f text
    else .error (.unwantedValue f (String.ofList text))

end Chip8.CommandLine
