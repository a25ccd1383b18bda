/-
# Chip8.Variant — the semantics on which machines of this family disagree.

Three groups of instructions behave differently on different historical machines.  A variant fixes
each of them by one flag; all other instructions are the same everywhere.  Two named presets describe
the first machine of the family and its later extension.
-/

namespace Chip8

/-- A choice for each disputed instruction group. -/
structure Variant where
  /-- Shifts take their source from the second register operand; otherwise from the first. -/
  shiftsSecond : Bool
  /-- The bitwise operations reset the flag register; otherwise they leave it. -/
  bitwiseClearsFlag : Bool
  /-- Block transfers move the index register past the block; otherwise they leave it. -/
  transferMovesIndex : Bool
  deriving DecidableEq, Repr

namespace Variant

/-- The first machine of the family: all three flags hold. -/
def chip8 : Variant :=
  ⟨true, true, true⟩

/-- The later extension: none of the flags holds. -/
def superchip : Variant :=
  ⟨false, false, false⟩

/-- The variant of a session that does not choose one. -/
def standard : Variant := chip8

/-- The named presets, in the order of their names. -/
def presets : List (String × Variant) :=
  [("chip8", chip8), ("superchip", superchip)]

/-- The preset of a name. -/
def preset? (name : String) : Option Variant :=
  presets.lookup name

/-- The names of the presets that are this variant, in order. -/
def presetNames (v : Variant) : List String :=
  (presets.filter fun p => p.2 == v).map (·.1)

end Variant

end Chip8
