/-
# Chip8.Dispatch — tables of primitives that are complete before they are used.

A dispatch table is built by registering a primitive for one operation kind after the other, and is
then frozen.  A kind is registered at most once, a table freezes only when no kind is missing, and a
frozen table takes no more registrations.  So a table that exists answers for every instruction.

A refused registration hands over the table as it is by then; a table that is refused as a whole does not
come to exist.
-/
import Chip8.Primitive
import Chip8.Text.Quoted

namespace Chip8

/-- Why a registration or a table is refused. -/
inductive DispatchError where
  /-- The table takes no more registrations. -/
  | frozen
  /-- The kind has a primitive already. -/
  | duplicate (op : Op)
  /-- Some kinds have no primitive. -/
  | incomplete (missing : List Op)
  /-- No kind has this name. -/
  | noSuchKind (name : String)
  deriving DecidableEq, Repr

namespace DispatchError

/-- Names in ascending order. -/
def sortNames (names : List String) : List String :=
  names.mergeSort fun a b => decide (a ≤ b)

/-- The text of a refused registration or table. -/
def message : DispatchError → String
  | frozen => "Cannot register primitives: registry is frozen"
  | duplicate op => "Primitive already registered: " ++ op.name
  | incomplete missing =>
    "No primitive registered for: " ++ ", ".intercalate (sortNames (missing.map Op.name))
  | noSuchKind name => Text.quoted name ++ " is not a valid Op"

end DispatchError

/-- A table of primitives under construction or in use. -/
structure Dispatch where
  /-- The registered kinds with their primitives, the latest first. -/
  entries : List (Op × Primitive)
  /-- Whether the table is closed. -/
  isFrozen : Bool

namespace Dispatch

/-- The table without entries. -/
def empty : Dispatch :=
  ⟨[], false⟩

/-- The registered kinds, the latest first. -/
def kinds (d : Dispatch) : List Op :=
  d.entries.map (·.1)

/-- The kinds without a primitive. -/
def missing (d : Dispatch) : List Op :=
  Op.all.filter fun op => !d.kinds.contains op

/-- The primitive of a kind. -/
def find? (d : Dispatch) (op : Op) : Option Primitive :=
  d.entries.lookup op

/-- Registers a primitive for a kind. -/
def register (d : Dispatch) (op : Op) (primitive : Primitive) :
    Except (Stopped Dispatch DispatchError) Dispatch :=
  if d.isFrozen then .error ⟨d, .frozen⟩
  else if d.kinds.contains op then .error ⟨d, .duplicate op⟩
  else .ok { d with entries := (op, primitive) :: d.entries }

/-- Closes a complete table. -/
def freeze (d : Dispatch) : Except (Stopped Dispatch DispatchError) Dispatch :=
  if d.missing.isEmpty then .ok { d with isFrozen := true } else .error ⟨d, .incomplete d.missing⟩

/-- Registers primitives for kinds in order, up to the first that is refused. -/
def registerAll (d : Dispatch) :
    List (Op × Primitive) → Except (Stopped Dispatch DispatchError) Dispatch
  | [] => .ok d
  | (op, primitive) :: rest =>
    match d.register op primitive with
    | .error stopped => .error stopped
    | .ok d => d.registerAll rest

/-- The table that registers primitives for kinds in order and is then frozen. -/
def buildFrom (entries : List (Op × Primitive)) : Except DispatchError Dispatch :=
  match empty.registerAll entries with
  | .error stopped => .error stopped.reason
  | .ok d => d.freeze.mapError Stopped.reason

/-- The table that registers the kinds of a list in order, each with its own primitive, and is then
frozen. -/
def build (ops : List Op) : Except DispatchError Dispatch :=
  buildFrom (ops.map fun op => (op, op.primitive))

/-! ## Tables by name -/

/-- Registers the kind of a name. -/
def registerName (d : Dispatch) (name : String) : Except DispatchError Dispatch :=
  match Op.ofName? name with
  | none => .error (.noSuchKind name)
  | some op => (d.register op op.primitive).mapError Stopped.reason

/-- Registers the kinds of a list of names in order; each name is looked up in its turn. -/
def registerNames (d : Dispatch) : List String → Except DispatchError Dispatch
  | [] => .ok d
  | name :: rest =>
    match d.registerName name with
    | .error e => .error e
    | .ok d => d.registerNames rest

/-- The table that registers the kinds of a list of names in order and is then frozen. -/
def buildNames (names : List String) : Except DispatchError Dispatch :=
  match empty.registerNames names with
  | .error e => .error e
  | .ok d => d.freeze.mapError Stopped.reason

/-- The names of the registered kinds in ascending order. -/
def kindNames (d : Dispatch) : List String :=
  DispatchError.sortNames (d.kinds.map Op.name)

end Dispatch

end Chip8
