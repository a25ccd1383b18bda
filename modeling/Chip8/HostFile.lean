/-
# Chip8.HostFile — what stands at a path of the host.

A path names a regular file with its bytes, a directory, or nothing that can be read.  A path is
cleaned before it is used: empty parts and parts that name the same directory are dropped, and what is
left of an empty path is the current directory.  Paths and the names in them have a longest length.

A list of files stands for the current directory and what is below it.  Of the rest of the host only that
is known which is the same on every host.

Files that exist and cannot be read, for want of a permission or because a device fails, are left out: a
regular file hands over its bytes, and a directory can be looked into.
-/
import Chip8.Text.Blank
import Chip8.Text.Quoted

namespace Chip8

/-- What stands at a path. -/
inductive HostFile where
  /-- Nothing. -/
  | absent
  /-- Nothing, because a regular file stands where the path wants a directory. -/
  | blocked
  /-- Nothing, because the path holds the character zero. -/
  | unnameable
  /-- Nothing, because the path or a name in it is too long. -/
  | tooLong
  /-- A directory. -/
  | directory
  /-- A regular file that can be read. -/
  | regular (bytes : List UInt8)
  deriving DecidableEq

/-- Why a path cannot be read. -/
inductive FileError where
  | absent (path : String)
  | blocked (path : String)
  | unnameable
  | tooLong (path : String)
  | directory (path : String)
  deriving DecidableEq, Repr

namespace FileError

/-- The text of an unreadable path. -/
def message : FileError → String
  | absent path => "[Errno 2] No such file or directory: " ++ Text.quoted path
  | blocked path => "[Errno 20] Not a directory: " ++ Text.quoted path
  | unnameable => "embedded null byte"
  | tooLong path => "[Errno 36] File name too long: " ++ Text.quoted path
  | directory path => "[Errno 21] Is a directory: " ++ Text.quoted path

end FileError

namespace HostFile

/-- The path is one that nothing stands at.  A path that is too long is not even looked at. -/
def isMissing : HostFile → Bool
  | absent | blocked | unnameable => true
  | tooLong | directory | regular _ => false

/-- The bytes of a regular file; the path is only for the error. -/
def contents (path : String) : HostFile → Except FileError (List UInt8)
  | absent => .error (.absent path)
  | blocked => .error (.blocked path)
  | unnameable => .error .unnameable
  | tooLong => .error (.tooLong path)
  | directory => .error (.directory path)
  | regular bytes => .ok bytes

end HostFile

namespace HostPath

/-- The parts of a path that lead somewhere. -/
def parts (path : String) : List (List Char) :=
  (Text.splitWords (· == '/') path.toList).filter fun part => part != ['.']

/-- The longest name in a path, in bytes. -/
def longestName : Nat := 255

/-- The longest path, in bytes. -/
def longestPath : Nat := 4095

/-- Two points lead from a directory to the one above it. -/
def upward : List Char := ['.', '.']

/-- The slashes that a path keeps in front: two stay two, more become one. -/
def root (path : String) : List Char :=
  match path.toList.takeWhile (· == '/') with
  | [] => []
  | ['/', '/'] => ['/', '/']
  | _ => ['/']

/-- The cleaned path. -/
def clean (path : String) : String :=
  let cleaned := root path ++ ['/'].intercalate (parts path)
  if cleaned.isEmpty then "." else String.ofList cleaned

end HostPath

/-- The files and directories in and below some directory, by cleaned path. -/
abbrev HostDirectory := List (String × HostFile)

/-- A directory that a walk along a path has come to. -/
inductive Place where
  /-- The current directory or one below it: the names on the way, the last one first. -/
  | inside (names : List (List Char))
  /-- A directory between the current one and the root, with this many more in between. -/
  | between (levels : Nat)
  /-- The root or a directory below it: the names on the way, the last one first. -/
  | fromRoot (names : List (List Char))
  deriving DecidableEq

namespace Place

/-- How many directories are taken to lie between the current one and the root. -/
def currentLevels : Nat := 1

/-- The directory above; above the root is the root. -/
def up : Place → Place
  | inside (_ :: names) => inside names
  | inside [] => if currentLevels = 0 then fromRoot [] else between (currentLevels - 1)
  | between 0 => fromRoot []
  | between (n + 1) => between n
  | fromRoot names => fromRoot names.tail

/-- The directory of a name. -/
def down (name : List Char) : Place → Place
  | inside names => inside (name :: names)
  | between n => between n
  | fromRoot names => fromRoot (name :: names)

end Place

namespace HostDirectory

/-- What is listed under the names on a way, the last one first.  A name on the way to something that
is listed is a directory. -/
def lookAt (d : HostDirectory) (names : List (List Char)) : HostFile :=
  let path := ['/'].intercalate names.reverse
  match d.lookup (String.ofList path) with
  | some file => file
  | none =>
    if d.any fun entry => (path ++ ['/']).isPrefixOf entry.1.toList then .directory else .absent

/-- What is known to stand below the root: some directories, and the null device, which reads as an
empty file. -/
def common : HostDirectory :=
  let names := ["bin", "dev", "etc", "home", "lib", "opt", "proc", "sys", "tmp", "usr", "var"]
  ("dev/null", .regular []) :: names.map fun name => (name, .directory)

/-- What stands under a name in a place.  Between the current directory and the root nothing is known. -/
def under (d : HostDirectory) (name : List Char) : Place → HostFile
  | .inside names => d.lookAt (name :: names)
  | .between _ => .absent
  | .fromRoot names => common.lookAt (name :: names)

/-- What stands at the end of a way from a place. -/
def walk (d : HostDirectory) (place : Place) : List (List Char) → HostFile
  | [] => .directory
  | part :: rest =>
    if part = HostPath.upward then d.walk place.up rest
    else if HostPath.longestName < (String.ofList part).utf8ByteSize then .tooLong
    else
      match d.under part place with
      | .directory => d.walk (place.down part) rest
      | .regular bytes => if rest.isEmpty then .regular bytes else .blocked
      | nothing => nothing

/-- What stands at a path, for the list of the current directory. -/
def find (d : HostDirectory) (path : String) : HostFile :=
  let start : Place := if (HostPath.root path).isEmpty then .inside [] else .fromRoot []
  if path.toList.contains (Char.ofNat 0) then .unnameable
  else if HostPath.longestPath < (HostPath.clean path).utf8ByteSize then .tooLong
  else d.walk start (HostPath.parts path)

end HostDirectory

end Chip8
