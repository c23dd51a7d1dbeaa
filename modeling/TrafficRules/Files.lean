/-!
# Files — what reading a file can give

The faults of reading, and files that exist only as data: a tree of names with a text at every leaf, and the directory
where paths without a slash in front start.  A path is walked name by name (`FileTree.locate`), so a file in the place of
a directory is a fault of its own, as is a character that no name can have; every name on the way is a directory.  Names
and paths are limited in bytes.  A fault may also mean that there is something which cannot be read (`FileFault.isPresent`).
-/
namespace TrafficRules

inductive FileFault where
  | missing
  | notDirectory
  | isDirectory
  | longName
  | badName
  | failed (reason : String)
  deriving DecidableEq, Repr

namespace FileFault

def message : FileFault → String
  | .missing => "No such file or directory (os error 2)"
  | .notDirectory => "Not a directory (os error 20)"
  | .isDirectory => "Is a directory (os error 21)"
  | .longName => "File name too long (os error 36)"
  | .badName => "file name contained an unexpected NUL byte"
  | .failed reason => reason

def isPresent : FileFault → Bool
  | .isDirectory | .failed _ => true
  | _ => false

end FileFault

abbrev FileResult := Except FileFault String

/-- What a file name ends with behind its last dot, unless that dot starts it. -/
def extension (path : String) : Option String :=
  let name := (path.toList.reverse.takeWhile (· ≠ '/')).reverse
  let behind := (name.reverse.takeWhile (· ≠ '.')).reverse
  if behind.length + 1 < name.length then some (String.ofList behind) else none

structure FileTree where
  files : List (List String × String)
  start : List String := []

namespace FileTree

def isDirectory (t : FileTree) (names : List String) : Bool :=
  names.isPrefixOf t.start || t.files.any fun f => names.isPrefixOf f.1 && names ≠ f.1

def longestName : Nat := 255

def longestPath : Nat := 4095

/-- Goes from one place to the next on a path. -/
def step (t : FileTree) (here : List String) (name : String) : Except FileFault (List String) :=
  if !t.isDirectory here then .error .notDirectory
  else if name = "" || name = "." then .ok here
  else if name = ".." then .ok here.dropLast
  else if longestName < name.utf8ByteSize then .error .longName
  else
    let next := here ++ [name]
    if t.isDirectory next || (t.files.lookup next).isSome then .ok next else .error .missing

def locate (t : FileTree) (path : String) : Except FileFault (List String) :=
  (path.splitOn "/").foldlM t.step (if path.startsWith "/" then [] else t.start)

def contents (t : FileTree) (path : String) : FileResult := do
  if path.contains '\x00' then throw .badName
  if path = "" then throw .missing
  if longestPath < path.utf8ByteSize then throw .longName
  match t.files.lookup (← t.locate path) with
  | some text => return text
  | none => throw .isDirectory

end FileTree
end TrafficRules
