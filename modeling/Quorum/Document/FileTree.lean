/-
  Quorum/Document/FileTree.lean
  =============================
  **Paths and trees of files.**

  Files are bytes under paths; directories are there as far as files are in them.  Looking a
  file up follows its path step by step, so that the first step that fails is what is
  reported.
-/
import Quorum.Text.Quoted

namespace Quorum

/-! ### Paths of files

A path is a root and the steps below it.  Empty steps and steps that stay where they are
are left out; steps back are kept, because only the file system knows where they lead. -/

/-- A path; the root is empty for a path that is relative. -/
structure FilePath where
  root : String
  steps : List String
deriving DecidableEq, Repr

namespace FilePath

/-- The root of a path: one slash, or two if there are exactly two. -/
def rootOf (cs : List Char) : String :=
  match (cs.takeWhile (· == '/')).length with
  | 0 => ""
  | 2 => "//"
  | _ => "/"

def ofText (s : String) : FilePath where
  root := rootOf s.toList
  steps := ((s.toList.splitOn '/').map String.ofList).filter fun step => step != "" && step != "."

def isAbsolute (p : FilePath) : Bool := !p.root.isEmpty

def text (p : FilePath) : String :=
  if p.root.isEmpty && p.steps.isEmpty then "." else p.root ++ "/".intercalate p.steps

def parent (p : FilePath) : FilePath := { p with steps := p.steps.dropLast }

def within (base p : FilePath) : FilePath :=
  if p.isAbsolute then p else { base with steps := base.steps ++ p.steps }

end FilePath

/-! ### A tree of files -/

/-- Why a file cannot be read. -/
inductive FileProblem where
  | missing
  | notADirectory
  | isADirectory
  | nameTooLong
  | denied
deriving DecidableEq, Repr

namespace FileProblem

/-- The number and the wording the system has for a problem. -/
def systemText : FileProblem → Nat × String
  | .missing => (2, "No such file or directory")
  | .notADirectory => (20, "Not a directory")
  | .isADirectory => (21, "Is a directory")
  | .nameTooLong => (36, "File name too long")
  | .denied => (13, "Permission denied")

/-- The wording of a problem with a file that is asked for by a name. -/
def message (problem : FileProblem) (name : String) : String :=
  s!"[Errno {problem.systemText.1}] {problem.systemText.2}: {Text.quoted name}"

end FileProblem

/-- Files below a directory, by the steps that lead to them. -/
structure FileTree where
  files : List (List String × List UInt8)

namespace FileTree

def empty : FileTree := ⟨[]⟩

def file? (t : FileTree) (place : List String) : Option (List UInt8) := t.files.lookup place

def isDirectory (t : FileTree) (place : List String) : Bool :=
  place.isEmpty
    || t.files.any fun (steps, _) => place.isPrefixOf steps && place.length < steps.length

def follow (t : FileTree) (place : List String) : List String → Except FileProblem (List String)
  | [] => .ok place
  | step :: rest =>
    if !t.isDirectory place then
      .error (if (t.file? place).isSome then .notADirectory else .missing)
    else if 255 < step.utf8ByteSize then .error .nameTooLong
    else if step == ".." then follow t place.dropLast rest
    else follow t (place ++ [step]) rest

/-- The bytes of the file that a path leads to.  The tree has no root of its own: what is
    named from there is missing. -/
def read (t : FileTree) (path : FilePath) : Except FileProblem (List UInt8) := do
  if 4095 < path.text.utf8ByteSize then throw .nameTooLong
  if path.isAbsolute then throw (if path.steps.isEmpty then .isADirectory else .missing)
  let place ← t.follow [] path.steps
  if t.isDirectory place then throw .isADirectory
  match t.file? place with
  | some bytes => return bytes
  | none => throw .missing

/-! ### Files by the names they are asked for -/

/-- A name that ends at a slash asks for a directory. -/
def asksForDirectory (name : String) : Bool := name.endsWith "/" || name.endsWith "/."

/-- The place that a name leads to; nothing need be there yet. -/
def place (t : FileTree) (name : String) : Except FileProblem (List String) :=
  let path := FilePath.ofText name
  if name.isEmpty then .error .missing
  else if 4095 < name.utf8ByteSize then .error .nameTooLong
  else if path.isAbsolute && !path.steps.isEmpty then .error .missing
  else t.follow [] path.steps

/-- The place of a file that is there under a name. -/
def placeToRead (t : FileTree) (name : String) : Except FileProblem (List String) := do
  let place ← t.place name
  if t.isDirectory place then throw .isADirectory
  if (t.file? place).isNone then throw .missing
  if asksForDirectory name then throw .notADirectory
  return place

/-- The place at which a file of a name can be written. -/
def placeToWrite (t : FileTree) (name : String) : Except FileProblem (List String) := do
  let place ← t.place name
  if t.isDirectory place then throw .isADirectory
  if asksForDirectory name then
    throw (if (t.file? place).isSome then .notADirectory else .isADirectory)
  return place

end FileTree

end Quorum
