import Rollup.Table
import Rollup.Text.Runs
import Rollup.Value

/-!
# Files of a working directory

The files that a program sees, as contents by path, and the tables in them. A path is a list of
steps from the working directory. Steps `..` at its start lead to the folders above, and a first
step `/` stands for the root of all folders.
-/

namespace Rollup

/-- A file that holds nothing and stands for what happens to the octets written to it. -/
inductive Device where
  /-- They vanish. -/
  | sink
  /-- There is no room for them. -/
  | full
  /-- They are printed. -/
  | output
  /-- They are reported as an error would be. -/
  | report
  deriving DecidableEq, Repr

/-- The device of a name. -/
def Device.ofName? : String → Option Device
  | "null" | "zero" | "random" | "urandom" => some sink
  | "full" => some full
  | "stdout" => some output
  | "stderr" => some report
  | _ => none

/-- The steps from the working directory, or from the root, to a file or folder. -/
abbrev Path := List String

namespace Path

/-- The folder that all absolute paths start from. -/
def root : Path := ["/"]

/-- The device at a path. -/
def device? (p : Path) : Option Device :=
  match p with
  | ["/", "dev", name] => Device.ofName? name
  | _ => none

/-- The folders outside the working directory that programs rely on. -/
def systemFolders : List Path :=
  root :: ["bin", "boot", "dev", "etc", "home", "lib", "media", "mnt", "opt", "proc", "root", "run",
    "sbin", "srv", "sys", "tmp", "usr", "var"].map fun name => root ++ [name]

/-- The folders in which a program neither finds nor makes a file of its own. -/
def closedFolders : List Path := [root ++ ["proc"], root ++ ["sys"]]

/-- Whether a path leads to the working directory or to a folder above it. -/
def isUpward (p : Path) : Bool :=
  p.all (· == "..")

/-- The folder around a path; the root has none and stays where it is. -/
def parent (p : Path) : Path :=
  if p = root then p else if p.isUpward then p ++ [".."] else p.dropLast

/-- Whether a path stays within the working directory. -/
def isWithin (p : Path) : Bool :=
  p.head? ≠ some ".." && p.head? ≠ some "/"

/-- Where the steps of a text start, and the steps; empty steps are kept. -/
def ofText (text : String) : Path × List String :=
  match Text.split '/' text with
  | "" :: steps => (root, steps)
  | steps => ([], steps)

/-- The greatest number of octets in the name of a file. -/
def maxNameSize : Nat := 255

/-- The greatest number of octets in the text of a path. -/
def maxTextSize : Nat := 4095

/-- The number of octets in a path that is written out from the root on; the name of the working
    directory counts as 16 octets. -/
def size (p : Path) : Nat :=
  let (start, steps) := match p with
    | "/" :: steps => (0, steps)
    | steps => (16, steps)
  steps.foldl (fun n name => n + 1 + name.utf8ByteSize) start

end Path

/-- Why a path cannot be followed or written. -/
inductive PathProblem where
  | notFound
  | notFolder
  | isFolder
  | nameTooLong
  | noSpace
  deriving DecidableEq, Repr

/-- The wording of a problem. -/
def PathProblem.message : PathProblem → String
  | notFound => "No such file or directory (os error 2)"
  | notFolder => "Not a directory (os error 20)"
  | isFolder => "Is a directory (os error 21)"
  | nameTooLong => "File name too long (os error 36)"
  | noSpace => "No space left on device (os error 28)"

/-- The files that a program has left, and the folders known besides those that hold files. -/
structure Files where
  contents : List (Path × List UInt8) := []
  folders : List Path := []
  deriving DecidableEq, Repr

namespace Files

/-- What a path leads to. -/
inductive Place where
  | file (octets : List UInt8)
  | folder
  | device (d : Device)
  | absent
  deriving DecidableEq, Repr

/-- Whether a path leads to a folder. -/
def isFolder (fs : Files) (p : Path) : Bool :=
  p.isUpward || Path.systemFolders.contains p || fs.folders.contains p ||
    fs.contents.any fun f => p.isPrefixOf f.1 && p.length < f.1.length

/-- What a path leads to. -/
def lookup (fs : Files) (p : Path) : Place :=
  match fs.contents.find? (·.1 == p) with
  | some f => .file f.2
  | none =>
    match p.device? with
    | some d => .device d
    | none => if fs.isFolder p then .folder else .absent

/-- Takes one step from a place, which has to be a folder. -/
def enter (fs : Files) (p : Path) (name : String) : Except PathProblem Path :=
  match fs.lookup p with
  | .absent => .error .notFound
  | .file _ | .device _ => .error .notFolder
  | .folder =>
    if name = "" || name = "." then .ok p
    else if name = ".." then .ok p.parent
    else if Path.closedFolders.contains p then .error .notFound
    else if Path.maxNameSize < name.utf8ByteSize then .error .nameTooLong
    else .ok (p ++ [name])

/-- The path that a text names. -/
def locate (fs : Files) (text : String) : Except PathProblem Path :=
  if text = "" then .error .notFound
  else if Path.maxTextSize < text.utf8ByteSize then .error .nameTooLong
  else (Path.ofText text).2.foldlM fs.enter (Path.ofText text).1

/-- What a text names. -/
def find (fs : Files) (text : String) : Place :=
  match fs.locate text with
  | .error _ => .absent
  | .ok p => fs.lookup p

/-- The path that a file is written to under a name. A name that ends in a slash or in a step to a
    folder cannot be that of a file. -/
def target (fs : Files) (text : String) : Except PathProblem Path := do
  let (start, steps) := Path.ofText text
  let names := steps.filter (· ≠ "")
  if Path.maxTextSize < text.utf8ByteSize then .error .nameTooLong
  else match names.getLast? with
  | none => .error (if text = "" then .notFound else .isFolder)
  | some name =>
    let folder ← names.dropLast.foldlM fs.enter start
    let whole ← fs.enter folder (if steps.getLast? = some "" then "." else name)
    if fs.lookup whole = .folder then .error .isFolder else .ok whole

/-- Takes one step by name alone: a step up undoes the step before it, whether or not that led
    anywhere. A step from something that is no folder fails, and so does a name that is too long. -/
def follow (fs : Files) (p : Path) (name : String) : Except PathProblem Path :=
  if name = "" || name = "." then .ok p
  else if name = ".." then .ok p.parent
  else match fs.lookup p with
    | .file _ | .device _ => .error .notFolder
    | .folder | .absent =>
      if Path.closedFolders.contains p then .error .notFound
      else if Path.maxNameSize < name.utf8ByteSize then .error .nameTooLong else .ok (p ++ [name])

/-- The path that a text names when steps up are settled by name alone. A slash at the end does
    not count. -/
def resolve (fs : Files) (text : String) : Except PathProblem Path :=
  (Path.ofText text).2.foldlM fs.follow (Path.ofText text).1

/-- Writes a file, in place of one that is there. -/
def write (fs : Files) (p : Path) (octets : List UInt8) : Files :=
  { fs with contents := fs.contents.filter (·.1 != p) ++ [(p, octets)] }

/-- What has been written is found again. -/
theorem lookup_write (fs : Files) (p : Path) (octets : List UInt8) :
    (fs.write p octets).lookup p = .file octets := by
  have hnone : (fs.contents.filter (·.1 != p)).find? (·.1 == p) = none := by
    simp [List.find?_eq_none]
  simp [write, lookup, List.find?_append, hnone]

/-- Removes a file, if it is there. -/
def erase (fs : Files) (p : Path) : Files :=
  { fs with contents := fs.contents.filter (·.1 != p) }

/-- A file that has been removed is not found. -/
theorem lookup_erase (fs : Files) (p : Path) (octets : List UInt8) :
    (fs.erase p).lookup p ≠ .file octets := by
  have hnone : (fs.contents.filter (·.1 != p)).find? (·.1 == p) = none := by
    simp [List.find?_eq_none]
  unfold lookup erase
  simp only [hnone]
  split
  · simp
  · split <;> simp

/-- Makes one folder on the way to another, unless it is there. -/
def makeStep (fs : Files × Path) (name : String) : Except PathProblem (Files × Path) := do
  let p ← fs.1.enter fs.2 name
  match fs.1.lookup p with
  | .folder => .ok (fs.1, p)
  | .absent => .ok ({ fs.1 with folders := fs.1.folders ++ [p] }, p)
  | .file _ | .device _ => .error .notFolder

/-- Makes a folder and those around it, as far as they are not there. -/
def makeFolder (fs : Files) (text : String) : Except PathProblem Files :=
  if Path.maxTextSize < text.utf8ByteSize then .error .nameTooLong
  else ((Path.ofText text).2.foldlM makeStep (fs, (Path.ofText text).1)).map (·.1)

/-- The names of all files in the working directory, in order. -/
def names (fs : Files) : List String :=
  Dict.sortedDistinct ((fs.contents.filter (·.1.isWithin)).map fun f => Text.join "/" f.1)

end Files

/-! ## Tables in files -/

/-- What follows the last point of a file name, unless the point starts the name. -/
def extension (path : String) : String :=
  match ((Text.split '/' path).filter fun s => s ≠ "" && s ≠ ".").getLast? with
  | none => ""
  | some name =>
    if name = ".." then ""
    else
      let after := name.toList.reverse.takeWhile (· ≠ '.')
      match name.toList.reverse.dropWhile (· ≠ '.') with
      | _ :: _ :: _ => String.ofList after.reverse
      | _ => ""

/-- The extensions of text files. -/
def textExtensions : List String := ["csv", "txt"]

/-- The extensions of workbooks. -/
def workbookExtensions : List String := ["xlsx", "xls", "xlsm"]

/-- The table in a file, given what its path leads to. Workbooks are recognised but not read. -/
def Table.ofPlace (path : String) (place : Files.Place) : Except ImportError Table :=
  let ext := Text.lower (extension path)
  if textExtensions.contains ext then
    match place with
    | .absent => .error (.fileNotFound path)
    | .folder => .error (.malformed PathProblem.isFolder.message)
    | .device _ => Table.ofOctets []
    | .file octets => Table.ofOctets octets
  else if workbookExtensions.contains ext then
    match place with
    | .absent => .error (.fileNotFound path)
    | .folder | .device _ | .file _ => .error (.unreadable ("cannot read the workbook " ++ path))
  else .error (.unsupportedFormat ext)

end Rollup
