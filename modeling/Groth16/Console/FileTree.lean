import Groth16.Data.Bytes
import Groth16.Data.Dictionary

/-!
# File trees

Folders, devices and files as a value: what a command can read and write. A path is resolved the way
a file system does it, one name after the other: whatever a name behind it has to be found in must
be a folder, `.` and `..` are names in every folder, and the first name that does not fit decides
about the problem. No folder is ever made.

* `FileProblem`: why a file cannot be read or written.
* `FileTree.walk`: what a list of names leads to.
* `FileTree.read`, `FileTree.write`: access by path.
* `FileTree.homeFiles`: the files of the folder from which paths start.
-/

set_option autoImplicit false

namespace Groth16

/-- Why a file cannot be read or written. -/
inductive FileProblem where
  /-- There is no such file, or no folder to put it into. -/
  | missing
  /-- The path leads through a file. -/
  | notFolder
  /-- The path names a folder. -/
  | isFolder
  /-- A name, or the whole path, is too long. -/
  | nameTooLong
  /-- The path has a character that ends it too early. -/
  | zeroInName
  /-- The device takes nothing more. -/
  | noSpace
  /-- The device never ends. -/
  | noMemory
  /-- The content is not text. -/
  | notText
  /-- Any other problem, in words. -/
  | other (reason : String)
  deriving DecidableEq

/-- The text of the problem. -/
def FileProblem.message : FileProblem → String
  | .missing => "No such file or directory (os error 2)"
  | .notFolder => "Not a directory (os error 20)"
  | .isFolder => "Is a directory (os error 21)"
  | .nameTooLong => "File name too long (os error 36)"
  | .zeroInName => "file name contained an unexpected NUL byte"
  | .noSpace => "No space left on device (os error 28)"
  | .noMemory => "Cannot allocate memory (os error 12)"
  | .notText => "stream did not contain valid UTF-8"
  | .other reason => reason

/-- A device that is reached like a file. -/
inductive Device where
  /-- It is empty, and forgets what is written to it. -/
  | sink
  /-- It never ends, and takes nothing. -/
  | full
  deriving DecidableEq

/-- Folders, devices and files. A place is given by the names on the way to it from the root. -/
structure FileTree where
  /-- The folder from which paths start. -/
  home : List String
  /-- The folders other than the root. -/
  folders : List (List String)
  /-- The devices. -/
  devices : List (List String × Device)
  /-- The contents of the files, by their places as text. -/
  files : Dictionary Bytes

namespace FileTree

/-- A place as text. -/
def placeText (place : List String) : String := "/".intercalate place

/-- The tree of a system on which nothing was done yet, with an empty folder to start from. -/
def fresh : FileTree where
  home := ["tmp", "work"]
  folders := ["tmp", "work"] :: ["bin", "boot", "dev", "etc", "home", "lib", "lib64", "media",
    "mnt", "opt", "proc", "root", "run", "sbin", "srv", "sys", "tmp", "usr", "var"].map
      fun name => [name]
  devices := [(["dev", "null"], .sink), (["dev", "full"], .full)]
  files := Dictionary.empty.insert "etc/passwd" (Bytes.ofText "root:x:0:0:root:/root:/bin/sh\n")

/-- What is found at a place. -/
inductive Spot where
  /-- A folder. -/
  | folder
  /-- A device. -/
  | device (d : Device)
  /-- A file. -/
  | file (place : List String)
  /-- Nothing, but a file can be put there. -/
  | free (place : List String)

/-- What is found at a place in a folder. -/
def spot (t : FileTree) (place : List String) : Spot :=
  if t.folders.contains place then .folder
  else match t.devices.lookup place with
    | some d => .device d
    | none => if t.files.contains (placeText place) then .file place else .free place

/-- How many bytes a name has at most. -/
def maxName : Nat := 255

/-- How many bytes a path has at most. -/
def maxPath : Nat := 4095

/-- What names lead to, from a folder on. -/
def walk (t : FileTree) (folder : List String) : List String → Except FileProblem Spot
  | [] => .ok .folder
  | name :: rest =>
    if name = "." then walk t folder rest
    else if name = ".." then walk t folder.dropLast rest
    else if maxName < name.utf8ByteSize then .error .nameTooLong
    else
      let place := folder ++ [name]
      match t.spot place, rest with
      | .folder, rest => walk t place rest
      | found, [] => .ok found
      | .free _, _ :: _ => .error .missing
      | _, _ :: _ => .error .notFolder

/-- The names in a path. -/
def namesOf (path : String) : List String := (path.splitOn "/").filter (· ≠ "")

/-- The path says itself that it names a folder. -/
def isFolderPath (path : String) : Bool := path.endsWith "/"

/-- What names that were taken from a path lead to. -/
def follow (t : FileTree) (path : String) (names : List String) : Except FileProblem Spot :=
  t.walk (if path.startsWith "/" then [] else t.home) names

/-- Refuses what is no path at all. -/
def checkPath (path : String) : Except FileProblem Unit :=
  if path.contains '\x00' then .error .zeroInName
  else if path.isEmpty then .error .missing
  else if maxPath < path.utf8ByteSize then .error .nameTooLong
  else .ok ()

/-- The content of a file. -/
def read (t : FileTree) (path : String) : Except FileProblem Bytes := do
  checkPath path
  match ← t.follow path (namesOf path) with
  | .folder => throw .isFolder
  | .free _ => throw .missing
  | .file place =>
    if isFolderPath path then throw .notFolder
    else return (t.files.find? (placeText place)).getD []
  | .device d =>
    if isFolderPath path then throw .notFolder
    else match d with
      | .sink => return []
      | .full => throw .noMemory

/-- The tree with the content of a file set. A path that says itself that it names a folder is
refused when the folder around it is found. -/
def write (t : FileTree) (path : String) (bs : Bytes) : Except FileProblem FileTree := do
  checkPath path
  let names := namesOf path
  if isFolderPath path then
    match ← t.follow path names.dropLast with
    | .folder => throw .isFolder
    | .free _ => throw .missing
    | _ => throw .notFolder
  match ← t.follow path names with
  | .folder => throw .isFolder
  | .device .sink => return t
  | .device .full => throw .noSpace
  | .file place | .free place => return { t with files := t.files.insert (placeText place) bs }

/-- The files of the folder from which paths start, by ascending name. -/
def homeFiles (t : FileTree) : List (String × Bytes) :=
  t.files.entries.filterMap fun (place, bs) =>
    (place.dropPrefix? (placeText t.home ++ "/")).map fun name => (name.toString, bs)

end FileTree

end Groth16
