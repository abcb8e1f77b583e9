/-
A small tree of files, and what reading a path of it gives.

A path starts at the top of the tree or at the working directory.  It is followed one step at a
time, so that `d/../a.ls` needs the directory `d`, and a file cannot be walked through.  Reading
gives the text of a file or the cause why there is none.

* `Files.read` -- the text of the file at a path;
* `Files.put`, `Files.remove` -- the tree with a file or directory more or less.
-/
namespace Lightshow

/-- What a path can lead to. -/
inductive Entry where
  | file (content : ByteArray)
  | directory

/-- Files and directories, each under its steps from the top. -/
structure Files where
  /-- Steps to the working directory. -/
  here : List String
  entries : List (List String × Entry)

/-- Why a file cannot be read. -/
inductive FileError where
  | notFound
  | notDirectory
  | isDirectory
  | nameTooLong
  | nulInName
  | notText
  deriving DecidableEq, Repr

/-- Wording of the cause. -/
def FileError.message : FileError → String
  | .notFound => "No such file or directory (os error 2)"
  | .notDirectory => "Not a directory (os error 20)"
  | .isDirectory => "Is a directory (os error 21)"
  | .nameTooLong => "File name too long (os error 36)"
  | .nulInName => "file name contained an unexpected NUL byte"
  | .notText => "stream did not contain valid UTF-8"

namespace Files

/-- A tree without files. -/
def empty (here : List String) : Files := ⟨here, []⟩

/-- The steps of a path; empty ones and dots lead nowhere. -/
def steps (path : String) : List String :=
  (path.splitOn "/").filter fun s => s ≠ "" && s ≠ "."

/-- Where a path starts. -/
def start (f : Files) (path : String) : List String := if path.startsWith "/" then [] else f.here

/-- What stands at a place; the directories above the working one are always there. -/
def entryAt? (f : Files) (place : List String) : Option Entry :=
  if place.isPrefixOf f.here then some .directory
  else (f.entries.find? (·.1 = place)).map (·.2)

/-- Removes what stands at a place and below it. -/
def removeAt (f : Files) (place : List String) : Files :=
  { f with entries := f.entries.filter fun e => !place.isPrefixOf e.1 }

/-- Removes a file, or a directory with all it holds. -/
def remove (f : Files) (path : String) : Files := f.removeAt (f.start path ++ steps path)

/-- Makes the directories that lead to a place. -/
def makeParents (f : Files) (place : List String) : Files :=
  (List.range (place.length - 1)).foldl (fun f i =>
    let above := place.take (i + 1)
    match f.entryAt? above with
    | some .directory => f
    | _ => { f with entries := (above, .directory) :: (f.removeAt above).entries }) f

/-- Puts an entry at a path, instead of what was there, and makes the directories above it. -/
def put (f : Files) (path : String) (entry : Entry) : Files :=
  let place := f.start path ++ steps path
  { f with entries := (place, entry) :: ((f.makeParents place).removeAt place).entries }

/-- Where a walk from a place leads; the top is above itself. -/
def walk (f : Files) (place : List String) : List String → Except FileError (List String)
  | [] => .ok place
  | step :: rest =>
    match f.entryAt? place with
    | none => .error .notFound
    | some (.file _) => .error .notDirectory
    | some .directory =>
      if step = ".." then f.walk place.dropLast rest
      else if 255 < step.utf8ByteSize then .error .nameTooLong
      else f.walk (place ++ [step]) rest

/-- What a path leads to. -/
def find (f : Files) (path : String) : Except FileError Entry :=
  if path.toList.contains '\x00' then .error .nulInName
  else if path.isEmpty then .error .notFound
  else if 4096 ≤ path.utf8ByteSize then .error .nameTooLong
  else match f.walk (f.start path) (steps path) with
  | .error e => .error e
  | .ok place =>
    match f.entryAt? place with
    | none => .error .notFound
    | some .directory => .ok .directory
    | some (.file content) =>
      if path.endsWith "/" || path.endsWith "/." then .error .notDirectory
      else .ok (.file content)

/-- Whether a path leads to a file. -/
def isFile (f : Files) (path : String) : Bool :=
  match f.find path with
  | .ok (.file _) => true
  | _ => false

/-- The text of the file at a path. -/
def read (f : Files) (path : String) : Except FileError String :=
  match f.find path with
  | .error e => .error e
  | .ok .directory => .error .isDirectory
  | .ok (.file content) =>
    match String.fromUTF8? content with
    | some text => .ok text
    | none => .error .notText

end Files

end Lightshow
