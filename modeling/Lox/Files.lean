/-!
# Files

Reading a file by its path. The program is a function of what reading would answer for every path;
a tree of files and directories is one such answer.

* `Files`: what reading each path gives.
* `FileError`: why a path cannot be read.
* `FileTree`, `FileTree.read`: a working directory with its files.
-/

namespace Lox

/-- Why a path cannot be read. -/
inductive FileError.Reason where
  | notFound
  | notDirectory
  | isDirectory
  | invalidName
  | nameTooLong
  /-- Anything else, in the words of the system: which operation failed, and why. -/
  | other (operation text : String)
  deriving DecidableEq, Repr, Inhabited

/-- **A path that cannot be read**, and why. -/
structure FileError where
  path : String
  reason : FileError.Reason
  deriving DecidableEq, Repr, Inhabited

/-- The text of a file error. A directory can be opened; reading it is what fails. -/
def FileError.message (e : FileError) : String :=
  match e.reason with
  | .notFound => "open " ++ e.path ++ ": no such file or directory"
  | .notDirectory => "open " ++ e.path ++ ": not a directory"
  | .isDirectory => "read " ++ e.path ++ ": is a directory"
  | .invalidName => "open " ++ e.path ++ ": invalid argument"
  | .nameTooLong => "open " ++ e.path ++ ": file name too long"
  | .other operation text => operation ++ " " ++ e.path ++ ": " ++ text

/-- **What reading gives** for every path: the bytes of the file, or an error. -/
abbrev Files := String → Except FileError (List UInt8)

/-- **A working directory**: its files with their contents, and its directories. Names are relative
to it, with slashes between the steps; a directory on the way to a name need not be listed. -/
structure FileTree where
  files : List (String × List UInt8)
  directories : List String
  deriving Inhabited

namespace FileTree

/-- The steps of a path. -/
def steps (path : String) : List String := (path.toList.splitOn '/').map String.ofList

/-- The step stays in its directory. -/
def isIdle (step : String) : Bool := step == "" || step == "."

/-- Where a name of the tree stands. -/
def place (name : String) : List String := (steps name).filter (!isIdle ·)

/-- The contents of the file that stands `there`. -/
def file? (t : FileTree) (there : List String) : Option (List UInt8) :=
  (t.files.find? fun f => place f.1 == there).map Prod.snd

/-- There is a directory `there`: the working directory, a listed one, or one on the way to a
name. -/
def isDirectory (t : FileTree) (there : List String) : Bool :=
  there.isEmpty || t.directories.any (fun d => there.isPrefixOf (place d))
    || t.files.any fun f => there.isPrefixOf (place f.1) && place f.1 != there

/-- Walks from the directory at `here` along steps. Above the working directory nothing is known
but that it is there. -/
def walk (t : FileTree) (here : List String) :
    List String → Except FileError.Reason (List UInt8)
  | [] => .error .isDirectory
  | step :: rest =>
    if isIdle step then walk t here rest
    else if step == ".." then
      if here.isEmpty then
        .error (if rest.all fun s => isIdle s || s == ".." then .isDirectory else .notFound)
      else walk t here.dropLast rest
    else if step.utf8ByteSize > 255 then .error .nameTooLong
    else
      let there := here ++ [step]
      if t.isDirectory there then walk t there rest
      else match t.file? there with
        | none => .error .notFound
        | some bytes => if rest.isEmpty then .ok bytes else .error .notDirectory

/-- **Reads a path** in the working directory. Of the directories above it only their being there is
known, so an absolute path leads nowhere. -/
def read (t : FileTree) : Files := fun path =>
  let outcome : Except FileError.Reason (List UInt8) :=
    if path.toList.contains '\x00' then .error .invalidName
    else if path.utf8ByteSize ≥ 4096 then .error .nameTooLong
    else if path == "" then .error .notFound
    else if path.toList.head? == some '/' then
      .error (if (steps path).all fun s => isIdle s || s == ".." then .isDirectory else .notFound)
    else t.walk [] (steps path)
  outcome.mapError fun reason => { path, reason }

end FileTree

end Lox
