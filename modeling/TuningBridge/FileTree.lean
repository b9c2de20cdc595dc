/-!
# Files

A tree of files and directories, and what comes of reading a file in it by a path.
-/

namespace TuningBridge

/-- Why a file is not read. -/
inductive FileFault
  | missing
  | denied
  /-- The path leads on behind something that is no directory. -/
  | notDirectory
  | isDirectory
  | nameTooLong
  /-- The contents are no text. -/
  | notText
  /-- Any other cause, in the system's words. -/
  | other (reason : String)
  deriving DecidableEq, Repr

namespace FileFault

/-- The wording of a fault, with the system's number of it. -/
def text : FileFault → String
  | missing => "No such file or directory (os error 2)"
  | denied => "Permission denied (os error 13)"
  | notDirectory => "Not a directory (os error 20)"
  | isDirectory => "Is a directory (os error 21)"
  | nameTooLong => "File name too long (os error 36)"
  | notText => "stream did not contain valid UTF-8"
  | other reason => reason

/-- The fault that the system has a number for. -/
def ofCode? (code : Nat) : Option FileFault :=
  [(2, missing), (13, denied), (20, notDirectory), (21, isDirectory), (36, nameTooLong)].lookup code

end FileFault

/-- A file or a directory. -/
inductive FileTree
  | file (contents : ByteArray)
  | directory (entries : List (String × FileTree))

namespace FileTree

/-- The most bytes of a name. -/
def maxName : Nat := 255

/-- The most bytes of a path. -/
def maxPath : Nat := 4095

/-- Follow the parts of a path; `above` are the directories passed on the way, nearest first.  The
top directory is its own parent. -/
def follow : (above : List FileTree) → FileTree → List String → Except FileFault FileTree
  | _, tree, [] => .ok tree
  | _, .file _, _ :: _ => .error .notDirectory
  | above, .directory entries, part :: rest =>
    if part = "" ∨ part = "." then follow above (.directory entries) rest
    else if part = ".." then
      match above with
      | [] => follow [] (.directory entries) rest
      | parent :: above => follow above parent rest
    else if maxName < part.utf8ByteSize then .error .nameTooLong
    else
      match entries.lookup part with
      | some tree => follow (.directory entries :: above) tree rest
      | none => .error .missing

/-- The contents of the file that a path leads to.  Relative paths start in the top directory as
well. -/
def read (tree : FileTree) (path : String) : Except FileFault ByteArray := do
  if path.isEmpty then throw .missing
  if maxPath < path.utf8ByteSize then throw .nameTooLong
  match ← follow [] tree (path.splitOn "/") with
  | .file contents => return contents
  | .directory _ => throw .isDirectory

end FileTree

end TuningBridge
