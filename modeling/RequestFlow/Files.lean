/-
What the program asks of a file system. The program is written for any file
system, so it runs on the real one and on the model of one in memory.
-/
import RequestFlow.Files.Path

namespace RequestFlow

/-- Why a file cannot be read or written. -/
inductive FileFault where
  | missing
  | isFolder
  | notFolder
  | notText
  | nameTooLong
  | nulInName
  | other (reason : String)
  deriving DecidableEq, Repr

def FileFault.message : FileFault → String
  | .missing => "No such file or directory (os error 2)"
  | .isFolder => "Is a directory (os error 21)"
  | .notFolder => "Not a directory (os error 20)"
  | .notText => "stream did not contain valid UTF-8"
  | .nameTooLong => "File name too long (os error 36)"
  | .nulInName => "file name contained an unexpected NUL byte"
  | .other reason => reason

class Files (m : Type → Type) where
  isFolder : Path → m Bool
  isFile : Path → m Bool
  read : Path → m (Except FileFault String)
  /-- Replaces the contents of a file, or makes it. -/
  write : Path → String → m (Except FileFault Unit)
  /-- Adds to the end of a file, or makes it. -/
  append : Path → String → m (Except FileFault Unit)
  /-- The folders below a folder, as the names that lead to them. -/
  foldersBelow : Path → m (List (List String))

def Files.exists {m : Type → Type} [Monad m] [Files m] (path : Path) : m Bool := do
  if ← Files.isFolder path then pure true else Files.isFile path

end RequestFlow
