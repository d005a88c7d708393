/-
The program on the real file system.
-/
import RequestFlow.Command.Run

namespace RequestFlow

/-- The reason that an error of the system gives. -/
def FileFault.ofError : IO.Error → FileFault
  | .noFileOrDirectory .. | .noSuchThing .. => .missing
  | .inappropriateType _ 21 _ => .isFolder
  | .inappropriateType .. => .notFolder
  | .invalidArgument _ 36 _ => .nameTooLong
  | error => .other (toString error)

/-- Asks the system, and answers `failed` if that is impossible. -/
def answerOr {α : Type} (failed : α) (action : IO α) : IO α := do
  match ← action.toBaseIO with
  | .ok answer => pure answer
  | .error _ => pure failed

/-- Asks the system, and gives the reason if that is impossible. -/
def answerOrFault {α : Type} (action : IO α) : IO (Except FileFault α) := do
  match ← action.toBaseIO with
  | .ok answer => pure (.ok answer)
  | .error error => pure (.error (.ofError error))

def pathIsFolder (path : Path) : IO Bool :=
  answerOr false do (← IO.FS.realPath path).isDir

/-- The folders below a folder, with the names that lead to them after `names`. -/
partial def foldersBelowPath (path : Path) (names : List String) : IO (List (List String)) := do
  let entries ← answerOr #[] do (← IO.FS.realPath path).readDir
  let mut found := []
  for entry in entries do
    let inner := Path.under path entry.fileName
    if ← pathIsFolder inner then
      let here := names ++ [entry.fileName]
      found := found ++ here :: (← foldersBelowPath inner here)
  pure found

instance : Files IO where
  isFolder := pathIsFolder
  isFile path := answerOr false do
    let real ← IO.FS.realPath path
    pure ((← real.pathExists) && !(← real.isDir))
  read path := do
    if ← pathIsFolder path then pure (.error .isFolder)
    else match ← answerOrFault (IO.FS.readBinFile path) with
      | .error fault => pure (.error fault)
      | .ok bytes => match String.fromUTF8? bytes with
        | some text => pure (.ok text)
        | none => pure (.error .notText)
  write path text := do
    if ← pathIsFolder path then pure (.error .isFolder)
    else answerOrFault (IO.FS.writeFile path text)
  append path text := do
    if ← pathIsFolder path then pure (.error .isFolder)
    else answerOrFault (IO.FS.withFile path .append (·.putStr text))
  foldersBelow path := foldersBelowPath path []

end RequestFlow

open RequestFlow in
def main (args : List String) : IO UInt32 := do
  let color ← (← IO.getStdout).isTty
  let ending ← Command.runLine (m := IO) { color, clock := IO.monoMsNow } args
  IO.print ending.output
  IO.eprint ending.errors
  return ending.code.toUInt32
