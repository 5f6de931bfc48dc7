import SourceAtlas.Program

/-!
# The command line program

The files and directories that the program sees are listed on standard input, a path on each
line, and are read before the run. The text that a command puts into a file is written after
the run. All else is decided by `run`.
-/

namespace SourceAtlas

/-- The lines of a stream to its end, in reverse order behind those already read. -/
partial def readLines (input : IO.FS.Stream) (lines : List String) : IO (List String) := do
  let line ← input.getLine
  if line.isEmpty then return lines
  readLines input (String.ofList (line.toList.takeWhile (· != '\n')) :: lines)

/-- Reads the file at a path, if there is one. -/
def loadFile (t : FileTree) (path : String) : IO (Option FileTree) := do
  match ← (IO.FS.readBinFile path).toBaseIO with
  | .ok bytes => return some (t.putFile (t.placeNamed ⟨path⟩) bytes.toList)
  | .error _ => return none

/-- Reads the file at a path that is listed. What cannot be read is a directory. -/
def load (t : FileTree) (path : String) : IO FileTree := do
  return (← loadFile t path).getD (t.makeDirectories (t.placeNamed ⟨path⟩))

/-- The files before the run of a command line. -/
def filesFor (c : CommandLine) : IO FileTree := do
  let here : Path := ⟨(← IO.getEnv "PWD").getD "/"⟩
  let place := FileTree.placeNamed {} here
  let start := FileTree.makeDirectories { workingDirectory := place } place
  let listed ← (← readLines (← IO.getStdin) []).reverse.foldlM load start
  return (← loadFile listed c.settingsPath.text).getD listed

/-- Writes the file that a command has put a text into. -/
def store (c : CommandLine) (o : Outcome) : IO Unit := do
  match c.command.bind Command.output with
  | some p =>
    match o.exitCode, o.files.read p with
    | 0, .ok bytes => IO.FS.writeBinFile p.text (ByteArray.mk bytes.toArray)
    | _, _ => return ()
  | none => return ()

/-- Runs the program and yields its exit code. -/
def execute (words : List String) : IO UInt32 := do
  let understood := (CommandLine.parse words).toOption
  let t ← match understood with
    | some c => if c.command.isSome then filesFor c else pure {}
    | none => pure {}
  let o := run t words
  (← IO.getStdout).putStr o.printed
  (← IO.getStderr).putStr o.reported
  if let some c := understood then store c o
  return o.exitCode.toUInt32

end SourceAtlas

/-- The program. -/
def main (words : List String) : IO UInt32 :=
  SourceAtlas.execute words
