import AppManifest.Console.Command
import AppManifest.Console.Plain
import AppManifest.Syntax.Listing

namespace AppManifest.Console

def readBytes? (path : String) : IO (Option ByteArray) := do
  try
    return some (← IO.FS.readBinFile path)
  catch _ => return none

def readLines? (path : String) : IO (Option (List String)) := do
  let data ← readBytes? path
  return (data.bind String.fromUTF8?).map fun s =>
    ((Text.split (· = '\n') s.toList).map String.ofList).filter (· != "")

/-- The entries of an archive whose contents lie in numbered files of a folder. -/
def readEntries (folder : String) (number : Nat) : List String → IO (List ArchiveEntry)
  | [] => return []
  | name :: names => do
    let data ← IO.FS.readBinFile (folder ++ "/" ++ toString number)
    return { name, data } :: (← readEntries folder (number + 1) names)

/-- A file with what the host makes of it. -/
structure Reading where
  data : ByteArray
  tree? : Option Tree
  entries? : Option (List ArchiveEntry)

/-- Reads the file at a path. What the host makes of it lies beside it: the listing of the syntax
tree of `m` in `m.tree`, the entries of an archive `z` in the folder `z.entries`, their names line
by line in its file `names`. -/
def read? (path : String) : IO (Option Reading) := do
  match ← readBytes? path with
  | none => return none
  | some data =>
    let tree? := (← readLines? (path ++ ".tree")).bind Tree.ofLines?
    match ← readLines? (path ++ ".entries/names") with
    | some names => return some ⟨data, tree?, some (← readEntries (path ++ ".entries") 0 names)⟩
    | none => return some ⟨data, tree?, none⟩

/-- The host that makes of files what it has left beside them; of other sources it knows no
statements. -/
def hostOfReadings (readings : List Reading) : Host where
  parse data := (readings.findSome? fun r => if r.data.data = data.data then r.tree? else none).getD
    (.node "module" 0 data.size "" [])
  entries? data := readings.findSome? fun r =>
    if r.data.data = data.data then r.entries?.map .ok else none

/-- The files at some paths, seen from a working directory. -/
def readFiles (cwd : Path) (t : FileTree) : List String → IO (FileTree × List Reading)
  | [] => return (t, [])
  | path :: paths => do
    match ← read? path with
    | none => readFiles cwd t paths
    | some reading =>
      let place := (Path.absolute cwd (Path.ofText path)).parts
      let (t, readings) ← readFiles cwd ((t.openPath place).insert place (.file reading.data)) paths
      return (t, reading :: readings)

/-- Writes the directories and files of a command's outcome that it did not find. -/
def writeFiles (before : FileTree) : List (Place × FileObject) → IO Unit
  | [] => return ()
  | (place, object) :: rest => do
    let path := "/" ++ "/".intercalate place
    match object, before.get? place with
    | .directory, none => IO.FS.createDirAll path
    | .file data, some (.file old) => if data ≠ old then IO.FS.writeBinFile path data
    | .file data, _ => IO.FS.writeBinFile path data
    | _, _ => pure ()
    writeFiles before rest

def readEnvironment : List String → IO Environment
  | [] => return []
  | name :: names => do
    let rest ← readEnvironment names
    match ← IO.getEnv name with
    | some value => return (name, value) :: rest
    | none => return rest

def usage : String :=
  "usage: appmanifest [-v] check PATH [--strict | --lenient]\n" ++
  "       appmanifest [-v] build PATH [-o DIRECTORY] [--template ARCHIVE]\n" ++
  "                              [--strict | --lenient] [--auth-level LEVEL]\n" ++
  "                              [--handler EXECUTABLE]\n" ++
  "       appmanifest [-v] unpack ARCHIVE DIRECTORY\n" ++
  "       appmanifest [-v] codes"

def runCommand (c : Command) : IO Nat := do
  let cwd := Path.ofText ((← IO.getEnv "PWD").getD "/")
  let (before, readings) ← readFiles cwd (FileTree.empty.openPath (cwd.parts ++ ["."])) c.inputs
  let env ← readEnvironment Settings.variableNames
  let (reply, after) := (c.run (.plain 80) (hostOfReadings readings) cwd env).run before
  writeFiles before after.objects.reverse
  IO.print reply.output
  match reply.broken with
  | some b => IO.eprintln b.message
  | none => return reply.exitCode
  return reply.exitCode

end AppManifest.Console

def main (arguments : List String) : IO UInt32 := do
  match AppManifest.Console.Command.ofArguments arguments with
  | some c => return UInt32.ofNat (← AppManifest.Console.runCommand c)
  | none =>
    IO.eprintln AppManifest.Console.usage
    return 2
