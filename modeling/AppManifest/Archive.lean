import AppManifest.Disk.Basic

namespace AppManifest

/-- Where an archive entry goes. -/
structure EntryPlan where
  name : String
  target : Path
  isDirectory : Bool
  deriving DecidableEq, Repr

/-- Resolves an entry name against a target directory, which it may not leave. -/
def planEntry (cwd : Path) (name target : String) : Except Failure EntryPlan :=
  let root := Path.absolute cwd (Path.ofText target)
  let resolved := Path.absolute cwd (root.join (Path.ofText name))
  if resolved.Within root then .ok ⟨name, resolved, name.toList.getLast? = some '/'⟩
  else .error (.escapingEntry name)

def blockSize : Nat := 65536

namespace Defect

/-- The failure that reading an entry ends in. -/
def failure (name : String) : Defect → Failure
  | checksum => .badChecksum name
  | encrypted => .encryptedEntry name
  | method => .unsupportedMethod
  | header message => .unreadable false message
  | damage reported message => .unreadable reported message

/-- What has been written of an entry when its defect shows, block by block; none where that is
before its file is opened. A wrong checksum shows with the last block, damage behind the data. -/
def written? (data : ByteArray) : Defect → Option ByteArray
  | checksum => some (data.extract 0 ((data.size - 1) / blockSize * blockSize))
  | damage .. => some (data.extract 0 (data.size / blockSize * blockSize))
  | _ => none

end Defect

/-- The entry under the name that it is read by, which ends at its first null character. -/
def ArchiveEntry.withPlainName (e : ArchiveEntry) : ArchiveEntry :=
  { e with name := String.ofList (e.name.toList.takeWhile (· != '\x00')) }

namespace Disk

def openArchive (host : Host) (cwd : Path) (path : String) : Disk (List ArchiveEntry) := do
  match (← get).readFile cwd path with
  | .error f => throw f
  | .ok data =>
    match host.entries? data with
    | some (.ok entries) => return entries.map ArchiveEntry.withPlainName
    | some (.error message) => throw (.unreadable false message)
    | none => throw (.notAnArchive path)

def extractFile (cwd : Path) (e : ArchiveEntry) (target : Path) : Disk Unit := do
  makeDirectories cwd target.parent
  match e.defect with
  | none => writeFile cwd target e.data
  | some d =>
    match d.written? e.data with
    | none => throw (d.failure e.name)
    | some data =>
      writeFile cwd target data
      throw (d.failure e.name)

def extractEntry (cwd : Path) (target : String) (e : ArchiveEntry) : Disk Unit := do
  match planEntry cwd e.name target with
  | .error f => throw f
  | .ok plan =>
    if plan.isDirectory then makeDirectories cwd plan.target
    else extractFile cwd e plan.target

/-- Extracts entries in archive order, up to the first that fails. -/
def extractEntries (cwd : Path) (target : String) : List ArchiveEntry → Disk Unit
  | [] => return ()
  | e :: rest => do
    extractEntry cwd target e
    extractEntries cwd target rest

def extractArchive (host : Host) (cwd : Path) (archive target : String) : Disk Unit := do
  extractEntries cwd target (← openArchive host cwd archive)

end Disk

end AppManifest
