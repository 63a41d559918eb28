import AppManifest.Disk.FileTree
import AppManifest.Disk.Path
import AppManifest.Syntax.Document
import AppManifest.Text.Quoted

namespace AppManifest

namespace Refusal

def number : Refusal → Nat
  | notFound => 2
  | fileExists => 17
  | notADirectory => 20
  | isADirectory => 21
  | nameTooLong => 36

def text : Refusal → String
  | notFound => "No such file or directory"
  | fileExists => "File exists"
  | notADirectory => "Not a directory"
  | isADirectory => "Is a directory"
  | nameTooLong => "File name too long"

end Refusal

inductive Failure
  | refused (why : Refusal) (path : String)
  /-- A path has a null character, at which the system would cut it. -/
  | embeddedNull
  | missingSource (path : String)
  /-- An archive entry would leave the target directory. -/
  | escapingEntry (name : String)
  | notAnArchive (path : String)
  /-- The content of an archive entry does not fit its checksum. -/
  | badChecksum (name : String)
  | encryptedEntry (name : String)
  | unsupportedMethod
  /-- A part of an archive makes no sense. -/
  | unreadable (reported : Bool) (message : String)
  /-- The analysis of the source cannot go on. -/
  | fault (f : Fault)
  deriving DecidableEq, Repr

namespace Failure

/-- Whether a command reports the failure; the others end it. -/
def isReported : Failure → Bool
  | refused .. => true
  | missingSource _ => true
  | escapingEntry _ => true
  | notAnArchive _ => true
  | unreadable reported _ => reported
  | _ => false

def message : Failure → String
  | refused why path =>
    "[Errno " ++ toString why.number ++ "] " ++ why.text ++ ": " ++ Text.quoted path
  | embeddedNull => "embedded null byte"
  | missingSource path => "File not found: " ++ path
  | escapingEntry name => "Bad zip entry: " ++ name
  | notAnArchive path => "Cannot open archive: " ++ path
  | badChecksum name => "Bad CRC-32 for file " ++ Text.quoted name
  | encryptedEntry name =>
    "File " ++ Text.quoted name ++ " is encrypted, password required for extraction"
  | unsupportedMethod => "That compression method is not supported"
  | unreadable _ message => message
  | fault f => f.message

end Failure

/-- A command on a file tree. What it changed stays changed where it fails. -/
abbrev Disk := ExceptT Failure (StateM FileTree)

def hasNull (path : String) : Bool :=
  path.toList.contains '\x00'

namespace FileTree

/-- The number of bytes that a written path may not reach. -/
def pathLimit : Nat := 4096

/-- The place that a path leads to, from a working directory. -/
def placeOf (t : FileTree) (cwd p : Path) : Except Refusal Place :=
  if pathLimit ≤ p.text.utf8ByteSize then .error .nameTooLong
  else t.walk (if p.anchor = .relative then cwd.parts else []) p.parts

def makeDirectory (t : FileTree) (cwd p : Path) : Except Refusal FileTree := do
  let place ← t.placeOf cwd p
  match t.get? place with
  | some _ => throw .fileExists
  | none => return t.insert place .directory

def hasDirectory (t : FileTree) (cwd p : Path) : Bool :=
  match t.placeOf cwd p with
  | .ok place => t.isDirectory place
  | .error _ => false

/-- Whether a directory cannot be made because the one above it is not there. -/
def lacksParent (t : FileTree) (cwd p : Path) : Bool :=
  match t.makeDirectory cwd p with
  | .error .notFound => true
  | _ => false

/-- What stands where a written path leads; a trailing slash asks for a directory. -/
def objectAt (t : FileTree) (cwd : Path) (path : String) : Except Refusal FileObject := do
  let pieces := ((Text.split (· = '/') path.toList).map String.ofList).filter fun c => c != ""
  let pieces := if path.toList.getLast? = some '/' then pieces ++ ["."] else pieces
  if path = "" then throw .notFound
  else if pathLimit ≤ path.utf8ByteSize then throw .nameTooLong
  else
    let start := if (Path.ofText path).anchor = .relative then cwd.parts else []
    match t.get? (← t.walk start pieces) with
    | some o => return o
    | none => throw .notFound

def readFile (t : FileTree) (cwd : Path) (path : String) : Except Failure ByteArray :=
  if hasNull path then .error .embeddedNull
  else
    match t.objectAt cwd path with
    | .ok (.file data) => .ok data
    | .ok .directory => .error (.refused .isADirectory path)
    | .error why => .error (.refused why path)

end FileTree

namespace Disk

/-- Makes a directory, or accepts the one that is there. -/
def makeOne (cwd p : Path) : Disk Unit := do
  let t ← get
  match t.makeDirectory cwd p with
  | .ok t' => set t'
  | .error why =>
    if why ≠ .notFound ∧ t.hasDirectory cwd p then return ()
    else throw (.refused why p.text)

/-- Makes the directory of reversed components, and first the ones above it where they lack. -/
def makeUp (cwd : Path) (anchor : Anchor) : List String → Disk Unit
  | [] => makeOne cwd ⟨anchor, []⟩
  | c :: above => do
    if (← get).lacksParent cwd ⟨anchor, (c :: above).reverse⟩ then makeUp cwd anchor above
    makeOne cwd ⟨anchor, (c :: above).reverse⟩

/-- Makes a directory with the ones above it, or accepts those that are there. -/
def makeDirectories (cwd p : Path) : Disk Unit :=
  if hasNull p.text then throw .embeddedNull else makeUp cwd p.anchor p.parts.reverse

/-- Writes a file, over the one that is there. -/
def writeFile (cwd p : Path) (data : ByteArray) : Disk Unit := do
  if hasNull p.text then throw .embeddedNull
  let t ← get
  match t.placeOf cwd p with
  | .error why => throw (.refused why p.text)
  | .ok place =>
    if t.isDirectory place then throw (.refused .isADirectory p.text)
    else set (t.insert place (.file data))

end Disk

end AppManifest
