import AppManifest.Analysis.Run
import AppManifest.Archive
import AppManifest.Descriptor.Encoding
import AppManifest.Json.Printer

namespace AppManifest

def hostFile : Path := ⟨.relative, ["host.json"]⟩

def functionFile : Path := ⟨.relative, ["function.json"]⟩

namespace Disk

def writeJson (cwd p : Path) (value : Json) : Disk Path := do
  makeDirectories cwd p.parent
  writeFile cwd p value.print.toUTF8
  return p

/-- Writes the file of each function into a directory of its name. -/
def writeFunctions (cwd output : Path) : List FunctionDescriptor → Disk (List Path)
  | [] => return []
  | f :: rest => do
    let p ← writeJson cwd ((output.join (Path.ofText f.name)).join functionFile) f.functionJson
    return p :: (← writeFunctions cwd output rest)

/-- Writes an app into a directory, on top of a template where there is one.

The files come in the order in which they are written: the host's, then one for each function. -/
def writeApp (host : Host) (cwd : Path) (app : FunctionApp) (output : String)
    (template : Option String) : Disk (List Path) := do
  let directory := Path.ofText output
  makeDirectories cwd directory
  match template with
  | none => pure ()
  | some archive => extractArchive host cwd archive directory.text
  let first ← writeJson cwd (directory.join hostFile) app.host.hostJson
  return first :: (← writeFunctions cwd directory app.functions)

end Disk

def FileTree.readSource (host : Host) (t : FileTree) (cwd : Path) (path : String) :
    Except Failure Document :=
  let p := Path.ofText path
  match t.readFile cwd p.text with
  | .error (.refused .notFound _) => .error (.missingSource path)
  | .error f => .error f
  | .ok data => .ok ⟨p.text, data, host.parse data⟩

structure BuildResult where
  app : FunctionApp
  hasErrors : Bool
  written : List Path

structure BuildOutcome where
  log : Log
  result : Except Failure BuildResult

/-- Analyzes a source file and writes its app, unless an error has been reported. -/
def build (host : Host) (cwd : Path) (source output : String) (settings : Settings)
    (template : Option String) : StateM FileTree BuildOutcome := do
  match (← get).readSource host cwd source with
  | .error f => return ⟨[], .error f⟩
  | .ok document =>
    let outcome := document.analyze settings
    match outcome.result with
    | .error f => return ⟨outcome.log, .error (.fault f)⟩
    | .ok app =>
      if outcome.log.hasErrors then return ⟨outcome.log, .ok ⟨app, true, []⟩⟩
      else
        match ← (Disk.writeApp host cwd app output template).run with
        | .error f => return ⟨outcome.log, .error f⟩
        | .ok written => return ⟨outcome.log, .ok ⟨app, false, written⟩⟩

end AppManifest
