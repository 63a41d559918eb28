import AppManifest.Build
import AppManifest.Console.Arguments
import AppManifest.Console.Rendering

namespace AppManifest.Console

inductive Command
  | check (path : String) (strict : Option Bool)
  | build (path output : String) (template : Option String) (strict : Option Bool)
      (authLevel handler : Option String)
  | unpack (archive target : String)
  | codes
  deriving DecidableEq, Repr

inductive OptionKey
  | verbose
  | strict
  | lenient
  | output
  | template
  | authLevel
  | handler
  deriving DecidableEq, Repr

def globalOptions : List (OptionSpec OptionKey) :=
  [⟨["--verbose", "-v"], .verbose, false⟩]

def strictOptions : List (OptionSpec OptionKey) :=
  [⟨["--strict"], .strict, false⟩, ⟨["--lenient"], .lenient, false⟩]

def buildOptions : List (OptionSpec OptionKey) :=
  strictOptions ++ [⟨["--output", "-o"], .output, true⟩, ⟨["--template"], .template, true⟩,
    ⟨["--auth-level"], .authLevel, true⟩, ⟨["--handler"], .handler, true⟩]

def noOptions : List (OptionSpec OptionKey) := []

/-- The last word on strictness. -/
def strictness (a : Arguments OptionKey) : Option Bool :=
  a.options.reverse.findSome? fun g =>
    match g.key with
    | .strict => some true
    | .lenient => some false
    | _ => none

namespace Command

/-- The command of a name with its arguments; none for one that is used wrongly. -/
def ofName (name : String) (arguments : List String) : Option Command :=
  match name with
  | "check" => do
    let a ← Arguments.parse strictOptions true arguments
    match a.positional with
    | [path] => some (check path (strictness a))
    | _ => none
  | "build" => do
    let a ← Arguments.parse buildOptions true arguments
    match a.positional with
    | [path] =>
      some (build path ((a.last? .output).getD "target") (a.last? .template) (strictness a)
        (a.last? .authLevel) (a.last? .handler))
    | _ => none
  | "unpack" => do
    let a ← Arguments.parse noOptions true arguments
    match a.positional with
    | [archive, target] => some (unpack archive target)
    | _ => none
  | "codes" => do
    let a ← Arguments.parse noOptions true arguments
    match a.positional with
    | [] => some codes
    | _ => none
  | _ => none

def ofArguments (arguments : List String) : Option Command := do
  let a ← Arguments.parse globalOptions false arguments
  match a.positional with
  | [] => none
  | name :: rest => ofName name rest

def inputs : Command → List String
  | check path _ => [path]
  | build path _ template _ _ _ => path :: template.toList
  | unpack archive _ => [archive]
  | codes => []

end Command

inductive Break
  | markup (fault : MarkupFault)
  | failure (f : Failure)
  deriving DecidableEq, Repr

def Break.message : Break → String
  | markup fault => fault.message
  | failure f => f.message

/-- What a command comes to: its exit code, what broke it off, and what it printed. -/
structure Reply where
  exitCode : Nat
  broken : Option Break
  output : String

/-- The settings of an environment, as far as the command does not say otherwise. -/
def resolveSettings (env : Environment) (strict : Option Bool)
    (authLevel handler : Option String) : Settings :=
  let base := Settings.ofEnvironment env
  { base with
    strictPaths := strict.getD base.strictPaths
    defaultAuthLevel := authLevel.getD base.defaultAuthLevel
    handlerExecutable := handler.getD base.handlerExecutable }

def severityColor : Severity → String
  | .error => "red"
  | .warning => "yellow"
  | .info => "cyan"

def colored (color s : String) : String :=
  "[" ++ color ++ "]" ++ s ++ "[/" ++ color ++ "]"

def diagnosticLine (d : Diagnostic) : String :=
  escape d.location.text ++ ": " ++ colored (severityColor d.severity) d.severity.name ++ " "
    ++ d.code.id ++ ": " ++ escape d.message

/-- Prints lines of markup up to the first that cannot be printed. -/
def printLines (T : Terminal) (exitCode : Nat) (printed : String) : List String → Reply
  | [] => ⟨exitCode, none, printed⟩
  | line :: rest =>
    match printMarkup T line with
    | .ok text => printLines T exitCode (printed ++ text) rest
    | .error fault => ⟨1, some (.markup fault), printed⟩

/-- The reply to a failure: its message after other lines, where commands report it. -/
def failureReply (T : Terminal) (f : Failure) (lines : List String) (message : String) : Reply :=
  if f.isReported then printLines T 1 "" (lines ++ [colored "red" message])
  else ⟨1, some (.failure f), ""⟩

def generatedLine (f : FunctionDescriptor) : String :=
  colored "green" "Generated" ++ " " ++ f.name ++ " (" ++ f.handler ++ ")"

def checkReply (T : Terminal) (host : Host) (t : FileTree) (cwd : Path) (settings : Settings)
    (path : String) : Reply :=
  match t.readSource host cwd path with
  | .error f => failureReply T f [] (escape f.message)
  | .ok document =>
    let outcome := document.analyze settings
    let lines := outcome.log.map diagnosticLine
    match outcome.result with
    | .error f => ⟨1, some (.failure (.fault f)), ""⟩
    | .ok app =>
      if outcome.log.hasErrors then printLines T 1 "" lines
      else printLines T 0 "" (lines ++ [colored "green" "OK" ++ " "
        ++ toString app.functions.length ++ " function(s) in " ++ path])

def buildReply (T : Terminal) (output : String) (outcome : BuildOutcome) : Reply :=
  let lines := outcome.log.map diagnosticLine
  match outcome.result with
  | .error f => failureReply T f lines f.message
  | .ok r =>
    if r.hasErrors then printLines T 1 "" (lines ++ [colored "red" "Build failed"])
    else printLines T 0 "" (lines ++ r.app.functions.map generatedLine
      ++ [colored "green" "Wrote" ++ " " ++ toString r.written.length ++ " file(s) to " ++ output])

def codesReply (T : Terminal) : Reply :=
  let rows := Code.all.map fun c => [c.id, c.severity.name, c.template]
  ⟨0, none, T.table ["code", "severity", "message"] rows
    ++ "(" ++ toString Code.all.length ++ " codes)\n"⟩

def Command.run (T : Terminal) (host : Host) (cwd : Path) (env : Environment) (c : Command) :
    StateM FileTree Reply := do
  match c with
  | check path strict =>
    return checkReply T host (← get) cwd (resolveSettings env strict none none) path
  | build path output template strict authLevel handler =>
    let settings := resolveSettings env strict authLevel handler
    return buildReply T output (← AppManifest.build host cwd path output settings template)
  | unpack archive target =>
    match ← (Disk.extractArchive host cwd archive target).run with
    | .error f => return failureReply T f [] f.message
    | .ok () =>
      return printLines T 0 "" [colored "green" "Unpacked" ++ " " ++ archive ++ " into " ++ target]
  | codes => return codesReply T

end AppManifest.Console
