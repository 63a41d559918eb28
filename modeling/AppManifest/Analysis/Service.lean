import AppManifest.Analysis.Function

namespace AppManifest

/-- A module-level class with at least one service marker. -/
structure ServiceDeclaration where
  definition : Node
  kind : ServiceKind
  service : Marker
  moreServices : List Marker

def serviceMarkers (markers : List Marker) : List (ServiceKind × Marker) :=
  markers.filterMap fun a => (ServiceKind.ofMarker? a.name).map fun kind => (kind, a)

def outputMarkers (markers : List Marker) : List (OutputKind × Marker) :=
  markers.filterMap fun a => (OutputKind.ofMarker? a.name).map fun kind => (kind, a)

/-- Marks a fault as one met while services are looked for. -/
def Fault.amongServices : Fault → Fault
  | emptyDecorator => emptyServiceDecorator
  | f => f

namespace Document

def serviceDeclaration? (d : Document) (statement : Node) :
    Except Fault (Option ServiceDeclaration) := do
  if (← d.kind statement) = .decoratedDefinition then
    match statement.field? "definition" with
    | none => return none
    | some definition =>
      if (← d.kind definition) = .classDefinition then
        match serviceMarkers (← (d.markers definition).mapError Fault.amongServices) with
        | [] => return none
        | (kind, service) :: more =>
          return some ⟨definition, kind, service, more.map Prod.snd⟩
      else return none
  else return none

def serviceDeclarations (d : Document) (n : Node) : Except Fault (List ServiceDeclaration) :=
  n.children.filterMapM d.serviceDeclaration?

/-- The method at a function definition, where it has a trigger marker. -/
def triggerMethod? (d : Document) (n : Node) : Except Fault (Option TriggerMethod) := do
  let markers ← d.markers n
  match markers.filter fun a => isTrigger a.name with
  | [] => return none
  | trigger :: more => return some ⟨n, trigger, more, outputMarkers markers⟩

end Document

namespace Scope

/-- Keeps the first value that a run meets for a host setting. -/
def keep (c : Scope) (service : Marker) (setting : QueueSetting) (value : Int)
    (host : HostSettings) : Analysis Unit :=
  match setting.get host with
  | none => modify fun p => { p with host := setting.set value p.host }
  | some kept =>
    if kept = value then return ()
    else
      Analysis.note (c.diagnostic (anchor service setting.field)
        (.conflictingHostSetting setting.field kept))

def supply (c : Scope) (service : Marker) (setting : QueueSetting) : Analysis Unit := do
  match ← c.positive? service setting.field with
  | none => return ()
  | some value => c.keep service setting value (← get).host

/-- The level that a service gives, or else the default; an empty one counts as none. -/
def authLevel (c : Scope) (given : Option String) : String :=
  match given with
  | none => c.settings.defaultAuthLevel
  | some level => if level = "" then c.settings.defaultAuthLevel else level

/-- What a service marker says, once its fields are accepted. -/
def serviceSettings (c : Scope) (kind : ServiceKind) (service : Marker) :
    Analysis ServiceSettings := do
  match kind with
  | .http =>
    let authLevel := c.authLevel (← c.optional service "auth_level")
    if authLevel ∈ authLevels then
      return .http (← c.pathValue service "base_path") authLevel
    else c.reject (anchor service "auth_level") (.invalidFieldValue authLevel "auth_level")
  | .queue =>
    let queueName ← c.required service "queue_name"
    let connection ← c.required service "connection"
    c.supply service .batchSize
    c.supply service .maxDequeueCount
    return .queue queueName connection
  | .timer =>
    let schedule ← c.required service "schedule"
    if (Text.words schedule.toList).length = 6 then return .timer schedule
    else c.reject (anchor service "schedule") (.invalidFieldValue schedule "schedule")

/-- The service of a declaration, once its marker is accepted. -/
def service (c : Scope) (s : ServiceDeclaration) : Analysis Service := do
  let className ← c.nameOf s.definition
  c.single "service" s.moreServices
  Analysis.noteAll (c.argumentWarnings s.service)
  return ⟨className, ← c.serviceSettings s.kind s.service⟩

def methodSymbols (c : Scope) (definition : Node) : List Symbol :=
  match definition.field? "name" with
  | none => []
  | some token =>
    match c.symbols.classAt? (c.document.lines token) with
    | none => []
    | some symbol => c.symbols.members symbol

/-- The method behind a symbol, where it lies in the class and has a trigger marker. -/
def triggerMethod? (c : Scope) (definition : Node) (symbol : Symbol) :
    Except Halt (Option TriggerMethod) := do
  match c.document.locate? symbol with
  | none => return none
  | some n =>
    if (← c.document.kind n) = .functionDefinition ∧ definition.Encloses n then
      return ← c.document.triggerMethod? n
    else return none

def withoutTriggers (c : Scope) (definition : Node) : Diagnostic :=
  c.diagnostic ((definition.field? "name").getD definition) .noTriggerFunctions

structure MethodResults where
  functions : List FunctionDescriptor
  hasTriggers : Bool

/-- The functions that the methods of a service declare. -/
def analyzeMethods (c : Scope) (service : Service) (definition : Node) :
    List Symbol → Analysis MethodResults
  | [] => return ⟨[], false⟩
  | symbol :: rest => do
    match ← c.triggerMethod? definition symbol with
    | none => c.analyzeMethods service definition rest
    | some m =>
      let function? ← Analysis.attempt (c.analyzeFunction service m)
      let results ← c.analyzeMethods service definition rest
      return ⟨function?.toList ++ results.functions, true⟩

def serviceNotes (c : Scope) (definition : Node) (results : MethodResults) : List Diagnostic :=
  if results.hasTriggers then [] else [c.withoutTriggers definition]

def analyzeService (c : Scope) (s : ServiceDeclaration) : Analysis (List FunctionDescriptor) := do
  let results ← c.analyzeMethods (← c.service s) s.definition (c.methodSymbols s.definition)
  Analysis.noteAll (c.serviceNotes s.definition results)
  return results.functions

/-- The functions of the services that statements declare, in order. -/
def analyzeStatements (c : Scope) : List Node → Analysis (List FunctionDescriptor)
  | [] => return []
  | statement :: rest => do
    match ← (c.document.serviceDeclaration? statement : Except Halt _) with
    | none => c.analyzeStatements rest
    | some s =>
      let functions ← Analysis.attempt (c.analyzeService s)
      return functions.getD [] ++ (← c.analyzeStatements rest)

end Scope

end AppManifest
