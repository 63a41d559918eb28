import AppManifest.Analysis.Parameter
import AppManifest.Text.LowerCase

namespace AppManifest

/-- What the marker of a service says about it. -/
inductive ServiceSettings
  | http (routeStart authLevel : String)
  | queue (queueName connection : String)
  | timer (schedule : String)

def ServiceSettings.kind : ServiceSettings → ServiceKind
  | http .. => .http
  | queue .. => .queue
  | timer .. => .timer

/-- A service whose marker has been accepted. -/
structure Service where
  className : String
  settings : ServiceSettings

/-- A method with at least one trigger marker. -/
structure TriggerMethod where
  node : Node
  trigger : Marker
  moreTriggers : List Marker
  outputs : List (OutputKind × Marker)

def isNameChar (c : Char) : Bool :=
  c.isAlphanum || c = '_' || c = '-'

/-- A letter followed by at most 127 letters, digits, underscores and hyphens. -/
def isFunctionName (name : String) : Bool :=
  match name.toList with
  | [] => false
  | c :: rest => c.isAlpha && rest.all isNameChar && rest.length ≤ 127

/-- The name of an HTTP function that does not ask for one. -/
def defaultHttpName (method route : String) : String :=
  let tail := if route = "" then "root".toList
    else route.toList.map fun c => if c = '/' then '-' else c
  String.ofList ((method.toList ++ '-' :: tail).filter isNameChar)

/-- The bindings of a function by its trigger, and its name where it does not ask for one. -/
structure Draft where
  bindings : List Binding
  defaultName : String

namespace Scope

def httpDraft (c : Scope) (routeStart authLevel : String) (trigger : Marker) :
    Except Halt Draft := do
  let method := Text.lower (← c.required trigger "method")
  if method ∈ concreteMethods ∨ method = anyMethod then
    let route := joinRoute [routeStart, ← c.pathValue trigger "path"]
    return {
      bindings := [
        { type := "httpTrigger", direction := "in", name := "httpPayload",
          authLevel := some authLevel,
          methods := if method = anyMethod then none else some [method],
          route := if route = "" then none else some route },
        { type := "http", direction := "out", name := "resp" }],
      defaultName := defaultHttpName method route }
  else c.reject (anchor trigger "method") (.unsupportedHttpMethod method)

/-- The bindings that the trigger of a method gives it, once its parameters are accepted. -/
def draft (c : Scope) (service : Service) (m : TriggerMethod) (methodName : String) :
    Except Halt Draft := do
  match service.settings with
  | .http routeStart authLevel =>
    let d ← c.httpDraft routeStart authLevel m.trigger
    c.checkParameters m.node
    return d
  | .queue queueName connection =>
    return {
      bindings := [
        { type := "queueTrigger", direction := "in", name := "inMsg",
          queueName := some queueName, connection := some connection }],
      defaultName := service.className ++ "-" ++ methodName }
  | .timer schedule =>
    return {
      bindings := [
        { type := "timerTrigger", direction := "in", name := "inMsg", schedule := some schedule }],
      defaultName := service.className ++ "-" ++ methodName }

def outputBinding (c : Scope) (kind : OutputKind) (output : Marker) :
    Except Halt Binding := do
  match kind with
  | .queue =>
    let queueName ← c.required output "queue_name"
    let connection ← c.required output "connection"
    return { type := "queue", direction := "out", name := "outMsg",
             queueName := some queueName, connection := some connection }
  | .blob =>
    let path ← c.required output "path"
    let connection ← c.required output "connection"
    return { type := "blob", direction := "out", name := "outMsg",
             path := some path, connection := some connection, dataType := some "string" }

def nameAnchor (m : TriggerMethod) (explicit : Option String) : Node :=
  match explicit with
  | some _ => anchor m.trigger "name"
  | none => (m.node.field? "name").getD m.node

/-- The bindings for the output of a method, which has at most one. -/
def outputBindings (c : Scope) (m : TriggerMethod) : Analysis (List Binding) := do
  match m.outputs with
  | [] => return []
  | (kind, output) :: more =>
    c.single "output" (more.map Prod.snd)
    Analysis.noteAll (c.argumentWarnings output)
    return [← c.outputBinding kind output]

/-- Gives a method its name, which no function may have yet. -/
def assignName (c : Scope) (m : TriggerMethod) (defaultName : String) : Analysis String := do
  let explicit ← c.optional m.trigger "name"
  let name := explicit.getD defaultName
  if !isFunctionName name then
    c.reject (nameAnchor m explicit) (.invalidFunctionName name)
  else if name ∈ (← get).names then
    c.reject (nameAnchor m explicit) (.duplicateFunctionName name)
  else
    modify fun p => { p with names := name :: p.names }
    return name

def methodNotes (c : Scope) (service : Service) (m : TriggerMethod) (d : Draft) (name : String) :
    List Diagnostic :=
  if service.settings.kind = .http ∧ (d.bindings.head?.bind Binding.methods) = none then
    [c.diagnostic m.trigger.node (.acceptsAllMethods name)]
  else []

/-- What a method comes to before it has a name. -/
structure Proposal where
  methodName : String
  draft : Draft
  outputs : List Binding

/-- What a method declares, once everything but its name is accepted. -/
def propose (c : Scope) (service : Service) (m : TriggerMethod) : Analysis Proposal := do
  c.single "trigger" m.moreTriggers
  if m.trigger.name = service.settings.kind.trigger then
    Analysis.noteAll (c.argumentWarnings m.trigger)
    let methodName ← c.nameOf m.node
    let draft ← c.draft service m methodName
    return ⟨methodName, draft, ← c.outputBindings m⟩
  else
    c.reject m.trigger.node (.triggerNotAllowed m.trigger.name service.settings.kind.name)

def analyzeFunction (c : Scope) (service : Service) (m : TriggerMethod) :
    Analysis FunctionDescriptor := do
  let proposal ← c.propose service m
  let name ← c.assignName m proposal.draft.defaultName
  Analysis.noteAll (c.methodNotes service m proposal.draft name)
  return {
    name, service := service.className,
    handler := service.className ++ "." ++ proposal.methodName,
    bindings := proposal.draft.bindings ++ proposal.outputs }

end Scope

end AppManifest
