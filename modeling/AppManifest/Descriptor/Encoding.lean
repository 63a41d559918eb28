import AppManifest.Descriptor.Basic
import AppManifest.Json.Basic
import AppManifest.Location

namespace AppManifest

/-- How a descriptor is written: with the field names of the model and every absent value as
null, or with the names of the files and without absent values. -/
inductive Style
  | full
  | compact
  deriving DecidableEq, Repr

namespace Json

/-- An optional member in a style. -/
def optionalMember (style : Style) (field member : String) (encode : α → Json) :
    Option α → List (String × Json)
  | some a => match style with
    | .full => [(field, encode a)]
    | .compact => [(member, encode a)]
  | none => match style with
    | .full => [(field, .null)]
    | .compact => []

end Json

def LinePosition.encode (p : LinePosition) : Json :=
  .obj [("line", .int p.line), ("offset", .int p.offset)]

def LineRange.encode (r : LineRange) : Json :=
  .obj [("start", r.start.encode), ("end", r.stop.encode)]

def SourceLocation.encode (l : SourceLocation) : Json :=
  .obj [("path", .str l.path), ("line_range", l.lines.encode), ("start_byte", .int l.startByte),
    ("end_byte", .int l.endByte)]

def Binding.encode (style : Style) (b : Binding) : Json :=
  .obj ([("type", .str b.type), ("direction", .str b.direction), ("name", .str b.name)]
    ++ Json.optionalMember style "auth_level" "authLevel" .str b.authLevel
    ++ Json.optionalMember style "methods" "methods" (fun ms => .arr (ms.map .str)) b.methods
    ++ Json.optionalMember style "route" "route" .str b.route
    ++ Json.optionalMember style "queue_name" "queueName" .str b.queueName
    ++ Json.optionalMember style "connection" "connection" .str b.connection
    ++ Json.optionalMember style "schedule" "schedule" .str b.schedule
    ++ Json.optionalMember style "path" "path" .str b.path
    ++ Json.optionalMember style "data_type" "dataType" .str b.dataType)

def FunctionDescriptor.encode (style : Style) (f : FunctionDescriptor) : Json :=
  .obj [("name", .str f.name), ("service", .str f.service), ("handler", .str f.handler),
    ("bindings", .arr (f.bindings.map (·.encode style)))]

def HostSettings.encode (style : Style) (h : HostSettings) : Json :=
  .obj ([("handler_executable", .str h.handlerExecutable),
      ("extension_bundle_version", .str h.extensionBundleVersion)]
    ++ Json.optionalMember style "queue_batch_size" "queue_batch_size" .int h.queueBatchSize
    ++ Json.optionalMember style "queue_max_dequeue_count" "queue_max_dequeue_count" .int
        h.queueMaxDequeueCount)

def FunctionApp.encode (style : Style) (a : FunctionApp) : Json :=
  .obj [("host", a.host.encode style), ("functions", .arr (a.functions.map (·.encode style)))]

def FunctionDescriptor.functionJson (f : FunctionDescriptor) : Json :=
  .obj [("bindings", .arr (f.bindings.map (·.encode .compact)))]

/-- The queue settings that a service has supplied. -/
def HostSettings.queueMembers (h : HostSettings) : List (String × Json) :=
  (h.queueBatchSize.toList.map fun n => ("batchSize", .int n))
    ++ h.queueMaxDequeueCount.toList.map fun n => ("maxDequeueCount", .int n)

def HostSettings.hostJson (h : HostSettings) : Json :=
  .obj [
    ("version", .str "2.0"),
    ("extensionBundle", .obj [
      ("id", .str "Microsoft.Azure.Functions.ExtensionBundle"),
      ("version", .str h.extensionBundleVersion)]),
    ("customHandler", .obj [
      ("description", .obj [
        ("defaultExecutablePath", .str h.handlerExecutable), ("arguments", .arr [])]),
      ("enableForwardingHttpRequest", .bool false)]),
    ("extensions", .obj (("http", .obj [("routePrefix", .str "")])
      :: if h.queueMembers.isEmpty then [] else [("queues", .obj h.queueMembers)]))]

end AppManifest
