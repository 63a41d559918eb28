namespace AppManifest

/-- What triggers the functions of a service. -/
inductive ServiceKind
  | http
  | queue
  | timer
  deriving DecidableEq, Repr

namespace ServiceKind

def all : List ServiceKind := [http, queue, timer]

def name : ServiceKind → String
  | http => "http"
  | queue => "queue"
  | timer => "timer"

/-- The marker that declares a class as a service of this kind. -/
def marker : ServiceKind → String
  | http => "http_service"
  | queue => "queue_service"
  | timer => "timer_service"

/-- The marker that makes a method of such a service a function. -/
def trigger : ServiceKind → String
  | http => "resource"
  | queue => "on_message"
  | timer => "on_tick"

def ofMarker? (name : String) : Option ServiceKind :=
  all.find? fun k => k.marker = name

end ServiceKind

def isTrigger (name : String) : Bool :=
  ServiceKind.all.any fun k => k.trigger = name

/-- Where a function sends its result besides the caller. -/
inductive OutputKind
  | queue
  | blob
  deriving DecidableEq, Repr

namespace OutputKind

def all : List OutputKind := [queue, blob]

def marker : OutputKind → String
  | queue => "queue_output"
  | blob => "blob_output"

def ofMarker? (name : String) : Option OutputKind :=
  all.find? fun k => k.marker = name

end OutputKind

def allowedFields : String → List String
  | "http_service" => ["base_path", "auth_level"]
  | "queue_service" => ["queue_name", "connection", "batch_size", "max_dequeue_count"]
  | "timer_service" => ["schedule"]
  | "resource" => ["method", "path", "name"]
  | "on_message" => ["name"]
  | "on_tick" => ["name"]
  | "queue_output" => ["queue_name", "connection"]
  | "blob_output" => ["path", "connection"]
  | _ => []

def concreteMethods : List String :=
  ["get", "post", "put", "patch", "delete", "head", "options"]

/-- The method name that stands for every method. -/
def anyMethod : String := "default"

def authLevels : List String := ["anonymous", "function", "admin"]

/-- The built-in names that a parameter may be annotated with. -/
def parameterBuiltins : List String :=
  ["str", "int", "float", "bool", "bytes", "dict", "list"]

/-- The names that a module knows without binding them. -/
def builtinNames : List String :=
  parameterBuiltins ++
    ["None", "object", "tuple", "set", "frozenset", "bytearray", "complex", "type"]

end AppManifest
