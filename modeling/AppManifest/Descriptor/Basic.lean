namespace AppManifest

structure Binding where
  type : String
  direction : String
  name : String
  authLevel : Option String := none
  methods : Option (List String) := none
  route : Option String := none
  queueName : Option String := none
  connection : Option String := none
  schedule : Option String := none
  path : Option String := none
  dataType : Option String := none
  deriving DecidableEq, Repr

/-- A function of the app: what triggers it, where its results go, and what handles it. -/
structure FunctionDescriptor where
  name : String
  service : String
  handler : String
  bindings : List Binding
  deriving DecidableEq, Repr

/-- The settings that all functions of the app share. -/
structure HostSettings where
  handlerExecutable : String
  extensionBundleVersion : String
  queueBatchSize : Option Int := none
  queueMaxDequeueCount : Option Int := none
  deriving DecidableEq, Repr

structure FunctionApp where
  host : HostSettings
  functions : List FunctionDescriptor
  deriving DecidableEq, Repr

/-- The settings of a host that a queue service may supply. -/
inductive QueueSetting
  | batchSize
  | maxDequeueCount
  deriving DecidableEq, Repr

namespace QueueSetting

def field : QueueSetting → String
  | batchSize => "batch_size"
  | maxDequeueCount => "max_dequeue_count"

def get (s : QueueSetting) (h : HostSettings) : Option Int :=
  match s with
  | batchSize => h.queueBatchSize
  | maxDequeueCount => h.queueMaxDequeueCount

def set (s : QueueSetting) (value : Int) (h : HostSettings) : HostSettings :=
  match s with
  | batchSize => { h with queueBatchSize := some value }
  | maxDequeueCount => { h with queueMaxDequeueCount := some value }

end QueueSetting

def defaultBundleVersion : String := "[4.*, 5.0.0)"

end AppManifest
