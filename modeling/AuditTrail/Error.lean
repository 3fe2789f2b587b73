import AuditTrail.Json.Fault

/-!
# Errors

What can go wrong in the pipeline. An error is retriable when a later attempt may succeed, and closing when it says that the
input of a loop has ended.
-/

namespace AuditTrail

/-- The rule that a configured value breaks. -/
inductive Limit where
  | range
  | length
  deriving DecidableEq, Repr

/-- The short name of a limit. -/
def Limit.code : Limit → String
  | .range => "range"
  | .length => "length"

/-- Why a configuration is refused. -/
inductive ConfigFault where
  /-- The text is not YAML, or has another shape than the configuration. -/
  | yaml
  /-- The file cannot be read. -/
  | unreadable (path reason : String)
  /-- Values beyond their limits, each with its path. -/
  | limits (violations : List (String × Limit))
  /-- Row changes and markers would be read from one topic. -/
  | sameTopics
  /-- The first retry delay exceeds the last. -/
  | retryOrder
  | emptyNamespace
  /-- The sweep would look back beyond the calendar. -/
  | lookback
  | other (message : String)
  deriving DecidableEq, Repr

/-- The wording of a refused configuration. -/
def ConfigFault.message : ConfigFault → String
  | .yaml => "Invalid YAML"
  | .unreadable path reason => "Failed to read " ++ path ++ ": " ++ reason
  | .limits vs => String.intercalate "\n" (vs.map fun v => v.1 ++ ": Validation error: " ++ v.2.code)
  | .sameTopics => "row_change_topic and marker_topic must differ"
  | .retryOrder => "queue.retry_initial_ms must not exceed queue.retry_max_ms"
  | .emptyNamespace => "cursor.namespace must not be empty"
  | .lookback => "lookback out of range"
  | .other m => m

/-- The kinds of input and output failures that pass, and all others. -/
inductive IoKind where
  | connectionReset
  | connectionAborted
  | timedOut
  | interrupted
  | other
  deriving DecidableEq, Repr

/-- What can go wrong in the pipeline. -/
inductive Error where
  | store (message : String)
  | queue (message : String)
  | cursor (message : String)
  | config (fault : ConfigFault)
  /-- A payload that cannot be decoded. -/
  | serialization (message : String)
  | json (fault : Json.Fault)
  | io (kind : IoKind) (message : String)
  | timeout (message : String)
  /-- The topic or partition does not exist. -/
  | notFound (message : String)
  /-- The topic or partition was closed by the queue. -/
  | queueClosed (message : String)
  /-- The receiver of a channel is gone. -/
  | channelClosed (message : String)
  /-- The handler refused a record. -/
  | handler (message : String)
  deriving DecidableEq, Repr

namespace Error

/-- The wording of an error. -/
def message : Error → String
  | .store m => "Store error: " ++ m
  | .queue m => "Queue error: " ++ m
  | .cursor m => "Cursor error: " ++ m
  | .config f => "Configuration error: " ++ f.message
  | .serialization m => "Serialization error: " ++ m
  | .json f => "JSON error: " ++ f.message
  | .io _ m => "IO error: " ++ m
  | .timeout m => "Timeout: " ++ m
  | .notFound m => "Not found: " ++ m
  | .queueClosed m => "Queue closed: " ++ m
  | .channelClosed m => "Channel closed: " ++ m
  | .handler m => "Handler error: " ++ m

/-- The short name of an error, as it labels a metric. -/
def code : Error → String
  | .store _ => "store_error"
  | .queue _ => "queue_error"
  | .cursor _ => "cursor_error"
  | .config _ => "config_error"
  | .serialization _ => "serialization_error"
  | .json _ => "json_error"
  | .io .. => "io_error"
  | .timeout _ => "timeout"
  | .notFound _ => "not_found"
  | .queueClosed _ => "queue_closed"
  | .channelClosed _ => "channel_closed"
  | .handler _ => "handler_error"

/-- Whether a later attempt may succeed. -/
def isRetriable : Error → Bool
  | .store _ | .queue _ | .cursor _ | .timeout _ => true
  | .io kind _ => kind != .other
  | _ => false

/-- Whether the input of a loop has ended. -/
def isClosed : Error → Bool
  | .queueClosed _ | .channelClosed _ => true
  | _ => false

end Error

end AuditTrail
