import Countersign.Net.SocketAddress
import Countersign.Orchestrator.Config
import Countersign.Relayer.Config
import Countersign.Retry
import Countersign.Store.Config

/-!
# The program's configuration

Everything that can be set from outside, in sections: where the source chain is reached, the store,
the two services, the target chain, retrying, the key files, logging, and the metrics endpoint. Only
the source must be given; the target only for relaying. Times are in milliseconds.
-/

namespace Countersign

/-- **Where the source chain is reached.** -/
structure SourceConfig where
  endpoint : String
  requestTimeout : Nat
  pollInterval : Nat
deriving DecidableEq

/-- **The store**: the replicas to talk to, where to serve one, and how to talk. -/
structure StoreSection where
  peers : List String
  listenAddress : SocketAddress
  client : StoreConfig
deriving DecidableEq

/-- **The chain that holds the bridge contract.** -/
structure TargetConfig where
  rpcUrl : String
  contractAddress : Address
  receiptTimeout : Nat
deriving DecidableEq

/-- **Where the key files are**, and which one each service uses. -/
structure KeystoreConfig where
  directory : String
  orchestratorKey : String
  relayerKey : String
deriving DecidableEq

/-- **What is logged, and where traces go.** -/
structure ObservabilityConfig where
  level : String
  useTraces : Bool
  serviceName : String
  traceEndpoint : Option String
deriving DecidableEq

/-- **The metrics endpoint.** -/
structure MetricsConfig where
  enabled : Bool
  listenAddress : SocketAddress
deriving DecidableEq

/-- **The whole configuration.** -/
structure Config where
  source : SourceConfig
  store : StoreSection
  orchestrator : OrchestratorConfig
  relayer : RelayerConfig
  target : Option TargetConfig
  retry : RetryPolicy
  keystore : KeystoreConfig
  observability : ObservabilityConfig
  metrics : MetricsConfig
deriving DecidableEq

/-! ### What holds where nothing else is said -/

/-- A source at an endpoint. -/
def SourceConfig.standard (endpoint : String) : SourceConfig := ⟨endpoint, 30000, 5000⟩

/-- No peers, and a replica for everybody. -/
def StoreSection.standard : StoreSection := ⟨[], ⟨.v4 0 0 0 0, 30000⟩, .standard⟩

/-- The time that a receipt may take, five minutes. -/
def TargetConfig.standardReceiptTimeout : Nat := 300000

/-- Key files in a directory next to the program. -/
def KeystoreConfig.standard : KeystoreConfig := ⟨"keys", "orchestrator", "relayer"⟩

/-- Logging without traces. -/
def ObservabilityConfig.standard : ObservabilityConfig := ⟨"info", false, "blobstream", none⟩

/-- Metrics for everybody. -/
def MetricsConfig.standard : MetricsConfig := ⟨true, ⟨.v4 0 0 0 0, 9000⟩⟩

/-! ### Derived settings -/

/-- **The levels of logging.** -/
inductive LogLevel where
  | error
  | warn
  | info
  | debug
  | trace
deriving DecidableEq

namespace LogLevel

/-- The name of a level. -/
def name : LogLevel → String
  | .error => "ERROR"
  | .warn => "WARN"
  | .info => "INFO"
  | .debug => "DEBUG"
  | .trace => "TRACE"

/-- The level of a number, from 1 for errors alone to 5 for everything. -/
def ofNumber? (n : Nat) : Option LogLevel :=
  [LogLevel.error, .warn, .info, .debug, .trace][n - 1]?.filter fun _ => 0 < n

/-- A number in decimal digits, with an optional plus sign in front. -/
def decimal? (text : List Char) : Option Nat :=
  let digits := match text with
    | '+' :: rest => rest
    | _ => text
  if digits.isEmpty || !digits.all fun c => c.isDigit then none
  else some (digits.foldl (fun n c => 10 * n + (c.toNat - 48)) 0)

/-- The level that a text means, by name in any case or by number. -/
def parse? (text : String) : Option LogLevel :=
  match decimal? text.toList with
  | some n => if n < UInt64.size then ofNumber? n else none
  | none =>
    [LogLevel.error, .warn, .info, .debug, .trace].find? fun l =>
      l.name.toList == text.toList.map Char.toUpper

end LogLevel

/-- The level that is logged; a text that means none stands for `INFO`. -/
def ObservabilityConfig.logLevel (c : ObservabilityConfig) : LogLevel :=
  (LogLevel.parse? c.level).getD .info

/-- A path below a directory. An absolute one stands for itself. -/
def joinPath (directory name : String) : String :=
  match name.toList with
  | '/' :: _ => name
  | _ =>
    if directory.isEmpty then name
    else if directory.toList.getLast? = some '/' then directory ++ name
    else directory ++ "/" ++ name

/-- The orchestrator's key file. -/
def KeystoreConfig.orchestratorPath (c : KeystoreConfig) : String :=
  joinPath c.directory c.orchestratorKey

/-- The relayer's key file. -/
def KeystoreConfig.relayerPath (c : KeystoreConfig) : String :=
  joinPath c.directory c.relayerKey

end Countersign
