import Countersign.Config.Check
import Countersign.Json.Fields
import Countersign.Json.Section
import Countersign.Text.Hex

/-!
# How a configuration is read

Section by section (`SourceConfig.look` and so on), each with the standard value of what is not
given. `Config.parse` reads a text and then checks what it found; a text that cannot be read has its
first fault reported with its place. What stands behind the value in the text is not looked at.
-/

namespace Countersign

open Json Looker

/-- A count, below `2 ^ 64`. -/
def lookCount : Looker Nat := ofOption fun j => j.uint64?.map (·.toNat)

/-- A text. -/
def lookText : Looker String := ofOption Json.text?

/-- A truth value. -/
def lookTruth : Looker Bool := ofOption fun
  | .bool b => some b
  | _ => none

/-- A socket address, as text. -/
def lookSocketAddress : Looker SocketAddress := ofOption fun j => j.text?.bind SocketAddress.parse?

/-- Exactly `count` bytes from a list of numbers. One more element is passed over if it is no byte
and has no parts, but the fault is noted. -/
def lookBytes (count : Nat) : Looker Bytes
  | place, .array elements closed => do
    let bytes ← elementsFrom (ofOption Json.byte?) place 0 (elements.take count)
    match elements.drop count with
    | [] => pure ()
    | extra :: more => do
      if extra.byte?.isSome then Look.fail place
      Look.noteFault (place.element count)
      if extra.isContainer || !extra.isIntact || !more.isEmpty then Look.fail place
    if closed && bytes.length == count then return bytes else Look.fail place
  | place, _ => Look.fail place

/-- An address, as hexadecimal text or as a list of bytes. -/
def lookAddress : Looker Address
  | place, .string text =>
    match text.map fun t => Address.parse (Bytes.ofText t) with
    | some (.ok a) => pure a
    | _ => Look.fail place
  | place, j => Address.ofBytes <$> lookBytes 20 place j

/-! ### Sections -/

/-- The section on the source. -/
def SourceConfig.look : Looker SourceConfig :=
  ofSlots true
    [(Slot.setting "endpoint" lookText fun c x => { c with endpoint := x }).must,
     .setting "request_timeout_ms" lookCount fun c x => { c with requestTimeout := x },
     .setting "poll_interval_ms" lookCount fun c x => { c with pollInterval := x }]
    (.standard "")

/-- The section on talking to the store. -/
def StoreConfig.look : Looker StoreConfig :=
  ofSlots false
    [.setting "request_timeout_ms" lookCount fun c x => { c with requestTimeout := x },
     .setting "poll_interval_ms" lookCount fun c x => { c with pollInterval := x },
     .setting "quorum_cache_capacity" lookCount fun c x => { c with cacheCapacity := x }]
    .standard

/-- The section on the store. -/
def StoreSection.look : Looker StoreSection :=
  ofSlots true
    [.setting "peers" (list lookText) fun c x => { c with peers := x },
     .setting "listen_addr" lookSocketAddress fun c x => { c with listenAddress := x },
     .setting "client" StoreConfig.look fun c x => { c with client := x }]
    .standard

/-- The section on the orchestrator. -/
def OrchestratorConfig.look : Looker OrchestratorConfig :=
  ofSlots false
    [.setting "queue_size" lookCount fun c x => { c with queueSize := x },
     .setting "requeue_queue_size" lookCount fun c x => { c with requeueQueueSize := x },
     .setting "requeue_window" lookCount fun c x => { c with requeueWindow := x },
     .setting "requeue_interval_ms" lookCount fun c x => { c with requeueInterval := x },
     .setting "liveness_interval_ms" lookCount fun c x => { c with livenessInterval := x }]
    .standard

/-- The section on searching the past. -/
def HistoryConfig.look : Looker HistoryConfig :=
  ofSlots false
    [.setting "step" lookCount fun c x => { c with step := x },
     .setting "max_depth" lookCount fun c x => { c with maxDepth := x },
     .setting "valset_search_limit" lookCount fun c x => { c with valsetSearchLimit := x }]
    .standard

/-- The section on the relayer. -/
def RelayerConfig.look : Looker RelayerConfig :=
  ofSlots false
    [.setting "poll_interval_ms" lookCount fun c x => { c with pollInterval := x },
     .setting "quorum_timeout_ms" lookCount fun c x => { c with quorumTimeout := x },
     .setting "backup" lookTruth fun c x => { c with backup := x },
     .setting "backup_grace_period_ms" lookCount fun c x => { c with backupGracePeriod := x },
     .setting "historical" HistoryConfig.look fun c x => { c with history := x }]
    .standard

/-- The section on the target. -/
def TargetConfig.look : Looker TargetConfig :=
  ofSlots true
    [(Slot.setting "rpc_url" lookText fun c x => { c with rpcUrl := x }).must,
     (Slot.setting "contract_address" lookAddress fun c x => { c with contractAddress := x }).must,
     .setting "receipt_timeout_ms" lookCount fun c x => { c with receiptTimeout := x }]
    ⟨"", .zero, TargetConfig.standardReceiptTimeout⟩

/-- The section on trying again. -/
def RetryPolicy.look : Looker RetryPolicy :=
  ofSlots false
    [.setting "max_retries" lookCount fun c x => { c with maxRetries := x },
     .setting "delay_ms" lookCount fun c x => { c with delay := x }]
    .standard

/-- The section on key files. -/
def KeystoreConfig.look : Looker KeystoreConfig :=
  ofSlots true
    [.setting "dir" lookText fun c x => { c with directory := x },
     .setting "orchestrator_key" lookText fun c x => { c with orchestratorKey := x },
     .setting "relayer_key" lookText fun c x => { c with relayerKey := x }]
    .standard

/-- The section on logging. -/
def ObservabilityConfig.look : Looker ObservabilityConfig :=
  ofSlots true
    [.setting "level" lookText fun c x => { c with level := x },
     .setting "use_otel" lookTruth fun c x => { c with useTraces := x },
     .setting "service_name" lookText fun c x => { c with serviceName := x },
     .setting "otel_endpoint" (orNull lookText) fun c x => { c with traceEndpoint := x }]
    .standard

/-- The section on metrics. -/
def MetricsConfig.look : Looker MetricsConfig :=
  ofSlots true
    [.setting "enabled" lookTruth fun c x => { c with enabled := x },
     .setting "listen_addr" lookSocketAddress fun c x => { c with listenAddress := x }]
    .standard

/-- A configuration in which only the endpoint of the source is given. -/
def Config.standard (endpoint : String) : Config where
  source := .standard endpoint
  store := .standard
  orchestrator := .standard
  relayer := .standard
  target := none
  retry := .standard
  keystore := .standard
  observability := .standard
  metrics := .standard

/-- A configuration. -/
def Config.look : Looker Config :=
  ofSlots true
    [(Slot.setting "source" SourceConfig.look fun c x => { c with source := x }).must,
     .setting "store" StoreSection.look fun c x => { c with store := x },
     .setting "orchestrator" OrchestratorConfig.look fun c x => { c with orchestrator := x },
     .setting "relayer" RelayerConfig.look fun c x => { c with relayer := x },
     .setting "target" (orNull TargetConfig.look) fun c x => { c with target := x },
     .setting "retry" RetryPolicy.look fun c x => { c with retry := x },
     .setting "keystore" KeystoreConfig.look fun c x => { c with keystore := x },
     .setting "observability" ObservabilityConfig.look fun c x => { c with observability := x },
     .setting "metrics" MetricsConfig.look fun c x => { c with metrics := x }]
    (.standard "")

/-! ### Texts -/

/-- **Why there is no configuration.** -/
inductive ConfigError where
  /-- The file cannot be read. -/
  | unreadable (path : String)
  /-- The text goes wrong at a place. -/
  | malformed (place : Place)
  /-- What was read makes no sense. -/
  | senseless (reason : String)
deriving DecidableEq

/-- The error in words. -/
def ConfigError.message : ConfigError → String
  | .unreadable path => "failed to read config file " ++ path
  | .malformed place => "config error at " ++ place.render
  | .senseless reason => reason

/-- The section that a text spells, given how it is looked at. -/
def lookAt {α : Type} (look : Looker α) (text : String) : Except Place α :=
  (look [] (Json.read (Bytes.ofText text))).result

/-- The configuration that a text spells, checked. -/
def Config.parse (text : String) : Except ConfigError Config :=
  match lookAt Config.look text with
  | .error place => .error (.malformed place)
  | .ok c =>
    match c.check with
    | .error reason => .error (.senseless reason)
    | .ok () => .ok c

end Countersign
