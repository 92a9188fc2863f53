import Countersign.Config.Basic
import Countersign.Json.Printer

/-!
# How a configuration is written

All sections with all their fields, in a fixed order. Times are counts of milliseconds.
-/

namespace Countersign

/-- The section on the source. -/
def SourceConfig.toJson (c : SourceConfig) : Json :=
  .ofMembers [("endpoint", .ofString c.endpoint), ("request_timeout_ms", .ofNat c.requestTimeout),
    ("poll_interval_ms", .ofNat c.pollInterval)]

/-- The section on talking to the store. -/
def StoreConfig.toJson (c : StoreConfig) : Json :=
  .ofMembers [("request_timeout_ms", .ofNat c.requestTimeout),
    ("poll_interval_ms", .ofNat c.pollInterval), ("quorum_cache_capacity", .ofNat c.cacheCapacity)]

/-- The section on the store. -/
def StoreSection.toJson (c : StoreSection) : Json :=
  .ofMembers [("peers", .ofList (c.peers.map .ofString)),
    ("listen_addr", .ofString c.listenAddress.render), ("client", c.client.toJson)]

/-- The section on the orchestrator. -/
def OrchestratorConfig.toJson (c : OrchestratorConfig) : Json :=
  .ofMembers [("queue_size", .ofNat c.queueSize), ("requeue_queue_size", .ofNat c.requeueQueueSize),
    ("requeue_window", .ofNat c.requeueWindow), ("requeue_interval_ms", .ofNat c.requeueInterval),
    ("liveness_interval_ms", .ofNat c.livenessInterval)]

/-- The section on searching the past. -/
def HistoryConfig.toJson (c : HistoryConfig) : Json :=
  .ofMembers [("step", .ofNat c.step), ("max_depth", .ofNat c.maxDepth),
    ("valset_search_limit", .ofNat c.valsetSearchLimit)]

/-- The section on the relayer. -/
def RelayerConfig.toJson (c : RelayerConfig) : Json :=
  .ofMembers [("poll_interval_ms", .ofNat c.pollInterval),
    ("quorum_timeout_ms", .ofNat c.quorumTimeout), ("backup", .bool c.backup),
    ("backup_grace_period_ms", .ofNat c.backupGracePeriod), ("historical", c.history.toJson)]

/-- The section on the target. -/
def TargetConfig.toJson (c : TargetConfig) : Json :=
  .ofMembers [("rpc_url", .ofString c.rpcUrl),
    ("contract_address", .ofString c.contractAddress.render),
    ("receipt_timeout_ms", .ofNat c.receiptTimeout)]

/-- The section on trying again. -/
def RetryPolicy.toJson (c : RetryPolicy) : Json :=
  .ofMembers [("max_retries", .ofNat c.maxRetries), ("delay_ms", .ofNat c.delay)]

/-- The section on key files. -/
def KeystoreConfig.toJson (c : KeystoreConfig) : Json :=
  .ofMembers [("dir", .ofString c.directory), ("orchestrator_key", .ofString c.orchestratorKey),
    ("relayer_key", .ofString c.relayerKey)]

/-- The section on logging. -/
def ObservabilityConfig.toJson (c : ObservabilityConfig) : Json :=
  .ofMembers [("level", .ofString c.level), ("use_otel", .bool c.useTraces),
    ("service_name", .ofString c.serviceName),
    ("otel_endpoint", (c.traceEndpoint.map Json.ofString).getD .null)]

/-- The section on metrics. -/
def MetricsConfig.toJson (c : MetricsConfig) : Json :=
  .ofMembers [("enabled", .bool c.enabled), ("listen_addr", .ofString c.listenAddress.render)]

/-- A configuration. -/
def Config.toJson (c : Config) : Json :=
  .ofMembers [("source", c.source.toJson), ("store", c.store.toJson),
    ("orchestrator", c.orchestrator.toJson), ("relayer", c.relayer.toJson),
    ("target", (c.target.map TargetConfig.toJson).getD .null), ("retry", c.retry.toJson),
    ("keystore", c.keystore.toJson), ("observability", c.observability.toJson),
    ("metrics", c.metrics.toJson)]

/-- The text of a configuration. -/
def Config.encode (c : Config) : String := c.toJson.render

end Countersign
