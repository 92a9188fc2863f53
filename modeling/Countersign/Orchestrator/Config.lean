/-!
# Settings of the orchestrator

The sizes of its two queues, how far behind the latest nonce a failed one is still put back, and the
periods of its two clocks, in milliseconds.
-/

namespace Countersign

/-- **Settings of the orchestrator.** The window is counted in nonces, and everything else in places
or milliseconds. -/
structure OrchestratorConfig where
  queueSize : Nat
  requeueQueueSize : Nat
  requeueWindow : Nat
  requeueInterval : Nat
  livenessInterval : Nat
deriving DecidableEq

namespace OrchestratorConfig

/-- The settings where nothing else is said: queues of a thousand, a window of fifty nonces, a
minute and half a minute. -/
def standard : OrchestratorConfig := ⟨1000, 1000, 50, 60000, 30000⟩

/-- What is wrong with settings, the first fault in words. -/
def check (config : OrchestratorConfig) : Except String Unit :=
  if config.queueSize = 0 then .error "Orchestrator queue size must be positive"
  else if config.requeueQueueSize = 0 then
    .error "Orchestrator requeue queue size must be positive"
  else if config.requeueInterval = 0 then .error "Requeue interval must be positive"
  else if config.livenessInterval = 0 then .error "Liveness interval must be positive"
  else .ok ()

end OrchestratorConfig

end Countersign
