/-!
# Settings of the relayer

How often it looks for work, how long it waits for a quorum, whether it stands back for another
relayer at first, and how far it searches the past. Times are in milliseconds.
-/

namespace Countersign

/-- **Settings of a search in the past**: the distance between two heights, the greatest number of
heights, and the greatest number of nonces. Together they bound the questions that one search may
ask. -/
structure HistoryConfig where
  step : Nat
  maxDepth : Nat
  valsetSearchLimit : Nat
deriving DecidableEq

namespace HistoryConfig

/-- The settings where nothing else is said. -/
def standard : HistoryConfig := ⟨1000, 100, 1000⟩

/-- The greatest number of heights that may be asked for. -/
def greatestDepth : Nat := 10000

/-- What is wrong with settings, the first fault in words. -/
def check (config : HistoryConfig) : Except String Unit :=
  if config.step = 0 then .error "Historical step must be positive"
  else if greatestDepth < config.maxDepth then
    .error ("Historical depth must be at most " ++ toString greatestDepth ++ ", got " ++
      toString config.maxDepth)
  else .ok ()

end HistoryConfig

/-- **Settings of the relayer**, among them those of its searches. -/
structure RelayerConfig where
  pollInterval : Nat
  quorumTimeout : Nat
  backup : Bool
  backupGracePeriod : Nat
  history : HistoryConfig
deriving DecidableEq

namespace RelayerConfig

/-- The settings where nothing else is said. -/
def standard : RelayerConfig := ⟨10000, 1800000, false, 900000, .standard⟩

/-- What is wrong with settings, the first fault in words. -/
def check (config : RelayerConfig) : Except String Unit :=
  if config.pollInterval = 0 then .error "Relayer poll interval must be positive"
  else if config.quorumTimeout = 0 then .error "Quorum timeout must be positive"
  else config.history.check

end RelayerConfig

end Countersign
