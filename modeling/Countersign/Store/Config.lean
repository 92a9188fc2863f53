/-!
# Settings of the store

How long a single request may take, how often a quorum is looked for, and how many quorums are
remembered. Times are in milliseconds.
-/

namespace Countersign

/-- **Settings of the store.** All services that share a store may have settings of their own. -/
structure StoreConfig where
  requestTimeout : Nat
  pollInterval : Nat
  cacheCapacity : Nat
deriving DecidableEq

namespace StoreConfig

/-- The settings where nothing else is said: ten seconds for a request, a poll each second, a
thousand quorums. -/
def standard : StoreConfig := ⟨10000, 1000, 1000⟩

/-- The greatest number of quorums that may be remembered. Zero is a capacity, too. -/
def maxCacheCapacity : Nat := 1000000

/-- What is wrong with settings, the first fault in words. -/
def check (config : StoreConfig) : Except String Unit :=
  if config.requestTimeout = 0 then .error "Store request timeout must be positive"
  else if config.pollInterval = 0 then .error "Store poll interval must be positive"
  else if maxCacheCapacity < config.cacheCapacity then
    .error ("Quorum cache capacity must be at most " ++ toString maxCacheCapacity ++ ", got " ++
      toString config.cacheCapacity)
  else .ok ()

end StoreConfig

end Countersign
