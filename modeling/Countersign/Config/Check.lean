import Countersign.Config.Basic
import Countersign.Text.Quoted

/-!
# Which configurations make sense

What is wrong with a configuration that was read, section by section; the first fault is reported,
behind the name of its section.
-/

namespace Countersign

/-- Whether a text is the address of a web service. -/
def isWebUrl (text : String) : Bool :=
  "http://".toList.isPrefixOf text.toList || "https://".toList.isPrefixOf text.toList

/-- What is wrong with the source. -/
def SourceConfig.check (c : SourceConfig) : Except String Unit :=
  if !isWebUrl c.endpoint then
    .error ("source endpoint must be an http(s) URL, got " ++ Text.quote c.endpoint)
  else if c.requestTimeout = 0 then .error "source request_timeout_ms must be greater than 0"
  else if c.pollInterval = 0 then .error "source poll_interval_ms must be greater than 0"
  else .ok ()

/-- What is wrong with the store. -/
def StoreSection.check (c : StoreSection) : Except String Unit :=
  match c.peers.find? fun peer => !isWebUrl peer with
  | some peer => .error ("store peer must be an http(s) URL, got " ++ Text.quote peer)
  | none => c.client.check

/-- What is wrong with the target. -/
def TargetConfig.check (c : TargetConfig) : Except String Unit :=
  if c.rpcUrl.isEmpty then .error "target rpc_url must not be empty"
  else if c.contractAddress = .zero then
    .error "target contract_address must not be the zero address"
  else if c.receiptTimeout = 0 then .error "target receipt_timeout_ms must be greater than 0"
  else .ok ()

/-- A fault behind the name of its section. -/
def inSection (name : String) (result : Except String Unit) : Except String Unit :=
  match result with
  | .ok () => .ok ()
  | .error e => .error ("invalid " ++ name ++ " config: " ++ e)

/-- What is wrong with a configuration. -/
def Config.check (c : Config) : Except String Unit := do
  inSection "source" c.source.check
  inSection "store" c.store.check
  inSection "orchestrator" c.orchestrator.check
  inSection "relayer" c.relayer.check
  match c.target with
  | some target => inSection "target" target.check
  | none => .ok ()
  inSection "retry" c.retry.check

/-- What is said where the target is missing. -/
def missingTarget : String := "the relayer needs a \x60target\x60 config section"

/-- The target, which relaying needs. -/
def Config.requireTarget (c : Config) : Except String TargetConfig :=
  match c.target with
  | some target => .ok target
  | none => .error missingTarget

end Countersign
