import Countersign.Config.Decoding
import Countersign.Keystore
import Countersign.Net.WebUrl
import Countersign.Source.Node
import Countersign.Store.Peers

/-!
# Starting a service

What must be in place before a service begins: its key can be unlocked, and everything it is to talk
to has an address that makes sense. `Startup.orchestrator` and `Startup.relayer` look at these
things in a fixed order and stop at the first that is missing; nothing is connected to yet. Key
files are given as a function from paths to their contents.
-/

namespace Countersign

/-- Key files by their paths. -/
abbrev KeyFiles := String → Option Bytes

/-- **Why a service or a key command cannot do its work.** -/
inductive StartupError where
  | noTarget
  | keystore (path : String)
  | source (endpoint : String) (error : SourceError)
  | noPeers
  | overlay (error : OverlayError)
  | targetEndpoint (endpoint : String)
  | keystoreExists (path : String)
deriving DecidableEq

/-- The error in words. -/
def StartupError.message : StartupError → String
  | .noTarget => missingTarget
  | .keystore path => "failed to unlock keystore " ++ path
  | .source endpoint e => "invalid source endpoint " ++ endpoint ++ ": " ++ e.message
  | .noPeers => "store.peers must list at least one replica"
  | .overlay e => e.message
  | .targetEndpoint endpoint => "failed to connect to " ++ endpoint
  | .keystoreExists path => "keystore " ++ path ++ " already exists"

namespace Startup

/-- Unlocking a key. -/
def unlock (files : KeyFiles) (path password : String) : Except StartupError Identity :=
  match Keystore.unlock (files path) password with
  | .ok identity => .ok identity
  | .error _ => .error (.keystore path)

/-- A client of the source, not connected yet. -/
def source (c : Config) : Except StartupError NodeClient :=
  match NodeClient.connect c.source.endpoint with
  | .ok client => .ok client
  | .error e => .error (.source c.source.endpoint e)

/-- The peers of the store, of which there must be some. -/
def peers (c : Config) : Except StartupError Peers :=
  if c.store.peers.isEmpty then .error .noPeers
  else
    match Peers.connect c.store.peers with
    | .ok peers => .ok peers
    | .error e => .error (.overlay e)

/-- Starting the orchestrator: the identity it signs with. -/
def orchestrator (c : Config) (files : KeyFiles) (password : String) :
    Except StartupError Identity := do
  let identity ← unlock files c.keystore.orchestratorPath password
  let _ ← source c
  let _ ← peers c
  return identity

/-- Starting the relayer: the target and the identity that pays for its transactions. -/
def relayer (c : Config) (files : KeyFiles) (password : String) :
    Except StartupError (TargetConfig × Identity) := do
  match c.target with
  | none => .error .noTarget
  | some target =>
    let identity ← unlock files c.keystore.relayerPath password
    if !WebUrl.isConnectable target.rpcUrl then .error (.targetEndpoint target.rpcUrl)
    else
      let _ ← source c
      let _ ← peers c
      return (target, identity)

/-- The address of a key file. -/
def showKey (files : KeyFiles) (path password : String) : Except StartupError Address :=
  match unlock files path password with
  | .ok identity => .ok identity.address
  | .error e => .error e

/-- A new key file, where there was none: its text and its address. What is random is given: the
key, the salt, the start of the cipher and the identifier. -/
def addKey (files : KeyFiles) (path password : String) (key : Ecdsa.SecretKey)
    (salt iv id : Bytes) : Except StartupError (String × Address) :=
  if (files path).isSome then .error (.keystoreExists path)
  else
    .ok ((Keystore.encrypt key password salt iv).encode (Keystore.identifier id), Address.ofKey key)

end Startup

end Countersign
