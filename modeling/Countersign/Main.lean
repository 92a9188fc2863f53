import Countersign.CommandLine
import Countersign.Program.Startup

/-!
# The program

Arguments, files, the environment and random bytes are fetched here; what is done with them is
decided by `CommandLine.parse`, `Config.parse` and `Startup`. Key commands do their whole work. A
service is brought to the point at which it would first talk to anything, and its address is shown.
-/

namespace Countersign.Program

/-- The contents of a file, if it can be read. -/
def contents (path : String) : IO (Option Bytes) := do
  match ← (IO.FS.readBinFile path).toBaseIO with
  | .ok content => return some content.toList
  | .error _ => return none

/-- One key file, as all the files there are. -/
def keyFile (path : String) : IO KeyFiles := do
  let content ← contents path
  return fun other => if other = path then content else none

/-- Random bytes. -/
def random (count : Nat) : IO Bytes := do
  return (← IO.getRandomBytes (USize.ofNat count)).toList

/-- A random secret key. Almost all bytes spell one, so few draws are enough. -/
def randomKey : (draws : Nat) → IO Ecdsa.SecretKey
  | 0 => throw (IO.userError "no key could be drawn")
  | draws + 1 => do
    match Ecdsa.SecretKey.ofBytes? (← random 32) with
    | some key => return key
    | none => randomKey draws

/-- A configuration from its file. -/
def config (path : String) : IO (Except ConfigError Config) := do
  match (← contents path).bind Bytes.toText? with
  | some text => return Config.parse text
  | none => return .error (.unreadable path)

/-- A result, or its error in words as a failure. -/
def orThrow {ε α : Type} (message : ε → String) : Except ε α → IO α
  | .ok a => return a
  | .error e => throw (IO.userError (message e))

/-- The password of the key files. -/
def password : IO String := do
  orThrow id (requirePassword (← IO.getEnv passwordVariable))

/-- A new key file. -/
def addKey (options : KeyOptions) : IO Address := do
  let path := joinPath options.directory options.name
  let files ← keyFile path
  let (text, address) ← orThrow StartupError.message
    (Startup.addKey files path options.password (← randomKey 16) (← random 32) (← random 16)
      (← random 16))
  IO.FS.createDirAll options.directory
  IO.FS.writeBinFile path (ByteArray.mk (Bytes.ofText text).toArray)
  return address

/-- The address of a key file. -/
def showKey (options : KeyOptions) : IO Address := do
  let path := joinPath options.directory options.name
  orThrow StartupError.message (Startup.showKey (← keyFile path) path options.password)

/-- An orchestrator made ready. -/
def startOrchestrator (path : String) : IO Address := do
  let c ← orThrow ConfigError.message (← config path)
  let password ← password
  let files ← keyFile c.keystore.orchestratorPath
  let identity ← orThrow StartupError.message (Startup.orchestrator c files password)
  return identity.address

/-- A relayer made ready. -/
def startRelayer (path : String) : IO Address := do
  let c ← orThrow ConfigError.message (← config path)
  let password ← password
  let files ← keyFile c.keystore.relayerPath
  let (_, identity) ← orThrow StartupError.message (Startup.relayer c files password)
  return identity.address

/-- Doing what a command says: what is to be shown. -/
def perform : Command → IO String
  | .startOrchestrator path => return (← startOrchestrator path).checksummed
  | .startRelayer path => return (← startRelayer path).checksummed
  | .serveStore path => do
    let c ← orThrow ConfigError.message (← config path)
    return c.store.listenAddress.render
  | .addKey options => return (← addKey options).checksummed
  | .showKey options => return (← showKey options).checksummed

/-- **Doing what arguments ask for**, and the code with which the program ends: 2 after a fault of
the arguments, 1 after any other failure. -/
def run (arguments : List String) : IO UInt32 := do
  match CommandLine.parse (← IO.getEnv passwordVariable) arguments with
  | .error e =>
    if e.isRequest then
      IO.println e.message
      return 0
    else
      IO.eprintln e.message
      return 2
  | .ok command =>
    match ← (perform command).toBaseIO with
    | .ok line =>
      IO.println line
      return 0
    | .error e =>
      IO.eprintln ("Error: " ++ e.toString)
      return 1

end Countersign.Program

/-- The program. -/
def main (arguments : List String) : IO UInt32 :=
  Countersign.Program.run arguments
