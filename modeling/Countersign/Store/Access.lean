import Countersign.Record.Encoding
import Countersign.Routine.Basic
import Countersign.Store.Config

/-!
# Reading and writing records

What the services do with the store, one record at a time. A record is checked before it is sent,
and what comes back is checked again, because a replica may hold anything: a confirm is the chosen
one among the candidates (`Store.queryOne`), the latest valset the one of greatest nonce
(`Store.latestValset`). Candidates that are not accepted count as nothing stored.
-/

namespace Countersign.Store

/-- Sending a record that is accepted to the replicas. A record that would be refused is not sent,
so a caller's mistake is told at once. -/
def putRecord (config : StoreConfig) (key : String) (value : Bytes) :
    Routine (Except StoreError Unit) :=
  match validate key value with
  | .error e => return .error (.invalid e)
  | .ok () => do
    match ← (Request.put key value config.requestTimeout).perform with
    | .error e => return .error (.overlay e)
    | .ok () => return .ok ()

/-- The candidates for a key: what the replicas that answered hold there, which may be anything. -/
def candidates (config : StoreConfig) (key : String) :
    Routine (Except StoreError (List Bytes)) := do
  match ← (Request.get key config.requestTimeout).perform with
  | .error e => return .error (.overlay e)
  | .ok values => return .ok values

/-- The key of a signer's confirm, as it is written. Everybody who writes or reads a confirm through
the store uses this one spelling. -/
def confirmKey (kind : AttestationKind) (nonce : UInt64) (signer : Address) : String :=
  (ConfirmKey.mk (.ofKind kind) nonce signer).render

/-- Publishing a confirm under its signer's key. Nonce and kind are in the key, and the rest is in
the record. -/
def putConfirm (config : StoreConfig) (nonce : UInt64) (confirm : Confirm) :
    Routine (Except StoreError Unit) :=
  putRecord config (confirmKey confirm.kind nonce confirm.signer) (Bytes.ofText confirm.encode)

/-- The chosen confirm among candidates, if there is one. Candidates of which none is accepted are
no failure: the confirm is then not there. -/
def chosenConfirm (kind : AttestationKind) (key : String) (values : List Bytes) :
    Except StoreError (Option Confirm) :=
  match (RecordRule.confirm kind).select key values with
  | .error (.noValidCandidate _) => .ok none
  | .error e => .error (.invalid e)
  | .ok place =>
    match decodeConfirm kind key (values.getD place []) with
    | .error e => .error (.invalid e)
    | .ok (_, confirm) => .ok (some confirm)

/-- The confirm that a signer published for a nonce, if there is one. It is accepted under the
signer's key, which for a valset's confirm does not mean that it verifies. -/
def queryOne (config : StoreConfig) (kind : AttestationKind) (nonce : UInt64) (signer : Address) :
    Routine (Except StoreError (Option Confirm)) := do
  let key := confirmKey kind nonce signer
  match ← candidates config key with
  | .error e => return .error e
  | .ok values => return chosenConfirm kind key values

/-- Publishing a valset as the latest. Replicas that hold a newer one keep it, and still the write
is a success. -/
def putLatestValset (config : StoreConfig) (valset : Valset) : Routine (Except StoreError Unit) :=
  match valset.encode? with
  | none => return .error .encode
  | some text => putRecord config latestValsetKey (Bytes.ofText text)

/-- The chosen latest valset among candidates, if there is one: the newest that is accepted. -/
def chosenValset (values : List Bytes) : Except StoreError (Option Valset) :=
  match select latestValsetKey values with
  | .error (.noValidCandidate _) => .ok none
  | .error e => .error (.invalid e)
  | .ok place =>
    match Valset.decode? (values.getD place []) with
    | none => .error (.invalid .undecodable)
    | some v => .ok (some v)

/-- The newest valset that the replicas know, if there is one. What no replica that answered knows
is not found. -/
def latestValset (config : StoreConfig) : Routine (Except StoreError (Option Valset)) := do
  match ← candidates config latestValsetKey with
  | .error e => return .error e
  | .ok values => return chosenValset values

end Countersign.Store
