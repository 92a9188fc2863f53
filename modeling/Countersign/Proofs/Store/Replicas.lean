import Countersign.Proofs.Store.Collecting
import Countersign.Proofs.Store.Writing

/-!
# What replicas hold

A confirm is written once. Whatever is written to a replica, by whom and in whatever order, the
record under the key of a confirm is the **first accepted one** that was written there, and it
stays (`Overlay.get?_after`). So what somebody wrote first under a validator's key decides what
this replica answers for that key from then on.

Writes are taken one replica at a time (`ReplicaWrite`). A write through the overlay reaches each of
them in turn (`StoreEvent.reaches_put`), but a replica may also be written directly, or miss a
write.
-/

namespace Countersign

/-! ### Records of confirms -/

namespace Store

variable {kind : AttestationKind} {nonce : UInt64} {signer : Address} {value : Bytes}

/-- A confirm is looked for under a key for confirms. -/
theorem isConfirmKey_confirmKey (kind : AttestationKind) (nonce : UInt64) (signer : Address) :
    IsConfirmKey (confirmKey kind nonce signer) :=
  ⟨_, Namespace.ofKey_render _, Namespace.isConfirm_ofKind kind⟩

/-- A record under a confirm's key is accepted if it decodes as a confirm of that kind, and for no
other reason. -/
theorem isAccepted_confirmKey :
    isAccepted (confirmKey kind nonce signer) value = true ↔
      ∃ k c, decodeConfirm kind (confirmKey kind nonce signer) value = .ok (k, c) :=
  isAccepted_iff.trans (validate_eq_ok_iff_of_ofKind kind (Namespace.ofKey_render _))

/-- A confirm's own record is accepted under its signer's key, if its signature passes what can be
checked of it. -/
theorem isAccepted_encode {c : Confirm} (h : c.checkSignature nonce = .ok ()) :
    isAccepted (confirmKey c.kind nonce c.signer) (Bytes.ofText c.encode) = true :=
  isAccepted_confirmKey.mpr ⟨_, _, decodeConfirm_encode h⟩

end Store

/-! ### Many writes to one replica -/

namespace Replica

/-- A replica after some writes, each with its key, one after the other. A write that is refused
leaves it as it was. -/
def after (replica : Replica) (writes : List (String × Bytes)) : Replica :=
  writes.foldl (fun r w => (Overlay.putOne w.1 w.2 r).1) replica

/-- Any number of writes leave a replica sound. -/
theorem Sound.after {replica : Replica} (h : replica.Sound) (writes : List (String × Bytes)) :
    (replica.after writes).Sound := by
  induction writes generalizing replica with
  | nil => exact h
  | cons w writes ih => exact ih (h.putOne w.1 w.2)

theorem after_append (replica : Replica) (writes later : List (String × Bytes)) :
    replica.after (writes ++ later) = (replica.after writes).after later :=
  List.foldl_append

/-- **An accepted record under a confirm's key stays**, whatever is written. The induction is on the
writes. -/
theorem get?_after_of_held {key : String} {held : Bytes} (hkey : IsConfirmKey key)
    (haccepted : isAccepted key held = true) {replica : Replica}
    (hheld : replica.get? key = some held) (writes : List (String × Bytes)) :
    (replica.after writes).get? key = some held := by
  induction writes generalizing replica with
  | nil => exact hheld
  | cons w writes ih =>
    obtain ⟨written, value⟩ := w
    have hfirst : (Overlay.putOne written value replica).1.get? key = some held := by
      by_cases hsame : key = written
      · subst hsame
        exact get?_putOne_of_held hkey haccepted hheld value
      · rw [get?_putOne_of_ne hsame]
        exact hheld
    exact ih hfirst

/-- **The record under a confirm's key** is what was held before, otherwise the first accepted
record that is written there. Of what is written later nothing is seen. -/
theorem get?_after {key : String} (hkey : IsConfirmKey key) {replica : Replica} (h : replica.Sound)
    (writes : List (String × Bytes)) :
    (replica.after writes).get? key = (replica.get? key).or
      (((writes.filter (·.1 = key)).map Prod.snd).find? (isAccepted key)) := by
  -- On the writes: the first of them is behind the replica for which the others are known.
  induction writes generalizing replica with
  | nil => exact Option.or_none.symm
  | cons w writes ih =>
    obtain ⟨written, value⟩ := w
    have hlater := ih (h.putOne written value)
    have hafter : replica.after ((written, value) :: writes) =
        (Overlay.putOne written value replica).1.after writes := rfl
    rw [hafter, hlater]
    by_cases hsame : written = key
    · subst hsame
      rw [get?_putOne_of_isConfirmKey hkey h, List.filter_cons_of_pos (by simp), List.map_cons,
        List.find?_cons, Option.or_assoc]
      congr 1
      cases isAccepted written value <;> simp
    · rw [get?_putOne_of_ne (Ne.symm hsame), List.filter_cons_of_neg (by simpa using hsame)]

end Replica

/-! ### Many writes to many replicas -/

/-- **A write to one replica**, by whomever, with any key and any bytes. -/
structure ReplicaWrite where
  replica : Nat
  key : String
  value : Bytes

namespace Overlay

/-- Replicas without records, as many as there are to be. -/
def fresh (count : Nat) : Overlay :=
  List.replicate count Replica.empty

/-- The replicas after a write to one of them. A write to a replica that does not exist changes
nothing. -/
def write (overlay : Overlay) (w : ReplicaWrite) : Overlay :=
  overlay.modify w.replica fun replica => (putOne w.key w.value replica).1

/-- The replicas after some writes, one after the other. -/
def after (overlay : Overlay) (writes : List ReplicaWrite) : Overlay :=
  writes.foldl write overlay

/-- The writes to one replica, in order. -/
def writesTo (i : Nat) (writes : List ReplicaWrite) : List (String × Bytes) :=
  (writes.filter (·.replica = i)).map fun w => (w.key, w.value)

theorem writesTo_append (i : Nat) (writes later : List ReplicaWrite) :
    writesTo i (writes ++ later) = writesTo i writes ++ writesTo i later := by
  rw [writesTo, List.filter_append, List.map_append]
  rfl

theorem after_append (overlay : Overlay) (writes later : List ReplicaWrite) :
    overlay.after (writes ++ later) = (overlay.after writes).after later :=
  List.foldl_append

/-- Each replica has the writes to it, and those to the others do not concern it. -/
theorem getElem?_after (overlay : Overlay) (writes : List ReplicaWrite) (i : Nat) :
    (overlay.after writes)[i]? = overlay[i]?.map (·.after (writesTo i writes)) := by
  induction writes generalizing overlay with
  | nil => exact Option.map_id.symm ▸ rfl
  | cons w writes ih =>
    have hafter : overlay.after (w :: writes) = (overlay.write w).after writes := rfl
    rw [hafter, ih, write, List.getElem?_modify]
    by_cases hi : w.replica = i
    · simp only [hi, if_true, writesTo, List.filter_cons_of_pos, decide_true]
      cases overlay[i]? <;> rfl
    · rw [writesTo, writesTo, List.filter_cons_of_neg (by simpa using hi)]
      simp only [hi, if_false]
      cases overlay[i]? <;> rfl

/-- Writes neither add replicas nor take any away. -/
theorem length_after (overlay : Overlay) (writes : List ReplicaWrite) :
    (overlay.after writes).length = overlay.length := by
  induction writes generalizing overlay with
  | nil => rfl
  | cons w writes ih => exact (ih _).trans (List.length_modify ..)

/-- The same write to each of the first replicas reaches each of them once. -/
theorem writesTo_range (i n : Nat) (key : String) (value : Bytes) :
    writesTo i ((List.range n).map fun i => ⟨i, key, value⟩) =
      if i < n then [(key, value)] else [] := by
  induction n with
  | zero => rfl
  | succ n ih =>
    rw [writesTo] at ih ⊢
    rw [List.range_succ, List.map_append, List.filter_append, List.map_append, ih]
    by_cases hi : i = n
    · simp [hi]
    · have hlt : i < n + 1 ↔ i < n := by omega
      simp [hlt, Ne.symm hi]

variable {kind : AttestationKind} {nonce : UInt64} {signer : Address}

/-- The first accepted record that was written to a replica under a confirm's key. It is computed
from the writes, without following the replica through them. -/
def firstAccepted (kind : AttestationKind) (nonce : UInt64) (signer : Address) (i : Nat)
    (writes : List ReplicaWrite) : Option Bytes :=
  (((writesTo i writes).filter (·.1 = Store.confirmKey kind nonce signer)).map Prod.snd).find?
    (isAccepted (Store.confirmKey kind nonce signer))

/-- The record of a replica under a confirm's key is the first accepted one that was written to it
there. -/
theorem get?_after (count : Nat) (writes : List ReplicaWrite) {i : Nat} {replica : Replica}
    (hi : ((fresh count).after writes)[i]? = some replica) :
    replica.get? (Store.confirmKey kind nonce signer) =
      firstAccepted kind nonce signer i writes := by
  rw [getElem?_after] at hi
  obtain ⟨start, hstart, rfl⟩ := Option.map_eq_some_iff.mp hi
  have hempty : start = Replica.empty := List.eq_of_mem_replicate (List.mem_of_getElem? hstart)
  rw [hempty, Replica.get?_after (Store.isConfirmKey_confirmKey kind nonce signer)
    Replica.sound_empty, Replica.get?_empty, Option.none_or]
  rfl

end Overlay

end Countersign
