import Countersign.Proofs.Store.Events
import Countersign.Proofs.Store.WriteRules

/-!
# Several replicas like a single one

Whoever uses replicas writes and reads, and sees nothing but the replies. A **transport**
(`Transport`) is a way of answering such calls. One transport **simulates** another
(`Transport.Simulates`) along a relation between their states, if related states answer a call in
the same way and are related behind it; then all runs have the same replies
(`Transport.Simulates.run`).

The first use of this: replicas in equal states, written and read together, simulate one of them
(`Overlay.simulates_standIn`). Equal states are those with the same records
(`Replica.Same`); in which order these were written does not show.

Replicas in different states are no single replica any more. What is left then concerns one write
(`Overlay.inProcess_refines_replica`): if it fails, it failed at every replica, so nothing has
changed; and a confirm whose write is a success is held by some replica from then on.
-/

namespace Countersign

/-! ### Transports -/

/-- **A way to replicas**: what a write and a read answer, and what a write changes. The state is
left open, so that one replica, several, and several across a network are all instances. -/
structure Transport (σ : Type) where
  put : σ → String → Bytes → σ × Except OverlayError Unit
  get : σ → String → Except OverlayError (List Bytes)

/-- **A call to replicas**, as somebody makes it who does not know how many there are. -/
inductive RecordCall where
  | put (key : String) (value : Bytes)
  | get (key : String)

/-- **The reply to a call.** This is all that such a caller sees. -/
inductive RecordReply where
  | put (answer : Except OverlayError Unit)
  | get (answer : Except OverlayError (List Bytes))

namespace Transport

variable {σ τ : Type} {related : σ → τ → Prop} {first : Transport σ} {second : Transport τ}

/-- One call: the state behind it, and the reply. A read leaves the state as it is. -/
def call (transport : Transport σ) (s : σ) : RecordCall → σ × RecordReply
  | .put key value => ((transport.put s key value).1, .put (transport.put s key value).2)
  | .get key => (s, .get (transport.get s key))

/-- Calls one after the other: the state behind them, and all replies in their order. -/
def run (transport : Transport σ) : σ → List RecordCall → σ × List RecordReply
  | s, [] => (s, [])
  | s, c :: calls =>
    let later := transport.run (transport.call s c).1 calls
    (later.1, (transport.call s c).2 :: later.2)

/-- **A relation of states that no call tells apart.** Related states answer alike, and a write
leads to related states again. -/
structure Simulates (related : σ → τ → Prop) (first : Transport σ) (second : Transport τ) :
    Prop where
  put : ∀ s t, related s t → ∀ key value,
    related (first.put s key value).1 (second.put t key value).1 ∧
      (first.put s key value).2 = (second.put t key value).2
  get : ∀ s t, related s t → ∀ key, first.get s key = second.get t key

/-- No call tells related states apart, be it a write or a read. -/
theorem Simulates.call (h : Simulates related first second) {s : σ} {t : τ} (hst : related s t)
    (c : RecordCall) :
    related (first.call s c).1 (second.call t c).1 ∧ (first.call s c).2 = (second.call t c).2 := by
  cases c with
  | put key value =>
    obtain ⟨hnext, hanswer⟩ := h.put s t hst key value
    exact ⟨hnext, congrArg RecordReply.put hanswer⟩
  | get key => exact ⟨hst, congrArg RecordReply.get (h.get s t hst key)⟩

/-- Nor does any run: related states stay related, and all replies are the same. -/
theorem Simulates.run (h : Simulates related first second) {s : σ} {t : τ} (hst : related s t)
    (calls : List RecordCall) :
    related (first.run s calls).1 (second.run t calls).1 ∧
      (first.run s calls).2 = (second.run t calls).2 := by
  induction calls generalizing s t with
  | nil => exact ⟨hst, rfl⟩
  | cons c calls ih =>
    obtain ⟨hnext, hreply⟩ := h.call hst c
    obtain ⟨hlater, hreplies⟩ := ih hnext
    refine ⟨hlater, ?_⟩
    show (first.call s c).2 :: _ = (second.call t c).2 :: _
    rw [hreply, hreplies]

end Transport

/-- Replicas in the same process, to which every call gets through. A read then never fails. -/
def Overlay.inProcess : Transport Overlay where
  put := Overlay.put
  get overlay key := .ok (overlay.get key)

/-- What a write to a single replica comes to, in the words of an overlay. The reason for a refusal
is the replica's own. -/
def soleVerdict : Option ValidationError → Except OverlayError Unit
  | none => .ok ()
  | some e => .error (.rejected e.message)

/-- A single replica that stands for several. It takes or refuses a record for all of them, and its
own record is read as often as there are replicas. -/
def Replica.standIn (count : Nat) : Transport Replica where
  put replica key value :=
    ((Overlay.putOne key value replica).1, soleVerdict (Overlay.putOne key value replica).2)
  get replica key := .ok ((replica.get? key).elim [] (List.replicate count))

/-! ### Replicas with the same records -/

/-- The same records in two replicas. They may differ in the order in which these were written,
which a list of records shows and no call does. -/
def Replica.Same (a b : Replica) : Prop :=
  ∀ key, a.get? key = b.get? key

/-- **The same write to replicas with the same records** has the same effect and the same answer.
The cases are those of the write itself. -/
theorem Replica.Same.putOne {a b : Replica} (h : a.Same b) (key : String) (value : Bytes) :
    (Overlay.putOne key value a).1.Same (Overlay.putOne key value b).1 ∧
      (Overlay.putOne key value a).2 = (Overlay.putOne key value b).2 := by
  -- Setting a record in both keeps them the same, wherever it comes to stand.
  have hset : (a.set key value).Same (b.set key value) := by
    intro other
    rw [get?_set, get?_set, h other]
  -- All that is looked at is the record and what is held under its key.
  unfold Overlay.putOne Replica.put
  rw [h key]
  cases validate key value with
  | error e => exact ⟨h, rfl⟩
  | ok _ =>
    cases b.get? key with
    | none => exact ⟨hset, rfl⟩
    | some held =>
      dsimp only
      by_cases hsame : held = value
      · rw [if_pos hsame, if_pos hsame]
        exact ⟨h, rfl⟩
      rw [if_neg hsame, if_neg hsame]
      cases select key [held, value] with
      | error e => exact ⟨h, rfl⟩
      | ok place =>
        -- The new record is chosen, or the one that is held; then a confirm is a conflict.
        match place with
        | 1 => exact ⟨hset, rfl⟩
        | 0 | _ + 2 =>
          cases Namespace.ofKey key with
          | error e => exact ⟨h, rfl⟩
          | ok space =>
            dsimp only
            cases space.isConfirm with
            | true => exact ⟨h, rfl⟩
            | false => exact ⟨h, rfl⟩

namespace Overlay

variable {overlay : Overlay} {replica : Replica}

/-- Replicas in equal states, those of a given replica. It may be one of them or not. -/
def AllSame (overlay : Overlay) (replica : Replica) : Prop :=
  ∀ r ∈ overlay, r.Same replica

/-- **Replicas that all answer alike** answer as one of them: they all take the record, or all
refuse it for the reason that is then reported. -/
theorem verdict_of_forall_eq {answers : List (Option ValidationError)} (hne : answers ≠ [])
    {answer : Option ValidationError} (h : ∀ x ∈ answers, x = answer) :
    verdict answers = soleVerdict answer := by
  obtain ⟨last, hlast⟩ := Option.ne_none_iff_exists'.mp (mt List.getLast?_eq_none_iff.mp hne)
  obtain rfl := h last (List.mem_of_getLast? hlast)
  unfold verdict
  cases last with
  | none =>
    rw [if_pos (List.any_eq_true.mpr ⟨none, List.mem_of_getLast? hlast, rfl⟩)]
    rfl
  | some e =>
    rw [if_neg, hlast]
    · rfl
    · intro hany
      obtain ⟨x, hx, hnone⟩ := List.any_eq_true.mp hany
      rw [h x hx] at hnone
      cases hnone

/-- Replicas in equal states hold the same under a key, each once. -/
theorem AllSame.get (h : overlay.AllSame replica) (key : String) :
    overlay.get key = (replica.get? key).elim [] (List.replicate overlay.length) := by
  have hall : ∀ r ∈ overlay, r.get? key = replica.get? key := fun r hr => h r hr key
  rw [Overlay.get, List.filterMap_congr hall]
  cases replica.get? key with
  | none => exact List.filterMap_eq_nil_iff.mpr fun _ _ => rfl
  | some value =>
    show overlay.filterMap (some ∘ fun _ => value) = List.replicate overlay.length value
    rw [List.filterMap_eq_map, List.map_const']

/-- The answers to a write, one of each replica. Every replica is asked, whatever the others
answer. -/
theorem put_eq (overlay : Overlay) (key : String) (value : Bytes) :
    overlay.put key value = (overlay.map fun r => (putOne key value r).1,
      verdict (overlay.map fun r => (putOne key value r).2)) := by
  simp only [put, List.map_map]
  rfl

/-- **Replicas in equal states simulate one of them**, however many they are. There has to be one,
because with none at all every write is unavailable. -/
theorem simulates_standIn {count : Nat} (hcount : count ≠ 0) :
    Transport.Simulates (fun overlay replica => overlay.length = count ∧ overlay.AllSame replica)
      inProcess (Replica.standIn count) where
  put := by
    rintro overlay replica ⟨hlength, hsame⟩ key value
    -- Every replica does what the single one does.
    have hdone : ∀ r ∈ overlay, (putOne key value r).1.Same (putOne key value replica).1 ∧
        (putOne key value r).2 = (putOne key value replica).2 :=
      fun r hr => (hsame r hr).putOne key value
    show ((overlay.put key value).1.length = count ∧
      AllSame (overlay.put key value).1 (putOne key value replica).1) ∧
        (overlay.put key value).2 = soleVerdict (putOne key value replica).2
    rw [put_eq]
    -- No replica is lost, all are in the state of the single one, and all gave its answer.
    refine ⟨⟨?_, ?_⟩, verdict_of_forall_eq ?_ ?_⟩
    · rw [List.length_map, hlength]
    · intro r hr
      obtain ⟨r', hr', rfl⟩ := List.mem_map.mp hr
      exact (hdone r' hr').1
    · intro hnil
      rw [List.map_eq_nil_iff] at hnil
      rw [hnil] at hlength
      exact hcount hlength.symm
    · intro answer hanswer
      obtain ⟨r', hr', rfl⟩ := List.mem_map.mp hanswer
      exact (hdone r' hr').2
  get := by
    rintro overlay replica ⟨rfl, hsame⟩ key
    exact congrArg Except.ok (hsame.get key)

/-! ### Replicas in any states -/

variable {key : String} {value : Bytes}

/-- **A write that fails** changes nothing. It fails if no replica took the record, and a replica
that refuses is left as it was. -/
theorem put_eq_self_of_error {error : OverlayError} (h : (overlay.put key value).2 = .error error) :
    (overlay.put key value).1 = overlay := by
  rw [put_eq] at h ⊢
  -- A replica that took the record would have made the write a success.
  have hrefused : ∀ r ∈ overlay, (putOne key value r).1 = r := by
    intro r hr
    cases hput : r.put key value with
    | error e => exact Replica.putOne_of_error hput
    | ok next =>
      have htaken : (putOne key value r).2 = none := by
        rw [putOne, hput]
      have hmem : none ∈ overlay.map fun r => (putOne key value r).2 :=
        List.mem_map.mpr ⟨r, hr, htaken⟩
      have hok : verdict (overlay.map fun r => (putOne key value r).2) = .ok () :=
        if_pos (List.any_eq_true.mpr ⟨none, hmem, rfl⟩)
      rw [hok] at h
      cases h
  exact (List.map_congr_left hrefused).trans (List.map_id' overlay)

/-- A confirm that was written with success is kept by some replica, namely by one that took it. -/
theorem keeps_of_put (hkey : IsConfirmKey key) (h : (overlay.put key value).2 = .ok ()) :
    (overlay.put key value).1.Keeps key value := by
  rw [put_eq] at h ⊢
  obtain ⟨i, hi⟩ := StoreEvent.exists_accepted_of_verdict h
  rw [List.getElem?_map, Option.map_eq_some_iff] at hi
  obtain ⟨r, hr, htaken⟩ := hi
  obtain ⟨haccepted, hheld⟩ := Replica.held_of_putOne_eq_none hkey htaken
  refine keeps_of_held (i := i) hkey haccepted ?_ hheld
  rw [List.getElem?_map, hr]
  rfl

/-- There are records that are taken and refused: a confirm by a replica without records, and bytes
under no proper key by every replica. -/
theorem exists_taken_refused : ∃ key value e, IsConfirmKey key ∧
    putOne key value Replica.empty = (Replica.empty.set key value, none) ∧
      ∀ r, putOne "" [] r = (r, some e) := by
  obtain ⟨target, root, c, -, -, -, -, hcheck, -⟩ := Store.exists_confirm
  obtain ⟨e, he⟩ : ∃ e, validate "" [] = .error e := ⟨_, rfl⟩
  refine ⟨Store.confirmKey c.kind target.nonce c.signer, Bytes.ofText c.encode, e,
    Store.isConfirmKey_confirmKey _ _ _, ?_, fun r => ?_⟩
  · rw [putOne, Replica.put, isAccepted_iff.mp (Store.isAccepted_encode hcheck)]
    rfl
  · rw [putOne, Replica.put, he]

/-- **An overlay is like a single replica, and a write to it fails as a whole.**

* Any number of replicas in equal states answer every run of calls as one of them does that stands
  for all. In particular a write succeeds exactly if it does there, and is otherwise refused for the
  reason given there; a read brings as many copies of the record as there are replicas, or nothing.
  Behind the run all replicas are in the state of that one.
* Whatever states the replicas are in, a write that fails changes none of them.
* Whatever states they are in, a confirm that is written with success is held by one of them, with
  exactly its bytes. Every later read brings it, whatever else is written in between. -/
theorem inProcess_refines_replica :
    (∀ (overlay : Overlay) (replica : Replica) (calls : List RecordCall), overlay ≠ [] →
      overlay.AllSame replica →
      (inProcess.run overlay calls).2 =
          ((Replica.standIn overlay.length).run replica calls).2 ∧
        AllSame (inProcess.run overlay calls).1
          ((Replica.standIn overlay.length).run replica calls).1) ∧
    (∀ (overlay : Overlay) (key : String) (value : Bytes) (error : OverlayError),
      (overlay.put key value).2 = .error error → (overlay.put key value).1 = overlay) ∧
    ∀ (overlay : Overlay) (key : String) (value : Bytes), IsConfirmKey key →
      (overlay.put key value).2 = .ok () →
      (∃ r ∈ (overlay.put key value).1, r.get? key = some value) ∧
        ∀ writes, value ∈ ((overlay.put key value).1.after writes).get key := by
  refine ⟨?_, fun overlay key value error h => put_eq_self_of_error h, ?_⟩
  · -- Replicas in equal states, by the simulation.
    intro overlay replica calls hne hsame
    have hcount : overlay.length ≠ 0 := mt List.length_eq_zero_iff.mp hne
    obtain ⟨⟨-, hstates⟩, hreplies⟩ := (simulates_standIn hcount).run ⟨rfl, hsame⟩ calls
    exact ⟨hreplies, hstates⟩
  · -- A confirm that one replica took is kept there, and every read asks that replica.
    intro overlay key value hkey hput
    have hkeeps := keeps_of_put hkey hput
    have hread : ∀ writes, value ∈ ((overlay.put key value).1.after writes).get key :=
      fun writes => hkeeps.mem_of_mayRead (mayRead_get _ writes key)
    refine ⟨?_, hread⟩
    obtain ⟨r, hr, hheld⟩ := List.mem_filterMap.mp (hread [])
    exact ⟨r, hr, hheld⟩

/-- **Two replicas without records**, one write that they take, and one that they refuse. The read
behind them brings the record twice, once from each. -/
theorem inProcess_refines_replica_of_two :
    ∃ key value error, IsConfirmKey key ∧ fresh 2 ≠ [] ∧ (fresh 2).AllSame Replica.empty ∧
      ((fresh 2).put key value).2 = .ok () ∧ ((fresh 2).put "" []).2 = .error error ∧
      (inProcess.run (fresh 2) [.put key value, .put "" [], .get key]).2 =
        [.put (.ok ()), .put (.error error), .get (.ok [value, value])] ∧
      ((fresh 2).put "" []).1 = fresh 2 ∧ value ∈ ((fresh 2).put key value).1.get key := by
  obtain ⟨key, value, e, hkey, htaken, hrefused⟩ := exists_taken_refused
  have hsame : (fresh 2).AllSame Replica.empty := by
    intro r hr
    obtain rfl := List.eq_of_mem_replicate hr
    exact fun _ => rfl
  have hheld : (Replica.empty.set key value).get? key = some value := by
    rw [Replica.get?_set, if_pos rfl]
  -- What the single replica does in the place of both.
  have hrun : ((Replica.standIn 2).run Replica.empty [.put key value, .put "" [], .get key]).2 =
      [.put (.ok ()), .put (.error (.rejected e.message)), .get (.ok [value, value])] := by
    simp only [Transport.run, Transport.call, Replica.standIn, htaken, hrefused, hheld]
    rfl
  -- Both replicas take the record, and then both refuse the one of no bytes.
  have hput : ((fresh 2).put key value).2 = .ok () := by
    rw [put_eq]
    show verdict [(putOne key value Replica.empty).2, (putOne key value Replica.empty).2] = _
    rw [htaken]
    rfl
  have hfailed : ((fresh 2).put "" []).2 = .error (.rejected e.message) := by
    rw [put_eq]
    show verdict [(putOne "" [] Replica.empty).2, (putOne "" [] Replica.empty).2] = _
    rw [hrefused]
    rfl
  have hne : fresh 2 ≠ [] := List.cons_ne_nil _ _
  obtain ⟨hlike, hunchanged, hkept⟩ := inProcess_refines_replica
  refine ⟨key, value, .rejected e.message, hkey, hne, hsame, hput, hfailed, ?_,
    hunchanged _ _ _ _ hfailed, (hkept _ _ _ hkey hput).2 []⟩
  exact (hlike _ _ _ hne hsame).1.trans hrun

end Overlay

end Countersign
