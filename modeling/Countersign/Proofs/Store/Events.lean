import Countersign.Proofs.Store.Polling
import Countersign.Proofs.Store.Replicas
import Mathlib.Data.List.Basic

/-!
# Replicas while routines read and write

A routine that uses the store is not alone: anybody may write to any replica before, during and
after its run. What happens is a list of events (`StoreEvent`), writes to single replicas and the
exchanges of the routine. Three conditions say what exchanges have to do with replicas:

* `StoreEvent.ReadsHeld`: what is read was held by some replica at this moment;
* `StoreEvent.PutsReach`: a record that was put with success had been written to every replica, one
  after the other, and one of them accepted it;
* `Overlay.MayRead`: a read asks every replica, each at its own moment, and brings what they hold.

The writes that a routine itself causes are among the events, like those of others.
-/

namespace Countersign

open Routine

/-! ### Runs while others write -/

/-- **What happens while a routine runs**: somebody writes to a replica, or the routine exchanges.
What the routine itself sends reaches replicas as writes, too. -/
inductive StoreEvent where
  | write (w : ReplicaWrite)
  | exchange (e : Exchange)

namespace StoreEvent

/-- The writes among events, in order. They say what the replicas hold (`Overlay.after`). -/
def writes (events : List StoreEvent) : List ReplicaWrite :=
  events.filterMap fun
    | .write w => some w
    | .exchange _ => none

/-- The exchanges among events, in order. They are the course of the routine. -/
def exchanges (events : List StoreEvent) : List Exchange :=
  events.filterMap fun
    | .write _ => none
    | .exchange e => some e

@[simp] theorem writes_append (first second : List StoreEvent) :
    writes (first ++ second) = writes first ++ writes second :=
  List.filterMap_append

@[simp] theorem exchanges_append (first second : List StoreEvent) :
    exchanges (first ++ second) = exchanges first ++ exchanges second :=
  List.filterMap_append

@[simp] theorem writes_map_write {α : Type} (f : α → ReplicaWrite) (xs : List α) :
    writes (xs.map fun x => .write (f x)) = xs.map f := by
  rw [writes, List.filterMap_map]
  exact congrFun List.filterMap_eq_map xs

@[simp] theorem exchanges_map_write {α : Type} (f : α → ReplicaWrite) (xs : List α) :
    exchanges (xs.map fun x => .write (f x)) = [] := by
  rw [exchanges, List.filterMap_map, List.filterMap_eq_nil_iff]
  intro x _
  rfl

@[simp] theorem writes_map_exchange (course : List Exchange) :
    writes (course.map .exchange) = [] := by
  rw [writes, List.filterMap_map, List.filterMap_eq_nil_iff]
  intro e _
  rfl

@[simp] theorem exchanges_map_exchange (course : List Exchange) :
    exchanges (course.map .exchange) = course := by
  rw [exchanges, List.filterMap_map]
  exact List.filterMap_some

/-- An exchange of the course stands among the events. -/
theorem mem_exchanges {events : List StoreEvent} {e : Exchange} (h : e ∈ exchanges events) :
    .exchange e ∈ events := by
  obtain ⟨event, hmem, heq⟩ := List.mem_filterMap.mp h
  cases event with
  | write w => cases heq
  | exchange e' =>
    obtain rfl := Option.some.inj heq
    exact hmem

/-- Candidates are records that replicas hold when they are read. Not every replica needs to answer,
so nothing is said about how many of them there are. -/
def ReadsHeld (count : Nat) (events : List StoreEvent) : Prop :=
  ∀ before key timeout values after,
    events = before ++ .exchange ⟨.get key timeout, .ok values⟩ :: after →
      ∀ value ∈ values, value ∈ ((Overlay.fresh count).after (writes before)).get key

/-- Some writes and then a routine that is left to itself. The witnesses whose replicas do not
change meanwhile are of this form. -/
def thenExchanges (writes : List ReplicaWrite) (course : List Exchange) : List StoreEvent :=
  writes.map .write ++ course.map .exchange

@[simp] theorem writes_thenExchanges (ws : List ReplicaWrite) (course : List Exchange) :
    writes (thenExchanges ws course) = ws := by
  rw [thenExchanges, writes_append, writes_map_exchange, List.append_nil]
  exact (writes_map_write id ws).trans (List.map_id ws)

@[simp] theorem exchanges_thenExchanges (ws : List ReplicaWrite) (course : List Exchange) :
    exchanges (thenExchanges ws course) = course := by
  rw [thenExchanges, exchanges_append, exchanges_map_exchange]
  exact congrArg (· ++ course) (exchanges_map_write id ws)

/-- An exchange of such a routine has all of the writes before it. -/
theorem thenExchanges_eq_append {ws : List ReplicaWrite} {course : List Exchange}
    {before after : List StoreEvent} {e : Exchange}
    (h : thenExchanges ws course = before ++ .exchange e :: after) :
    ∃ earlier later, course = earlier ++ e :: later ∧ before = thenExchanges ws earlier := by
  induction ws generalizing before with
  | nil =>
    obtain ⟨earlier, rest, rfl, rfl, hrest⟩ := List.map_eq_append_iff.mp h
    obtain ⟨e', later, rfl, heq, -⟩ := List.map_eq_cons_iff.mp hrest
    cases heq
    exact ⟨earlier, later, rfl, rfl⟩
  | cons w ws ih =>
    -- The first event is a write, not the one that was singled out.
    cases before with
    | nil => cases (List.cons.inj h).1
    | cons event before =>
      obtain ⟨rfl, hrest⟩ := List.cons.inj h
      obtain ⟨earlier, later, hcourse, rfl⟩ := ih hrest
      exact ⟨earlier, later, hcourse, rfl⟩

/-- A routine that is left to itself reads the same records at any time. -/
theorem readsHeld_thenExchanges {count : Nat} {ws : List ReplicaWrite} {course : List Exchange}
    (h : ∀ key timeout values, ⟨.get key timeout, .ok values⟩ ∈ course →
      ∀ value ∈ values, value ∈ ((Overlay.fresh count).after ws).get key) :
    ReadsHeld count (thenExchanges ws course) := by
  intro before key timeout values after hsplit
  obtain ⟨earlier, later, rfl, rfl⟩ := thenExchanges_eq_append hsplit
  rw [writes_thenExchanges]
  exact h key timeout values (List.mem_append_right _ List.mem_cons_self)

end StoreEvent

/-! ### A record that is there to stay -/

namespace Overlay

/-- A record that is kept: one of the replicas holds it, whatever is written to them afterwards. -/
def Keeps (overlay : Overlay) (key : String) (value : Bytes) : Prop :=
  ∃ i < overlay.length, ∀ writes replica, (overlay.after writes)[i]? = some replica →
    replica.get? key = some value

variable {overlay : Overlay} {key : String} {value : Bytes}

/-- What is kept is kept behind more writes, too. -/
theorem Keeps.after (h : overlay.Keeps key value) (writes : List ReplicaWrite) :
    (overlay.after writes).Keeps key value := by
  obtain ⟨i, hi, hheld⟩ := h
  refine ⟨i, ?_, fun later replica hreplica => ?_⟩
  · rw [length_after]
    exact hi
  · rw [← after_append] at hreplica
    exact hheld _ _ hreplica

/-- An accepted confirm is kept by the replica that holds it, since a replica replaces no confirm
that it has accepted. -/
theorem keeps_of_held (hkey : IsConfirmKey key) (haccepted : isAccepted key value = true) {i : Nat}
    {replica : Replica} (hi : overlay[i]? = some replica) (hheld : replica.get? key = some value) :
    overlay.Keeps key value := by
  refine ⟨i, (List.getElem?_eq_some_iff.mp hi).1, fun writes later hlater => ?_⟩
  rw [getElem?_after, hi, Option.map_some] at hlater
  rw [← Option.some.inj hlater]
  exact Replica.get?_after_of_held hkey haccepted hheld _

/-- What a read may bring. Each replica is asked at a moment of its own, when anything may have been
written, and what they hold comes in their order. -/
def MayRead (overlay : Overlay) (key : String) (values : List Bytes) : Prop :=
  ∃ moments : Nat → List ReplicaWrite,
    values = (List.range overlay.length).filterMap fun i =>
      ((overlay.after (moments i))[i]?).bind (·.get? key)

/-- A record that is kept is read, at whatever moment its replica is asked. -/
theorem Keeps.mem_of_mayRead (h : overlay.Keeps key value) {values : List Bytes}
    (hread : overlay.MayRead key values) : value ∈ values := by
  obtain ⟨i, hi, hheld⟩ := h
  obtain ⟨moments, rfl⟩ := hread
  refine List.mem_filterMap.mpr ⟨i, List.mem_range.mpr hi, ?_⟩
  have hlt : i < (overlay.after (moments i)).length := by
    rw [length_after]
    exact hi
  have hreplica := List.getElem?_eq_getElem hlt
  rw [hreplica, Option.bind_some]
  exact hheld _ _ hreplica

/-- Going through a list by its places is going through the list. -/
theorem filterMap_range_getElem? {α β : Type} (f : α → Option β) (xs : List α) :
    (List.range xs.length).filterMap (fun i => (xs[i]?).bind f) = xs.filterMap f := by
  induction xs with
  | nil => rfl
  | cons x xs ih =>
    rw [List.length_cons, List.range_succ_eq_map, List.filterMap_cons, List.filterMap_map,
      List.filterMap_cons, ← ih]
    rfl

/-- Asking all replicas at the same moment is one way to read. -/
theorem mayRead_get (overlay : Overlay) (writes : List ReplicaWrite) (key : String) :
    overlay.MayRead key ((overlay.after writes).get key) := by
  refine ⟨fun _ => writes, ?_⟩
  rw [get, ← filterMap_range_getElem?, length_after]

end Overlay

/-! ### Writing to every replica -/

namespace StoreEvent

/-- A record reached the replicas: each of them was written at some moment, and what they answered
comes to a success. Between these moments others may have written. -/
def Reaches (overlay : Overlay) (before : List StoreEvent) (key : String) (value : Bytes) : Prop :=
  ∃ answers : List (Option ValidationError), answers.length = overlay.length ∧
    Overlay.verdict answers = .ok () ∧
    ∀ i answer, answers[i]? = some answer → ∃ earlier later,
      before = earlier ++ .write ⟨i, key, value⟩ :: later ∧
      ∀ replica, (overlay.after (writes earlier))[i]? = some replica →
        (Overlay.putOne key value replica).2 = answer

/-- What is put with success reached the replicas before. Of a put that fails nothing is known. -/
def PutsReach (overlay : Overlay) (events : List StoreEvent) : Prop :=
  ∀ before key value limit after,
    events = before ++ .exchange ⟨.put key value limit, .ok ()⟩ :: after →
      Reaches overlay before key value

variable {overlay : Overlay} {before : List StoreEvent} {key : String} {value : Bytes}

/-- Success means that some replica accepted. That is all that the overlay asks for. -/
theorem exists_accepted_of_verdict {answers : List (Option ValidationError)}
    (h : Overlay.verdict answers = .ok ()) : ∃ i : Nat, answers[i]? = some none := by
  rw [Overlay.verdict] at h
  split at h
  · next hany =>
    obtain ⟨answer, hmem, hnone⟩ := List.any_eq_true.mp hany
    rw [Option.isNone_iff_eq_none] at hnone
    subst hnone
    exact List.mem_iff_getElem?.mp hmem
  · split at h
    · cases h
    · cases h

/-- **A confirm that reached the replicas** is accepted, and kept by one of them from then on. -/
theorem Reaches.keeps (h : Reaches overlay before key value) (hkey : IsConfirmKey key) :
    (overlay.after (writes before)).Keeps key value := by
  obtain ⟨answers, hlength, hverdict, hanswers⟩ := h
  obtain ⟨i, hi⟩ := exists_accepted_of_verdict hverdict
  obtain ⟨earlier, later, rfl, hput⟩ := hanswers i none hi
  have hlt : i < (overlay.after (writes earlier)).length := by
    rw [Overlay.length_after, ← hlength]
    exact (List.getElem?_eq_some_iff.mp hi).1
  have hreplica := List.getElem?_eq_getElem hlt
  obtain ⟨haccepted, hheld⟩ := Replica.held_of_putOne_eq_none hkey (hput _ hreplica)
  -- The replica took the record at once, and the later writes leave it there.
  have htaken : ((overlay.after (writes earlier)).write ⟨i, key, value⟩).Keeps key value := by
    refine Overlay.keeps_of_held (i := i) hkey haccepted ?_ hheld
    rw [Overlay.write, List.getElem?_modify, hreplica]
    exact congrArg some (if_pos rfl)
  have hwrites : writes (earlier ++ .write ⟨i, key, value⟩ :: later) =
      writes earlier ++ ⟨i, key, value⟩ :: writes later := writes_append ..
  rw [hwrites, Overlay.after_append]
  exact htaken.after (writes later)

/-- **Writing through the overlay** reaches the replicas, if it is a success. So the overlay of this
library does what `Reaches` asks of any. -/
theorem reaches_put (h : ((overlay.after (writes before)).put key value).2 = .ok ()) :
    Reaches overlay
      (before ++ (List.range overlay.length).map fun i => .write ⟨i, key, value⟩) key value := by
  refine ⟨((overlay.after (writes before)).map (Overlay.putOne key value)).map Prod.snd, ?_, h,
    fun i answer hanswer => ?_⟩
  · rw [List.length_map, List.length_map, Overlay.length_after]
  rw [List.map_map, List.getElem?_map, Option.map_eq_some_iff] at hanswer
  obtain ⟨replica, hreplica, hput⟩ := hanswer
  have hlt : i < overlay.length := by
    rw [← Overlay.length_after overlay (writes before)]
    exact (List.getElem?_eq_some_iff.mp hreplica).1
  -- The replicas are written in their order, so the list of writes is cut at the one to this
  -- replica.
  obtain ⟨later, hrange⟩ : ∃ later, List.range overlay.length = List.range i ++ i :: later := by
    obtain ⟨rest, hlength⟩ : ∃ rest, overlay.length = i + (rest + 1) :=
      ⟨overlay.length - i - 1, by omega⟩
    refine ⟨(List.range rest).map fun k => i + (k + 1), ?_⟩
    rw [hlength, List.range_add, List.range_succ_eq_map, List.map_cons, List.map_map]
    rfl
  refine ⟨before ++ (List.range i).map fun i => .write ⟨i, key, value⟩,
    later.map fun i => .write ⟨i, key, value⟩, ?_, fun found hfound => ?_⟩
  · rw [hrange, List.map_append, List.map_cons, List.append_assoc]
  · -- Only the replicas in front of this one were written since.
    rw [writes_append, writes_map_write, Overlay.getElem?_after, Overlay.writesTo_append,
      Overlay.writesTo_range, if_neg (Nat.lt_irrefl i), List.append_nil, ← Overlay.getElem?_after,
      hreplica] at hfound
    rw [← Option.some.inj hfound]
    exact hput

/-- A routine that is left to itself and puts one record among its exchanges. The write reaches all
replicas before it is answered. -/
def withPut (overlay : Overlay) (earlier : List Exchange) (key : String) (value : Bytes)
    (limit : Nat) (later : List Exchange) : List StoreEvent :=
  (earlier.map .exchange ++ (List.range overlay.length).map fun i => .write ⟨i, key, value⟩) ++
    .exchange ⟨.put key value limit, .ok ()⟩ :: later.map .exchange

variable {earlier later : List Exchange} {limit : Nat}

@[simp] theorem exchanges_withPut :
    exchanges (withPut overlay earlier key value limit later) =
      earlier ++ ⟨.put key value limit, .ok ()⟩ :: later := by
  have hput : exchanges (.exchange ⟨.put key value limit, .ok ()⟩ :: later.map .exchange) =
      ⟨.put key value limit, .ok ()⟩ :: later :=
    exchanges_map_exchange (⟨.put key value limit, .ok ()⟩ :: later)
  rw [withPut, exchanges_append, exchanges_append, hput, exchanges_map_exchange,
    exchanges_map_write, List.append_nil]

@[simp] theorem writes_withPut :
    writes (withPut overlay earlier key value limit later) =
      (List.range overlay.length).map fun i => ⟨i, key, value⟩ := by
  have hput : writes (.exchange ⟨.put key value limit, .ok ()⟩ :: later.map .exchange) = [] :=
    writes_map_exchange (⟨.put key value limit, .ok ()⟩ :: later)
  rw [withPut, writes_append, writes_append, hput, writes_map_exchange, writes_map_write,
    List.nil_append, List.append_nil]

/-- **What it puts reaches the replicas**, if these take the record, and none of the other puts is
answered with success. -/
theorem putsReach_withPut (h : (overlay.put key value).2 = .ok ())
    (hearlier : ∀ key value limit, ⟨.put key value limit, .ok ()⟩ ∉ earlier)
    (hlater : ∀ key value limit, ⟨.put key value limit, .ok ()⟩ ∉ later) :
    PutsReach overlay (withPut overlay earlier key value limit later) := by
  intro before key' value' limit' after hsplit
  -- There is only one put that succeeded.
  have hsame := (List.append_cons_inj_of_notMem (fun hmem => ?_) (fun hmem => ?_)).mp hsplit
  · obtain ⟨rfl, heq, -⟩ := hsame
    cases heq
    refine reaches_put ?_
    rw [writes_map_exchange]
    exact h
  · rcases List.mem_append.mp hmem with hmem | hmem
    · obtain ⟨e, he, heq⟩ := List.mem_map.mp hmem
      obtain rfl := StoreEvent.exchange.inj heq
      exact hearlier _ _ _ he
    · obtain ⟨i, -, heq⟩ := List.mem_map.mp hmem
      cases heq
  · obtain ⟨e, he, heq⟩ := List.mem_map.mp hmem
    obtain rfl := StoreEvent.exchange.inj heq
    exact hlater _ _ _ he

end StoreEvent

/-! ### Collecting while others write -/

namespace Store

/-- What a collection may come to. All reads succeed, and each brings what the replicas hold at
moments of their own. -/
def CollectsFrom (overlay : Overlay) (config : StoreConfig) (target : QuorumTarget)
    (valset : Valset) (collected : List (UInt64 × Confirm)) : Prop :=
  ∃ course candidates, Follows (fetchCandidates config target valset) course candidates ∧
    collected = collect target valset.members candidates ∧
    ∀ keys limit answers, ⟨.getAll keys limit, answers⟩ ∈ course →
      List.Forall₂ (fun key answer => ∃ values, answer = .ok values ∧ overlay.MayRead key values)
        keys answers

variable {overlay : Overlay} {config : StoreConfig} {target : QuorumTarget} {valset : Valset}
  {collected : List (UInt64 × Confirm)}

/-- **A member's confirm that is kept is collected.** It may be another confirm of the member that
is counted, if that one verifies, too. -/
theorem CollectsFrom.exists_mem (h : CollectsFrom overlay config target valset collected)
    {c : Confirm} (hkind : c.kind = target.kind) (hcheck : c.checkSignature target.nonce = .ok ())
    (hverify : verifyText target.digest c.signature c.signer = .ok ())
    (hkeeps : overlay.Keeps (confirmKey target.kind target.nonce c.signer) (Bytes.ofText c.encode))
    (hmember : valset.contains c.signer = true) :
    ∃ confirm, (valset.powerOf c.signer, confirm) ∈ collected ∧ confirm.signer = c.signer := by
  obtain ⟨course, candidates, hfetch, rfl, hreads⟩ := h
  obtain ⟨member, hfound, hpower⟩ := Valset.exists_find?_of_contains hmember
  rw [hpower]
  refine exists_mem_collect hkind hcheck hverify ?_ hfound
  -- Wherever the signer's address stands, its key was read.
  rw [fetchCandidates] at hfetch
  obtain ⟨answers, rest, rfl, hdone⟩ := follows_perform_bind_iff.mp hfetch
  obtain ⟨-, rfl⟩ := follows_done_iff.mp hdone
  have hanswers := hreads _ _ _ List.mem_cons_self
  rw [List.forall₂_map_left_iff] at hanswers
  rw [List.forall₂_map_right_iff]
  refine hanswers.imp fun m answer hread haddress => ?_
  obtain ⟨values, rfl, hvalues⟩ := hread
  rw [haddress] at hvalues
  exact hkeeps.mem_of_mayRead hvalues

/-- Reading each key at one moment is one way to collect. -/
theorem collectsFrom_get (overlay : Overlay) (config : StoreConfig) (target : QuorumTarget)
    (valset : Valset) :
    CollectsFrom overlay config target valset
      (collect target valset.members
        (valset.members.map fun m =>
          overlay.get (confirmKey target.kind target.nonce m.address))) := by
  refine ⟨_, _, fetchCandidates_follows _, rfl, fun keys limit answers hmem => ?_⟩
  cases List.mem_singleton.mp hmem
  rw [List.map_map, List.forall₂_map_left_iff, List.forall₂_map_right_iff, List.forall₂_same]
  intro m _
  exact ⟨_, rfl, overlay.mayRead_get [] _⟩

end Store

end Countersign
