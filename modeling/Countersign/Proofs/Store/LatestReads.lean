import Countersign.Proofs.Record.Attestations
import Countersign.Proofs.Store.Events
import Countersign.Proofs.Store.Selection
import Countersign.Proofs.Store.WriteRules

/-!
# Reads of the latest valset never go back

Latest valsets are written to replicas by many parties, newer ones and older ones in any order,
through the overlay or to a single replica, and an older one that comes late is accepted and dropped
without a word. Replicas differ, and a read chooses among what they hold. All that counts is what
replicas have **accepted** so far (`Overlay.HasAccepted`, told by their own answers).

* Each replica holds the newest one that it accepted (`Overlay.exists_get?_of_accepted`), and
  nothing but what it accepted (`Overlay.hasAccepted_of_get?`).
* So a read that asks every replica, each at a moment of its own, brings something that was accepted
  before its end, and nothing older than what was accepted before its start
  (`Store.LatestRead.bounds`).
* `Store.latest_reads_advance` draws the conclusions: a read at one moment brings the greatest nonce
  accepted anywhere, and the nonces of successive reads, or of a write and a later read, never
  decrease.

A history is the list of writes to single replicas. Moments are counted in writes.
-/

namespace Countersign

open Routine

variable {count : Nat} {history : List ReplicaWrite}

namespace Overlay

/-! ### What was accepted -/

/-- A latest valset that some replica accepted, whether it still holds it, held it or dropped it for
a newer one. It is told by the answer of the replica, and not by what was written. -/
def HasAccepted (count : Nat) (history : List ReplicaWrite) (v : Valset) : Prop :=
  ∃ earlier i value later replica, history = earlier ++ ⟨i, latestValsetKey, value⟩ :: later ∧
    ((fresh count).after earlier)[i]? = some replica ∧
    (putOne latestValsetKey value replica).2 = none ∧ Valset.decode? value = some v

/-- A replica of the overlay has had the writes to it. -/
theorem getElem?_after_fresh (history : List ReplicaWrite) {i : Nat} (hi : i < count) :
    ((fresh count).after history)[i]? = some (Replica.empty.after (writesTo i history)) := by
  rw [getElem?_after, fresh, List.getElem?_replicate, if_pos hi]
  rfl

/-- Writes make no replicas. -/
theorem lt_of_getElem?_after_fresh {history : List ReplicaWrite} {i : Nat} {replica : Replica}
    (h : ((fresh count).after history)[i]? = some replica) : i < count := by
  have hlt := (List.getElem?_eq_some_iff.mp h).1
  rwa [length_after, fresh, List.length_replicate] at hlt

/-- **A replica takes a latest valset** exactly if it is one. An older one than it holds is taken
and dropped, which is no refusal. -/
theorem putOne_latest_eq_none_iff {replica : Replica} (h : replica.Sound) {value : Bytes} :
    (putOne latestValsetKey value replica).2 = none ↔
      ∃ v, decodeLatestValset latestValsetKey value = .ok v := by
  have hspace : Namespace.ofKey latestValsetKey = .ok .latestValset := rfl
  rw [← validate_eq_ok_iff_of_latestValset hspace, putOne]
  cases hput : replica.put latestValsetKey value with
  | ok next =>
    refine iff_of_true rfl ?_
    cases hvalid : validate latestValsetKey value with
    | ok => rfl
    | error e =>
      rw [(Replica.put_eq_error_iff h).mpr (Or.inl hvalid)] at hput
      cases hput
  | error e =>
    refine iff_of_false (Option.some_ne_none e) fun hvalid => ?_
    rcases (Replica.put_eq_error_iff h).mp hput with hinvalid | ⟨-, hconfirm, -⟩
    · rw [hvalid] at hinvalid
      cases hinvalid
    · exact not_isConfirmKey_latestValsetKey hconfirm

/-- **What was accepted was written** to some replica as a latest valset, and conversely. So
acceptance can be read off the history, and the replicas need not be run. -/
theorem hasAccepted_iff {v : Valset} :
    HasAccepted count history v ↔ ∃ i < count, v ∈ Replica.valsetsIn (writesTo i history) := by
  constructor
  · -- The write that was accepted is one of those to its replica.
    rintro ⟨earlier, i, value, later, replica, rfl, hreplica, hput, hread⟩
    have hi := lt_of_getElem?_after_fresh hreplica
    rw [getElem?_after_fresh earlier hi] at hreplica
    obtain rfl := Option.some.inj hreplica
    obtain ⟨w, hw⟩ := (putOne_latest_eq_none_iff (Replica.sound_empty.after _)).mp hput
    obtain rfl := Option.some.inj (hread.symm.trans (decodeLatestValset_eq_ok_iff.mp hw).2.1)
    refine ⟨i, hi, List.mem_filterMap.mpr ⟨(latestValsetKey, value), ?_, by simp only [hw]⟩⟩
    rw [writesTo_append]
    refine List.mem_append_right _ (List.mem_map.mpr ⟨⟨i, latestValsetKey, value⟩, ?_, rfl⟩)
    exact List.mem_filter.mpr ⟨List.mem_cons_self, by simp⟩
  · -- A latest valset that was written is accepted whatever the replica holds by then.
    rintro ⟨i, hi, hmem⟩
    obtain ⟨written, hwritten, hdecode⟩ := List.mem_filterMap.mp hmem
    obtain ⟨⟨j, key, value⟩, hw, rfl⟩ := List.mem_map.mp hwritten
    obtain ⟨hhistory, hreplica⟩ := List.mem_filter.mp hw
    obtain rfl : j = i := by simpa using hreplica
    dsimp only at hdecode
    split at hdecode
    case h_2 => cases hdecode
    next u hu =>
    obtain rfl := Option.some.inj hdecode
    obtain ⟨rfl, hread, -⟩ := decodeLatestValset_eq_ok_iff.mp hu
    obtain ⟨earlier, later, rfl⟩ := List.append_of_mem hhistory
    exact ⟨earlier, j, value, later, _, rfl, getElem?_after_fresh earlier hi,
      (putOne_latest_eq_none_iff (Replica.sound_empty.after _)).mpr ⟨u, hu⟩, hread⟩

/-- What was accepted stays so, whatever is written later. -/
theorem HasAccepted.append {v : Valset} (h : HasAccepted count history v)
    (later : List ReplicaWrite) : HasAccepted count (history ++ later) v := by
  obtain ⟨earlier, i, value, rest, replica, rfl, hrest⟩ := h
  exact ⟨earlier, i, value, rest ++ later, replica, by simp, hrest⟩

/-- In terms of moments: what was accepted by one moment was accepted by any later one. -/
theorem HasAccepted.take {v : Valset} {m n : Nat} (h : HasAccepted count (history.take m) v)
    (hle : m ≤ n) : HasAccepted count (history.take n) v := by
  obtain ⟨rest, hrest⟩ : history.take m <+: history.take n :=
    List.take_prefix_take_left hle
  rw [← hrest]
  exact h.append rest

/-! ### What replicas hold of it -/

variable {i : Nat} {replica : Replica} {v : Valset}

/-- What a replica holds was accepted. -/
theorem hasAccepted_of_get? {value : Bytes}
    (hreplica : ((fresh count).after history)[i]? = some replica)
    (hheld : replica.get? latestValsetKey = some value)
    (hdecode : decodeLatestValset latestValsetKey value = .ok v) : HasAccepted count history v := by
  have hi := lt_of_getElem?_after_fresh hreplica
  rw [getElem?_after_fresh history hi] at hreplica
  obtain rfl := Option.some.inj hreplica
  exact hasAccepted_iff.mpr ⟨i, hi, Replica.mem_valsetsIn_of_held hheld hdecode⟩

/-- What was accepted is held, or something at least as new, by the replica that accepted it, at any
later moment. -/
theorem exists_get?_of_accepted (h : HasAccepted count history v) :
    ∃ i < count, ∀ later, ∃ replica value w,
      ((fresh count).after (history ++ later))[i]? = some replica ∧
      replica.get? latestValsetKey = some value ∧
      decodeLatestValset latestValsetKey value = .ok w ∧ v.nonce ≤ w.nonce := by
  obtain ⟨i, hi, hmem⟩ := hasAccepted_iff.mp h
  refine ⟨i, hi, fun later => ?_⟩
  obtain ⟨value, w, hheld, hdecode, hle⟩ :=
    Replica.exists_held_of_written hmem (writesTo i later)
  rw [← writesTo_append] at hheld
  exact ⟨_, value, w, getElem?_after_fresh _ hi, hheld, hdecode, hle⟩

/-! ### Reading over a time -/

/-- What a read of a key brings if each replica is asked at a moment of its own. Moments are numbers
of writes. -/
def getAt (count : Nat) (history : List ReplicaWrite) (moment : Nat → Nat) (key : String) :
    List Bytes :=
  (List.range count).filterMap fun i =>
    (((fresh count).after (history.take (moment i)))[i]?).bind (·.get? key)

/-- A read at one moment is one of the overlay. -/
theorem getAt_const (count : Nat) (history : List ReplicaWrite) (moment : Nat) (key : String) :
    getAt count history (fun _ => moment) key =
      ((fresh count).after (history.take moment)).get key := by
  have hlength : ((fresh count).after (history.take moment)).length = count := by
    rw [length_after, fresh, List.length_replicate]
  have hget := filterMap_range_getElem? (·.get? key) ((fresh count).after (history.take moment))
  rw [hlength] at hget
  exact hget

/-- A candidate comes from a replica that held it at its moment. -/
theorem mem_getAt {moment : Nat → Nat} {key : String} {value : Bytes} :
    value ∈ getAt count history moment key ↔ ∃ i < count, ∃ replica,
      ((fresh count).after (history.take (moment i)))[i]? = some replica ∧
      replica.get? key = some value := by
  simp only [getAt, List.mem_filterMap, List.mem_range, Option.bind_eq_some_iff]

end Overlay

namespace Store

open Overlay

variable {config : StoreConfig} {start stop : Nat} {found : Option Valset} {v : Valset}

/-- **A successful read of the latest valset** from one moment to another. In between, each replica
is asked once. -/
structure LatestRead (count : Nat) (config : StoreConfig) (history : List ReplicaWrite)
    (start stop : Nat) (found : Option Valset) : Prop where
  ordered : start ≤ stop
  follows : ∃ moment, (∀ i < count, start ≤ moment i ∧ moment i ≤ stop) ∧
    Follows (latestValset config) [⟨.get latestValsetKey config.requestTimeout,
      .ok (getAt count history moment latestValsetKey)⟩] (.ok found)

/-- A latest valset that was published with success until a moment. The record had reached every
replica then, the writes of others in between, and one of them accepted it. -/
def LatestPut (count : Nat) (config : StoreConfig) (history : List ReplicaWrite) (stop : Nat)
    (v : Valset) : Prop :=
  ∃ value, Follows (putLatestValset config v)
      [⟨.put latestValsetKey value config.requestTimeout, .ok ()⟩] (.ok ()) ∧
    StoreEvent.Reaches (fresh count) ((history.take stop).map .write) latestValsetKey value

/-- The newest of what was accepted, if anything was. There may be several of the same nonce. -/
def Newest (count : Nat) (history : List ReplicaWrite) : Option Valset → Prop
  | none => ∀ v, ¬ HasAccepted count history v
  | some v => HasAccepted count history v ∧ ∀ w, HasAccepted count history w → w.nonce ≤ v.nonce

/-! ### One read -/

/-- A valset that is found is the record of a candidate. -/
theorem FindsValset.exists_decode {values : List Bytes} (h : FindsValset values (some v)) :
    ∃ value ∈ values, decodeLatestValset latestValsetKey value = .ok v := by
  obtain ⟨place, value, hleads, hvalue, hread⟩ := h.read v rfl
  obtain ⟨value', hvalue', haccepted⟩ := hleads.first.here
  obtain rfl := Option.some.inj (hvalue.symm.trans hvalue')
  obtain ⟨w, hw, -⟩ := (isValsetOf_iff rfl).mp haccepted
  obtain rfl := Option.some.inj (hread.symm.trans (decodeLatestValset_eq_ok_iff.mp hw).2.1)
  exact ⟨value, List.mem_of_getElem? hvalue, hw⟩

/-- No candidate is newer than what is found. -/
theorem FindsValset.exists_ge {values : List Bytes} (h : FindsValset values found) {value : Bytes}
    (hmem : value ∈ values) (hdecode : decodeLatestValset latestValsetKey value = .ok v) :
    ∃ w, found = some w ∧ v.nonce ≤ w.nonce := by
  have hvalid : validate latestValsetKey value = .ok () :=
    (validate_eq_ok_iff_of_latestValset rfl).mpr ⟨v, hdecode⟩
  obtain ⟨w, rfl⟩ := Option.isSome_iff_exists.mp (h.isSome_iff.mpr ⟨value, hmem, hvalid⟩)
  obtain ⟨place, -, hleads, -, -⟩ := h.read w rfl
  exact ⟨w, rfl, hleads.greatest value hmem v.nonce ((isValsetOf_iff rfl).mpr ⟨v, hdecode, rfl⟩)⟩

/-- **What a read finds** lies between what was accepted before its start and before its end. All
that follows about two operations is put together from this. -/
theorem LatestRead.bounds (h : LatestRead count config history start stop found) :
    (∀ v, found = some v → HasAccepted count (history.take stop) v) ∧
      ∀ w, HasAccepted count (history.take start) w → ∃ v, found = some v ∧ w.nonce ≤ v.nonce := by
  obtain ⟨-, moment, hmoment, hfollows⟩ := h
  obtain ⟨found', hchosen, hfound⟩ :=
    exists_chosenValset (getAt count history moment latestValsetKey)
  rw [latestValset_follows_ok_iff, hchosen] at hfollows
  obtain rfl := Except.ok.inj hfollows
  constructor
  · -- What is found is held by a replica at its moment, so it was accepted by the end.
    rintro v rfl
    obtain ⟨value, hmem, hdecode⟩ := hfound.exists_decode
    obtain ⟨i, hi, replica, hreplica, hheld⟩ := mem_getAt.mp hmem
    exact (hasAccepted_of_get? hreplica hheld hdecode).take (hmoment i hi).2
  · intro w hw
    obtain ⟨i, hi, hheld⟩ := exists_get?_of_accepted hw
    -- The replica that accepted it is asked at a later moment.
    obtain ⟨rest, hrest⟩ : history.take start <+: history.take (moment i) :=
      List.take_prefix_take_left (hmoment i hi).1
    obtain ⟨replica, value, v, hreplica, hvalue, hdecode, hle⟩ := hheld rest
    rw [hrest] at hreplica
    obtain ⟨u, rfl, hu⟩ :=
      hfound.exists_ge (mem_getAt.mpr ⟨i, hi, replica, hreplica, hvalue⟩) hdecode
    exact ⟨u, rfl, UInt64.le_trans hle hu⟩

/-- **A read at one moment** finds the newest of what was accepted, because the two bounds meet. -/
theorem exists_newest_read (count : Nat) (config : StoreConfig) (history : List ReplicaWrite) :
    ∃ found, Newest count history found ∧ ∀ result, Follows (latestValset config)
      [⟨.get latestValsetKey config.requestTimeout,
        .ok (((fresh count).after history).get latestValsetKey)⟩] result ↔ result = .ok found := by
  have hvalues := getAt_const count history history.length latestValsetKey
  rw [List.take_length] at hvalues
  rw [← hvalues]
  obtain ⟨found, hchosen, -⟩ :=
    exists_chosenValset (getAt count history (fun _ => history.length) latestValsetKey)
  have hresult : ∀ result, Follows (latestValset config)
      [⟨.get latestValsetKey config.requestTimeout,
        .ok (getAt count history (fun _ => history.length) latestValsetKey)⟩] result ↔
        result = .ok found := by
    intro result
    rw [latestValset_follows_ok_iff, hchosen]
  -- A read at one moment is one from this moment to itself.
  have hread : LatestRead count config history history.length history.length found :=
    ⟨Nat.le_refl _, fun _ => history.length, fun _ _ => ⟨Nat.le_refl _, Nat.le_refl _⟩,
      (hresult _).mpr rfl⟩
  obtain ⟨hupper, hlower⟩ := hread.bounds
  rw [List.take_length] at hupper hlower
  refine ⟨found, ?_, hresult⟩
  -- Nothing is found only if nothing was accepted, and what is found is the greatest of all.
  cases found with
  | none =>
    intro v hv
    obtain ⟨w, hw, -⟩ := hlower v hv
    cases hw
  | some v =>
    refine ⟨hupper v rfl, fun w hw => ?_⟩
    obtain ⟨u, hu, hle⟩ := hlower w hw
    obtain rfl := Option.some.inj hu
    exact hle

/-! ### A write and a read -/

/-- **What was published with success** some replica accepted. -/
theorem LatestPut.hasAccepted (h : LatestPut count config history stop v) :
    HasAccepted count (history.take stop) v := by
  obtain ⟨value, hfollows, answers, hlength, hverdict, hanswers⟩ := h
  -- The record is the valset's own text.
  have hread : Valset.decode? value = some v := by
    unfold putLatestValset at hfollows
    split at hfollows
    · cases follows_done_iff.mp hfollows |>.1
    next text htext =>
    unfold putRecord at hfollows
    split at hfollows
    · cases follows_done_iff.mp hfollows |>.1
    · obtain ⟨answer, rest, hcourse, -⟩ := follows_perform_bind_iff.mp hfollows
      obtain ⟨heq, -⟩ := List.cons.inj hcourse
      obtain ⟨hrequest, -⟩ := Sigma.mk.inj heq
      obtain ⟨-, rfl, -⟩ := Request.put.inj hrequest
      exact Valset.decode?_encode? htext
  -- Some replica accepted it, and its write is one of the history.
  obtain ⟨i, hi⟩ := StoreEvent.exists_accepted_of_verdict hverdict
  obtain ⟨earlier, later, hhistory, hput⟩ := hanswers i none hi
  obtain ⟨earlierWrites, rest, hsplit, rfl, hrest⟩ := List.map_eq_append_iff.mp hhistory
  obtain ⟨w, laterWrites, rfl, hw, -⟩ := List.map_eq_cons_iff.mp hrest
  obtain rfl := StoreEvent.write.inj hw
  have hlt : i < count := by
    have hi' := (List.getElem?_eq_some_iff.mp hi).1
    rwa [hlength, fresh, List.length_replicate] at hi'
  have hwrites : StoreEvent.writes (earlierWrites.map .write) = earlierWrites := by
    exact (StoreEvent.writes_map_write id earlierWrites).trans (List.map_id _)
  rw [hwrites] at hput
  have hreplica := getElem?_after_fresh earlierWrites hlt
  exact ⟨earlierWrites, i, value, laterWrites, _, hsplit, hreplica, hput _ hreplica, hread⟩

/-! ### The result -/

/-- **Reads of the latest valset never go back.** Whoever writes what to which replica, and in
whatever order older and newer valsets come:

* a read at one moment comes through with the newest valset that any replica has accepted until
  then, and with none only if none was accepted;
* a read that takes its time finds something that was accepted until its end, and nothing older
  than what was accepted until its start;
* of two reads, one after the other, the second does not find less than the first;
* a read after a valset was published with success does not find less than that. -/
theorem latest_reads_advance (count : Nat) (config : StoreConfig) (history : List ReplicaWrite) :
    (∀ moment, ∃ found, Newest count (history.take moment) found ∧
      ∀ result, Follows (latestValset config) [⟨.get latestValsetKey config.requestTimeout,
        .ok (((fresh count).after (history.take moment)).get latestValsetKey)⟩] result ↔
          result = .ok found) ∧
    (∀ start stop found, LatestRead count config history start stop found →
      (∀ v, found = some v → HasAccepted count (history.take stop) v) ∧
      ∀ w, HasAccepted count (history.take start) w →
        ∃ v, found = some v ∧ w.nonce ≤ v.nonce) ∧
    (∀ start stop start' stop' v found, LatestRead count config history start stop (some v) →
      LatestRead count config history start' stop' found → stop ≤ start' →
        ∃ w, found = some w ∧ v.nonce ≤ w.nonce) ∧
    ∀ stop v start' stop' found, LatestPut count config history stop v →
      LatestRead count config history start' stop' found → stop ≤ start' →
        ∃ w, found = some w ∧ v.nonce ≤ w.nonce := by
  refine ⟨fun moment => exists_newest_read count config _, fun start stop found h => h.bounds,
    fun start stop start' stop' v found h h' hle => ?_,
    fun stop v start' stop' found h h' hle => ?_⟩
  · exact h'.bounds.2 v ((h.bounds.1 v rfl).take hle)
  · exact h'.bounds.2 v (h.hasAccepted.take hle)

/-- What is written to three replicas: the valsets of nonces 5 and 3 to one replica each, then that
of 4 to all of them, and that of 2 to the last. -/
def mixedHistory : List ReplicaWrite :=
  [⟨0, latestValsetKey, soleRecord 5⟩, ⟨1, latestValsetKey, soleRecord 3⟩,
    ⟨0, latestValsetKey, soleRecord 4⟩, ⟨1, latestValsetKey, soleRecord 4⟩,
    ⟨2, latestValsetKey, soleRecord 4⟩, ⟨2, latestValsetKey, soleRecord 2⟩]

/-- The valset of nonce 4 with one member, the address of nobody. -/
def fourth : Valset := ⟨4, [⟨1, .zero⟩], 0, .epoch⟩

/-- The valset of nonce 4 is published by the fifth write, though the first replica has dropped
it. -/
theorem latestPut_fourth : LatestPut 3 .standard mixedHistory 5 fourth := by
  have hvalid : validate latestValsetKey (soleRecord 4) = .ok () := by decide +kernel
  have hput : (((fresh 3).after (mixedHistory.take 2)).put latestValsetKey (soleRecord 4)).2 =
      .ok () := by decide +kernel
  refine ⟨soleRecord 4, ?_, ?_⟩
  · obtain ⟨text, htext⟩ : ∃ text, fourth.encode? = some text :=
      Option.isSome_iff_exists.mp (by decide +kernel)
    have hrecord : soleRecord 4 = Bytes.ofText text := by
      show Bytes.ofText (fourth.encode?.getD "") = _
      rw [htext]
      rfl
    rw [hrecord] at hvalid ⊢
    rw [putLatestValset, htext]
    show Follows (putRecord .standard latestValsetKey (Bytes.ofText text)) _ _
    rw [putRecord, hvalid]
    exact .perform_bind (r := .put latestValsetKey (Bytes.ofText text) _) (.done _)
  · exact @StoreEvent.reaches_put _ ((mixedHistory.take 2).map .write) _ _ hput

/-- **A read behind this history** does not find less than the valset that was published. -/
theorem latest_reads_advance_of_mixedHistory :
    LatestPut 3 .standard mixedHistory 5 fourth ∧
      ∃ v, LatestRead 3 .standard mixedHistory 6 6 (some v) ∧ 4 ≤ v.nonce := by
  obtain ⟨hnow, -, -, hlater⟩ := latest_reads_advance 3 .standard mixedHistory
  obtain ⟨found, -, hresult⟩ := hnow 6
  have hread : LatestRead 3 .standard mixedHistory 6 6 found := by
    refine ⟨Nat.le_refl _, fun _ => 6, fun _ _ => ⟨Nat.le_refl _, Nat.le_refl _⟩, ?_⟩
    rw [getAt_const]
    exact (hresult _).mpr rfl
  obtain ⟨v, rfl, hle⟩ := hlater 5 fourth 6 6 found latestPut_fourth hread (by decide)
  exact ⟨latestPut_fourth, v, hread, hle⟩

end Store

end Countersign
