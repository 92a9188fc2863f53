import Countersign.Proofs.Store.Transport
import Countersign.Proofs.Store.Verdicts

/-!
# Replicas behind a network like replicas at hand

A refusal travels as a status, a code with the words of the error, and is told apart from other
failures by the code alone. So what arrives of a replica's answer to a write is whether the record
was accepted, and the words if not (`Peers.arrived`), which is all that an overlay makes use of. A
read brings the record as it is.

From this it follows that peers which serve replicas answer every run of calls as the replicas do in
the same process (`Peers.simulates_inProcess`), where peers that cannot be reached do not
count, as long as one can. If none can, every read fails (`Peers.get_of_unreachable`).

The one thing that must not happen is that somebody else refuses a record in the name of a peer: a
failure with the code of a refusal counts as one (`Peer.Genuine`).
-/

namespace Countersign

namespace Peer

/-- The replica of a peer that answers. Only this of a peer is visible in the process of the
overlay. -/
def replica? : Peer → Option Replica
  | .serving replica => some replica
  | .failing _ => none
  | .silent => none

/-- A peer with a replica serves it. -/
theorem eq_serving_of_replica? {p : Peer} {r : Replica} (h : p.replica? = some r) :
    p = .serving r := by
  cases p with
  | serving replica =>
    obtain rfl := Option.some.inj h
    rfl
  | failing status => cases h
  | silent => cases h

/-- A peer whose refusals are those of its replica: it serves one, or fails in another way. The code
of a refusal is the only failure that an overlay takes for a word of a replica. -/
def Genuine : Peer → Prop
  | .serving _ => True
  | .failing status => status.code ≠ .invalidArgument
  | .silent => True

end Peer

namespace Peers

variable {peers : Peers} {replicas : Overlay} {key : String} {value : Bytes} {limit : Nat}

/-- The replicas of the peers that answer, in their order. -/
def reachable (peers : Peers) : Overlay :=
  peers.filterMap Peer.replica?

/-- Peers that serve replicas, each a different one. -/
def serving (replicas : Overlay) : Peers :=
  replicas.map .serving

/-- Replicas behind a network, with a time for every call. -/
def networked (limit : Nat) : Transport Peers where
  put peers key value := peers.put key value limit
  get peers key := peers.get key limit

/-- Peers that serve replicas have these to show. -/
theorem reachable_serving (replicas : Overlay) : (serving replicas).reachable = replicas := by
  unfold reachable serving
  rw [List.filterMap_map]
  exact List.filterMap_some

/-- Their refusals are those of their replicas. -/
theorem genuine_serving (replicas : Overlay) : ∀ p ∈ serving replicas, p.Genuine := by
  intro p hp
  obtain ⟨r, -, rfl⟩ := List.mem_map.mp hp
  trivial

/-! ### Writes -/

/-- What arrives of a replica's answer to a write: whether it accepted, and its words if not. -/
def arrived : Option ValidationError → PeerWrite
  | none => .accepted
  | some e => .refused e.message

/-- A write that reached its peer, and was accepted or refused there. -/
def isReached : PeerWrite → Bool
  | .accepted => true
  | .refused _ => true
  | .unreached _ => false

/-- A write to a peer that serves a replica is a write to the replica. -/
theorem put_serving (r : Replica) :
    Peer.put key value limit (.serving r) =
      (.serving (Overlay.putOne key value r).1, arrived (Overlay.putOne key value r).2) := by
  cases hput : r.put key value with
  | ok next =>
    simp only [Peer.put, Overlay.putOne, hput]
    rfl
  | error e =>
    simp only [Peer.put, Overlay.putOne, hput]
    rfl

/-- A peer without a replica stays as it is. -/
theorem put_fst_of_replica?_eq_none {p : Peer} (h : p.replica? = none) :
    (Peer.put key value limit p).1 = p := by
  cases p with
  | serving r => cases h
  | failing status => rfl
  | silent => rfl

/-- A genuine peer without a replica is not reached. -/
theorem isReached_put_of_genuine {p : Peer} (h : p.replica? = none) (hgenuine : p.Genuine) :
    isReached (Peer.put key value limit p).2 = false := by
  cases p with
  | serving r => cases h
  | failing status =>
    show isReached (Peer.readFailure status) = false
    unfold Peer.readFailure
    rw [if_neg hgenuine]
    rfl
  | silent => rfl

/-- **The writes that reach a peer** are answered by the replicas, if nobody else refuses. -/
theorem filter_isReached_outcomes (h : ∀ p ∈ peers, p.Genuine) (key : String) (value : Bytes)
    (limit : Nat) :
    (peers.outcomes key value limit).filter isReached =
      (peers.reachable.map fun r => (Overlay.putOne key value r).2).map arrived := by
  unfold outcomes reachable
  induction peers with
  | nil => rfl
  | cons p peers ih =>
    have hrest := ih fun q hq => h q (List.mem_cons_of_mem p hq)
    rw [List.map_cons, List.map_cons]
    cases hp : p.replica? with
    | none =>
      have hmissed : ¬ isReached (Peer.put key value limit p).2 = true := by
        rw [isReached_put_of_genuine hp (h p List.mem_cons_self)]
        exact Bool.false_ne_true
      rw [List.filter_cons_of_neg hmissed, hrest, List.filterMap_cons_none hp]
    | some r =>
      obtain rfl := Peer.eq_serving_of_replica? hp
      have hreached : isReached (arrived (Overlay.putOne key value r).2) = true := by
        cases (Overlay.putOne key value r).2 <;> rfl
      rw [put_serving, List.filter_cons_of_pos hreached, hrest, List.filterMap_cons_some hp]
      rfl

/-- The replicas behind a write are those that took it in, or refused it. -/
theorem reachable_put (peers : Peers) (key : String) (value : Bytes) (limit : Nat) :
    (peers.put key value limit).1.reachable = (peers.reachable.put key value).1 := by
  have hone : ∀ p : Peer, (Peer.put key value limit p).1.replica? =
      p.replica?.map fun r => (Overlay.putOne key value r).1 := by
    intro p
    cases hp : p.replica? with
    | none => rw [put_fst_of_replica?_eq_none hp, hp, Option.map_none]
    | some r =>
      obtain rfl := Peer.eq_serving_of_replica? hp
      rw [put_serving]
      rfl
  unfold reachable
  simp only [put, Overlay.put_eq, List.map_map, List.filterMap_map, List.map_filterMap]
  exact List.filterMap_congr fun p _ => hone p

/-- An acceptance arrives as one, and nothing else does. -/
theorem arrived_eq_accepted_iff {answer : Option ValidationError} :
    arrived answer = .accepted ↔ answer = none := by
  cases answer with
  | none => exact ⟨fun _ => rfl, fun _ => rfl⟩
  | some e => exact ⟨nofun, nofun⟩

/-- The reasons of refusal are those of the writes that reached their peer. -/
theorem filterMap_refusal?_eq (writes : List PeerWrite) :
    writes.filterMap refusal? = (writes.filter isReached).filterMap refusal? := by
  rw [List.filterMap_filter]
  refine List.filterMap_congr fun w _ => ?_
  cases w <;> rfl

/-- **What the writes come to** depends on those that reached their peer only, if there are any. So
the verdict over peers is that over their replicas. -/
theorem writeVerdict_eq_verdict {writes : List PeerWrite} {answers : List (Option ValidationError)}
    (hne : answers ≠ []) (h : writes.filter isReached = answers.map arrived) :
    writeVerdict writes = Overlay.verdict answers := by
  -- Something is accepted on the one side exactly if it is on the other.
  have haccepted : .accepted ∈ writes ↔ none ∈ answers := by
    have hmem : .accepted ∈ writes ↔ .accepted ∈ writes.filter isReached :=
      (List.mem_filter.trans (and_iff_left rfl)).symm
    rw [hmem, h, List.mem_map]
    simp only [arrived_eq_accepted_iff, exists_eq_right]
  unfold writeVerdict Overlay.verdict
  by_cases hnone : none ∈ answers
  · rw [if_pos (List.contains_iff_mem.mpr (haccepted.mpr hnone)),
      if_pos (List.any_eq_true.mpr ⟨none, hnone, rfl⟩)]
  · have hany : ¬ answers.any Option.isNone = true := by
      intro hany
      obtain ⟨answer, hanswer, hisNone⟩ := List.any_eq_true.mp hany
      rw [Option.isNone_iff_eq_none.mp hisNone] at hanswer
      exact hnone hanswer
    rw [if_neg (mt (haccepted.mp ∘ List.contains_iff_mem.mp) hnone), if_neg hany,
      filterMap_refusal?_eq, h]
    -- All refused, so the last of them gives the reason on both sides.
    rcases List.eq_nil_or_concat answers with rfl | ⟨front, last, rfl⟩
    · exact absurd rfl hne
    rw [List.concat_eq_append] at hnone ⊢
    cases last with
    | none => exact absurd (List.mem_append_right front List.mem_cons_self) hnone
    | some e =>
      have hlast : (((front ++ [some e]).map arrived).filterMap refusal?).getLast? =
          some e.message := by
        rw [List.map_append, List.filterMap_append]
        exact List.getLast?_concat ..
      rw [hlast, List.getLast?_concat]

/-! ### Reads -/

/-- If some peer answers, a read brings the records of those that do. -/
theorem get_of_reachable (h : peers.reachable ≠ []) (key : String) (limit : Nat) :
    peers.get key limit = .ok (peers.reachable.get key) := by
  unfold get readVerdict
  obtain ⟨r, hr⟩ := List.exists_mem_of_ne_nil _ h
  obtain ⟨p, hp, hreplica⟩ := List.mem_filterMap.mp hr
  obtain rfl := Peer.eq_serving_of_replica? hreplica
  have hanswer : (peers.map (Peer.get key limit)).any (fun a => (failure? a).isNone) = true :=
    List.any_eq_true.mpr ⟨_, List.mem_map_of_mem hp, rfl⟩
  rw [if_pos hanswer]
  unfold reachable Overlay.get
  rw [List.filterMap_map, List.filterMap_filterMap]
  refine congrArg Except.ok (List.filterMap_congr fun p _ => ?_)
  cases p <;> rfl

/-- **If no peer answers**, a read fails. -/
theorem get_of_unreachable (h : peers.reachable = []) (key : String) (limit : Nat) :
    ∃ reason, peers.get key limit = .error (.unavailable reason) := by
  have hfails : ∀ a ∈ peers.map (Peer.get key limit), ¬ (failure? a).isNone = true := by
    intro a ha
    obtain ⟨p, hp, rfl⟩ := List.mem_map.mp ha
    have hreplica := List.filterMap_eq_nil_iff.mp h p hp
    cases p with
    | serving r => cases hreplica
    | failing status => exact Bool.false_ne_true
    | silent => exact Bool.false_ne_true
  unfold get readVerdict
  rw [if_neg]
  · split
    · exact ⟨_, rfl⟩
    · exact ⟨_, rfl⟩
  · intro hany
    obtain ⟨a, ha, hnone⟩ := List.any_eq_true.mp hany
    exact hfails a ha hnone

/-! ### Runs -/

/-- **Peers simulate the replicas that they serve**, if some of them do and nobody else refuses. The
relation also says what a write has to preserve, for the run to go on. -/
theorem simulates_inProcess (limit : Nat) :
    Transport.Simulates
      (fun peers replicas => peers.reachable = replicas ∧ replicas ≠ [] ∧ ∀ p ∈ peers, p.Genuine)
      (networked limit) Overlay.inProcess where
  put := by
    rintro peers _ ⟨rfl, hne, hgenuine⟩ key value
    have hreplicas := reachable_put peers key value limit
    refine ⟨⟨hreplicas, ?_, ?_⟩, ?_⟩
    · -- The relation is preserved: there are as many replicas as before, and no peer has become
      -- another.
      show (Overlay.put peers.reachable key value).1 ≠ []
      rw [Overlay.put_eq]
      exact mt List.map_eq_nil_iff.mp hne
    · intro q hq
      obtain ⟨answered, hanswered, rfl⟩ := List.mem_map.mp hq
      obtain ⟨p, hp, rfl⟩ := List.mem_map.mp hanswered
      cases hreplica : p.replica? with
      | none =>
        rw [put_fst_of_replica?_eq_none hreplica]
        exact hgenuine p hp
      | some r =>
        obtain rfl := Peer.eq_serving_of_replica? hreplica
        rw [put_serving]
        trivial
    · -- The reply is the same.
      show writeVerdict (peers.outcomes key value limit) =
        (Overlay.put peers.reachable key value).2
      rw [Overlay.put_eq]
      exact writeVerdict_eq_verdict (mt List.map_eq_nil_iff.mp hne)
        (filter_isReached_outcomes hgenuine key value limit)
  get := by
    rintro peers _ ⟨rfl, hne, -⟩ key
    exact get_of_reachable hne key limit

/-- Peers that all serve replicas go on to do so. -/
theorem put_serving_fst (replicas : Overlay) (key : String) (value : Bytes) (limit : Nat) :
    ((serving replicas).put key value limit).1 = serving (replicas.put key value).1 := by
  simp only [put, serving, Overlay.put_eq, List.map_map]
  refine List.map_congr_left fun r _ => ?_
  show (Peer.put key value limit (.serving r)).1 = _
  rw [put_serving]
  rfl

/-- Peers that all serve replicas simulate them. -/
theorem serving_simulates_inProcess (limit : Nat) :
    Transport.Simulates (fun peers replicas => peers = serving replicas ∧ replicas ≠ [])
      (networked limit) Overlay.inProcess := by
  have hsome := simulates_inProcess limit
  have hrelated : ∀ replicas : Overlay, replicas ≠ [] →
      (serving replicas).reachable = replicas ∧ replicas ≠ [] ∧
        ∀ p ∈ serving replicas, p.Genuine :=
    fun replicas hne => ⟨reachable_serving replicas, hne, genuine_serving replicas⟩
  refine ⟨?_, ?_⟩
  · rintro _ replicas ⟨rfl, hne⟩ key value
    obtain ⟨⟨-, hne', -⟩, hanswer⟩ := hsome.put _ _ (hrelated replicas hne) key value
    exact ⟨⟨put_serving_fst replicas key value limit, hne'⟩, hanswer⟩
  · rintro _ replicas ⟨rfl, hne⟩ key
    exact hsome.get _ _ (hrelated replicas hne) key

/-- **Replicas behind a network are like replicas at hand.**

* If every peer serves a replica, and there is one, then every run of writes and reads has the same
  replies as in the same process, down to the words of a refusal and the order of the records, and
  leaves the replicas in the same states.
* The same holds of the peers that serve replicas if others cannot be reached, or answer with a
  failure that is not a refusal.
* Of any peers, a read brings exactly the records of those that answer, in their order, and is a
  failure exactly if none does. Then the overlay is unavailable. -/
theorem networked_is_inProcess (limit : Nat) :
    (∀ (replicas : Overlay) (calls : List RecordCall), replicas ≠ [] →
      (networked limit).run (serving replicas) calls =
        (serving (Overlay.inProcess.run replicas calls).1,
          (Overlay.inProcess.run replicas calls).2)) ∧
    (∀ (peers : Peers) (calls : List RecordCall), peers.reachable ≠ [] →
      (∀ p ∈ peers, p.Genuine) →
      ((networked limit).run peers calls).1.reachable =
          (Overlay.inProcess.run peers.reachable calls).1 ∧
        ((networked limit).run peers calls).2 =
          (Overlay.inProcess.run peers.reachable calls).2) ∧
    ∀ (peers : Peers) (key : String),
      (∀ values, peers.get key limit = .ok values ↔
        peers.reachable ≠ [] ∧ values = peers.reachable.get key) ∧
      ((∃ reason, peers.get key limit = .error (.unavailable reason)) ↔ peers.reachable = []) := by
  refine ⟨?_, ?_, fun peers key => ?_⟩
  · intro replicas calls hne
    obtain ⟨⟨hstates, -⟩, hreplies⟩ := (serving_simulates_inProcess limit).run ⟨rfl, hne⟩ calls
    exact Prod.ext hstates hreplies
  · intro peers calls hne hgenuine
    obtain ⟨⟨hstates, -⟩, hreplies⟩ := (simulates_inProcess limit).run ⟨rfl, hne, hgenuine⟩ calls
    exact ⟨hstates, hreplies⟩
  -- Some peer answers or none does, and this decides about every read.
  by_cases hreach : peers.reachable = []
  · obtain ⟨reason, hfails⟩ := get_of_unreachable hreach key limit
    refine ⟨fun values => ⟨fun h => ?_, fun h => absurd hreach h.1⟩,
      fun _ => hreach, fun _ => ⟨reason, hfails⟩⟩
    rw [hfails] at h
    cases h
  · have hreads := get_of_reachable hreach key limit
    refine ⟨fun values => ?_, fun ⟨reason, h⟩ => ?_, fun h => absurd h hreach⟩
    · rw [hreads, Except.ok.injEq, eq_comm, and_iff_right hreach]
    · rw [hreads] at h
      cases h

/-- **Two replicas without records behind a network**, one write that they take and one that they
refuse; the same with a peer between them from which nothing comes back; and that peer alone. -/
theorem networked_is_inProcess_of_two :
    ∃ key value error, Overlay.fresh 2 ≠ [] ∧
      ((networked 5).run (serving (Overlay.fresh 2))
          [.put key value, .put "" [], .get key]).2 =
        [.put (.ok ()), .put (.error error), .get (.ok [value, value])] ∧
      reachable [.serving .empty, .silent, .serving .empty] ≠ [] ∧
      ((networked 5).run [.serving .empty, .silent, .serving .empty]
          [.put key value, .put "" [], .get key]).2 =
        [.put (.ok ()), .put (.error error), .get (.ok [value, value])] ∧
      ∃ reason, get [.silent] key 5 = .error (.unavailable reason) := by
  obtain ⟨key, value, e, -, htaken, hrefused⟩ := Overlay.exists_taken_refused
  have hheld : (Replica.empty.set key value).get? key = some value := by
    rw [Replica.get?_set, if_pos rfl]
  -- The run in the same process is computed; the others follow from it by the theorem.
  have hrun : (Overlay.inProcess.run (Overlay.fresh 2) [.put key value, .put "" [], .get key]).2 =
      [.put (.ok ()), .put (.error (.rejected e.message)), .get (.ok [value, value])] := by
    show (Overlay.inProcess.run [Replica.empty, Replica.empty] _).2 = _
    simp only [Transport.run, Transport.call, Overlay.inProcess, Overlay.put_eq, Overlay.get,
      List.map_cons, List.map_nil, List.filterMap_cons, htaken, hrefused, hheld]
    rfl
  have hne : Overlay.fresh 2 ≠ [] := List.cons_ne_nil _ _
  obtain ⟨hall, hsome, hreads⟩ := networked_is_inProcess 5
  refine ⟨key, value, .rejected e.message, hne, ?_, hne, ?_, (hreads [.silent] key).2.mpr rfl⟩
  · rw [hall _ _ hne]
    exact hrun
  · refine (hsome [.serving .empty, .silent, .serving .empty] _ hne ?_).2.trans hrun
    intro p hp
    rcases List.mem_cons.mp hp with rfl | hp
    · trivial
    rcases List.mem_cons.mp hp with rfl | hp
    · trivial
    obtain rfl := List.mem_singleton.mp hp
    trivial

end Peers

end Countersign
