import Countersign.Store.Peers

/-!
# What a write to peers comes to

Each peer accepts a write, refuses it, or is not reached, and one answer is made of all that
(`Peers.Settles`, `Peers.settles_put`). A write is a success exactly if some peer accepts it
(`Peers.Settles.eq_ok_iff`).

Without an acceptance the answer depends on the refusals alone: one of them is enough to call the
record refused, even if other peers were never asked. So the answer "refused" means that every peer
refused, and a write that did not get to some peer is answered as such, exactly as long as no write
is *contested* (`Peers.Contested`): refused by some peers, not received by others, accepted by none.
-/

namespace Countersign.Peers

variable {writes : List PeerWrite} {answer : Except OverlayError Unit}

/-- What came of a write at each of the peers, in their order. All of them are asked. -/
def outcomes (peers : Peers) (key : String) (value : Bytes) (limit : Nat) : List PeerWrite :=
  (peers.map (Peer.put key value limit)).map Prod.snd

/-- Peers that all fail refuse the write or are not reached, as their status says. -/
theorem outcomes_failing (failures : List Status) (key : String) (value : Bytes) (limit : Nat) :
    outcomes (failures.map .failing) key value limit = failures.map Peer.readFailure := by
  simp [outcomes, Peer.put]

/-- **A write that waits for a peer**: none accepted it, and one was not reached. That one may still
accept it later, so the write should be tried again. -/
structure Stalled (writes : List PeerWrite) : Prop where
  unaccepted : .accepted ∉ writes
  unreached : ∃ reason, .unreached reason ∈ writes

/-- **A write that waits for a peer while another one refused it.** The peer that was not reached
may still accept it. -/
structure Contested (writes : List PeerWrite) : Prop extends Stalled writes where
  refused : ∃ reason, .refused reason ∈ writes

/-- **What a write comes to**, in terms of what came of it at each peer. The reason that is reported
is that of some peer, not of a particular one. -/
inductive Settles (writes : List PeerWrite) : Except OverlayError Unit → Prop where
  | accepted (some : .accepted ∈ writes) : Settles writes (.ok ())
  | rejected {reason : String} (unaccepted : .accepted ∉ writes)
      (some : .refused reason ∈ writes) : Settles writes (.error (.rejected reason))
  | unavailable {reason : String} (unaccepted : .accepted ∉ writes)
      (unrefused : ∀ r, .refused r ∉ writes) (some : .unreached reason ∈ writes) :
      Settles writes (.error (.unavailable reason))
  | nobody (none : writes = []) : Settles writes (.error nobody)

theorem refusal?_eq_some {w : PeerWrite} {reason : String} (h : refusal? w = some reason) :
    w = .refused reason := by
  cases w <;> cases h
  rfl

theorem unreached?_eq_some {w : PeerWrite} {reason : String} (h : unreached? w = some reason) :
    w = .unreached reason := by
  cases w <;> cases h
  rfl

/-- **Every write is settled** in one of these ways. -/
theorem settles_writeVerdict (writes : List PeerWrite) : Settles writes (writeVerdict writes) := by
  unfold writeVerdict
  split
  · next haccepted => exact .accepted (List.contains_iff_mem.mp haccepted)
  next haccepted =>
  have hunaccepted : PeerWrite.accepted ∉ writes := by
    intro hmem
    exact haccepted (List.contains_iff_mem.mpr hmem)
  split
  · -- The last refusal is one of those that were given, and it decides.
    next reason _ hlast =>
    obtain ⟨w, hw, hreason⟩ := List.mem_filterMap.mp (List.mem_of_getLast? hlast)
    rw [refusal?_eq_some hreason] at hw
    exact .rejected hunaccepted hw
  · -- There is no refusal, so a peer that was not reached decides.
    next reason hnone hlast =>
    obtain ⟨w, hw, hreason⟩ := List.mem_filterMap.mp (List.mem_of_getLast? hlast)
    rw [unreached?_eq_some hreason] at hw
    refine .unavailable hunaccepted ?_ hw
    intro r hr
    rw [List.getLast?_eq_none_iff, List.filterMap_eq_nil_iff] at hnone
    cases hnone _ hr
  · next hrefused hunreached =>
    -- No peer has done anything, so there is none.
    refine .nobody (List.eq_nil_iff_forall_not_mem.mpr ?_)
    intro w hw
    rw [List.getLast?_eq_none_iff, List.filterMap_eq_nil_iff] at hrefused hunreached
    cases w with
    | accepted => exact hunaccepted hw
    | refused reason => cases hrefused _ hw
    | unreached reason => cases hunreached _ hw

/-- So is every write to peers. -/
theorem settles_put (peers : Peers) (key : String) (value : Bytes) (limit : Nat) :
    Settles (peers.outcomes key value limit) (peers.put key value limit).2 :=
  settles_writeVerdict _

namespace Settles

/-- A write is a success exactly if some peer accepts it, whatever the others do. -/
theorem eq_ok_iff (h : Settles writes answer) : answer = .ok () ↔ .accepted ∈ writes := by
  cases h with
  | accepted some => exact ⟨fun _ => some, fun _ => rfl⟩
  | rejected unaccepted _ => exact ⟨nofun, fun hmem => absurd hmem unaccepted⟩
  | unavailable unaccepted _ _ => exact ⟨nofun, fun hmem => absurd hmem unaccepted⟩
  | nobody none => exact ⟨nofun, fun hmem => absurd hmem (by rw [none]; exact List.not_mem_nil)⟩

/-- A contested write is answered as refused, though it may be accepted yet. -/
theorem of_contested (h : Settles writes answer) (hcontested : Contested writes) :
    ∃ reason, answer = .error (.rejected reason) := by
  obtain ⟨reason, hrefused⟩ := hcontested.refused
  cases h with
  | accepted some => exact absurd some hcontested.unaccepted
  | rejected _ _ => exact ⟨_, rfl⟩
  | unavailable _ unrefused _ => exact absurd hrefused (unrefused reason)
  | nobody none =>
    rw [none] at hrefused
    exact absurd hrefused List.not_mem_nil

/-- A write that waits for a peer is answered as not delivered, if it is not contested. Then it is
worth another attempt. -/
theorem of_stalled (h : Settles writes answer) (hstalled : Stalled writes)
    (huncontested : ¬ Contested writes) : ∃ reason, answer = .error (.unavailable reason) := by
  cases h with
  | accepted some => exact absurd some hstalled.unaccepted
  | @rejected reason _ some => exact absurd ⟨hstalled, reason, some⟩ huncontested
  | unavailable _ _ _ => exact ⟨_, rfl⟩
  | nobody _ => exact ⟨_, rfl⟩

/-- **The answer "refused" means that every peer refused** exactly if the write is not contested. So
contested writes are the only ones of which the answer says too much. -/
theorem forall_refused_iff (h : Settles writes answer) :
    (∀ reason, answer = .error (.rejected reason) → ∀ w ∈ writes, ∃ r, w = .refused r) ↔
      ¬ Contested writes := by
  constructor
  · -- A contested write is called refused in spite of the peer that was not reached.
    intro hall hcontested
    obtain ⟨reason, rfl⟩ := h.of_contested hcontested
    obtain ⟨missing, hmissing⟩ := hcontested.unreached
    obtain ⟨r, ⟨⟩⟩ := hall reason rfl _ hmissing
  · rintro huncontested reason rfl w hw
    cases h with
    | rejected unaccepted some =>
      cases w with
      | accepted => exact absurd hw unaccepted
      | refused r => exact ⟨r, rfl⟩
      | unreached missing => exact absurd ⟨⟨unaccepted, missing, hw⟩, reason, some⟩ huncontested

end Settles

end Countersign.Peers
