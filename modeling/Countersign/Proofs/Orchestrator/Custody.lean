import Countersign.Proofs.Orchestrator.Motions
import Mathlib.Data.List.Basic

/-!
# The accounts of processor and drain

The processor has at most one nonce in hand. What it has finished and given up is read off its
motions, one after the other (`Orchestrator.custody`). Between two turns, and within one, its
accounts are balanced (`Orchestrator.Balanced`): what it took is what it has in hand, what it put
back, what it finished and what it gave up, and the counters stand at the lengths of these lists. A
turn that forgot a nonce, or counted it twice, would break this.

The drain puts all that it takes, as long as it can send (`Orchestrator.Returns`).
-/

namespace Countersign.Orchestrator

open Routine

variable {setup : OrchestratorSetup} {nonces requeue : QueueId} {t : List Exchange}

/-! ### Turns, one after the other -/

/-- **The motions of a processor** between two turns: each turn takes one nonce and parts with it in
one of the three ways (`Parting`). -/
inductive Handles (nonces requeue : QueueId) : List Motion → Prop where
  | start : Handles nonces requeue []
  | turn {ms ps : List Motion} {nonce : UInt64} :
      Handles nonces requeue ms → Parting requeue nonce ps →
      Handles nonces requeue (ms ++ .taken nonces nonce :: ps)

/-- **The motions of a drain** that can send all that it takes. It puts each nonce back into the
queue it is processed from. -/
inductive Returns (nonces requeue : QueueId) : List Motion → Prop where
  | start : Returns nonces requeue []
  | turn {ms : List Motion} (nonce : UInt64) :
      Returns nonces requeue ms →
      Returns nonces requeue (ms ++ [.taken requeue nonce, .put nonces nonce])

/-- A processor's turns have such motions, whatever it is answered. -/
theorem handles_of_loops
    (h : Loops (fun _ : Unit => processNext setup nonces requeue) () t ()) :
    Handles nonces requeue (motions t) := by
  generalize hstate : () = s at h
  induction h with
  | start => exact .start
  | turn _ hturn ih =>
    obtain ⟨nonce, ps, hparting, hmotions⟩ := processNext_follows hturn
    rw [motions_append, hmotions]
    exact (ih rfl).turn hparting

/-- A drain's turns have such motions, as long as the queue takes what it puts. -/
theorem returns_of_loops {first due : Nat}
    (h : Loops (drainNext setup requeue nonces) first t due)
    (hsent : ∀ nonce sent, ⟨.trySend nonces nonce, sent⟩ ∈ t → sent = true) :
    Returns nonces requeue (motions t) := by
  induction h with
  | start => exact .start
  | turn _ hturn ih =>
    have hreturns := ih fun nonce sent hmem => hsent nonce sent (List.mem_append_left _ hmem)
    rw [motions_append]
    rcases drainNext_follows hturn with hnone | ⟨nonce, sent, hmem, hmotions⟩
    · rw [hnone, List.append_nil]
      exact hreturns
    · obtain rfl := hsent nonce sent (List.mem_append_right _ hmem)
      rw [hmotions]
      exact hreturns.turn nonce

/-- **What the processor has to do with nonces**: the one that is being processed, those that it
finished, and those that it gave up. The queues hold the others. -/
structure Custody where
  hand : Option UInt64
  finished : List UInt64
  givenUp : List UInt64

/-- The custody after a motion. A nonce that is put back is in custody no more, since it is in a
queue. -/
def Custody.step (c : Custody) : Motion → Custody
  | .taken _ nonce => { c with hand := some nonce }
  | .put _ _ => { c with hand := none }
  | .finished nonce => { c with hand := none, finished := c.finished ++ [nonce] }
  | .dropNoted => { c with hand := none, givenUp := c.givenUp ++ c.hand.toList }
  | .requeueNoted => c
  | .closed _ => c

/-- The custody after some motions, from none. -/
def custody (ms : List Motion) : Custody :=
  ms.foldl Custody.step ⟨none, [], []⟩

theorem custody_append (ms ms' : List Motion) :
    custody (ms ++ ms') = ms'.foldl Custody.step (custody ms) :=
  List.foldl_append

/-- **Accounts that are balanced**: what was taken is in one of the places, and put back or dropped
is what was counted as that. This is the invariant of the processor's turns; that it uses no other
queue is a part of it. -/
structure Balanced (nonces requeue : QueueId) (ms : List Motion) : Prop where
  places : (takenFrom nonces ms).Perm ((custody ms).hand.toList ++ putInto requeue ms ++
    (custody ms).finished ++ (custody ms).givenUp)
  requeues : ms.count .requeueNoted = (putInto requeue ms).length
  drops : ms.count .dropNoted = (custody ms).givenUp.length
  taken : takenFrom requeue ms = []
  put : putInto nonces ms = []
  opened : ∀ queue, .closed queue ∉ ms

/-- **Accounts stay balanced** over some more motions if these are balanced in themselves: what was
in the places before, and what they take, is in the places afterwards. -/
theorem Balanced.append {ms ps : List Motion} (h : Balanced nonces requeue ms)
    (hplaces : ((custody ms).hand.toList ++ (custody ms).finished ++ (custody ms).givenUp ++
        takenFrom nonces ps).Perm ((custody (ms ++ ps)).hand.toList ++ putInto requeue ps ++
        (custody (ms ++ ps)).finished ++ (custody (ms ++ ps)).givenUp))
    (hrequeues : ps.count .requeueNoted = (putInto requeue ps).length)
    (hdrops : (custody (ms ++ ps)).givenUp.length =
        (custody ms).givenUp.length + ps.count .dropNoted)
    (htaken : takenFrom requeue ps = []) (hput : putInto nonces ps = [])
    (hopened : ∀ queue, .closed queue ∉ ps) : Balanced nonces requeue (ms ++ ps) where
  places := by
    -- Places are lists in some order, so the nonces are counted one by one.
    have hbefore := h.places
    rw [List.perm_iff_count] at hbefore hplaces ⊢
    intro n
    have hb := hbefore n
    have hp := hplaces n
    simp only [takenFrom_append, putInto_append, List.count_append] at hb hp ⊢
    omega
  requeues := by
    rw [List.count_append, putInto_append, List.length_append, h.requeues, hrequeues]
  drops := by
    rw [List.count_append, h.drops, hdrops]
  taken := by
    rw [takenFrom_append, h.taken, htaken, List.append_nil]
  put := by
    rw [putInto_append, h.put, hput, List.append_nil]
  opened queue hmem := (List.mem_append.mp hmem).elim (h.opened queue) (hopened queue)

/-- **Taking a nonce** keeps the accounts balanced, since nothing else is in hand. It would
otherwise be forgotten there. -/
theorem Balanced.take {ms : List Motion} (h : Balanced nonces requeue ms)
    (hhand : (custody ms).hand = none) (hne : nonces ≠ requeue) (nonce : UInt64) :
    Balanced nonces requeue (ms ++ [.taken nonces nonce]) := by
  have hcustody : custody (ms ++ [.taken nonces nonce]) =
      { custody ms with hand := some nonce } := custody_append ms _
  have htaken (queue : QueueId) : takenFrom queue [.taken nonces nonce] =
      (if nonces = queue then some nonce else none).toList := by
    rw [takenFrom_cons]
    exact List.append_nil _
  apply h.append
  · rw [hcustody, hhand, htaken, if_pos rfl]
    exact List.perm_append_comm
  · rfl
  · rw [hcustody]
    rfl
  · rw [htaken, if_neg hne]
    rfl
  · rfl
  · intro queue
    simp

/-- **Parting with a nonce** keeps the accounts balanced, and empties the hand. The three ways are
three entries in the accounts. -/
theorem Balanced.part {ms ps : List Motion} {nonce : UInt64} (h : Balanced nonces requeue ms)
    (hhand : (custody ms).hand = some nonce) (hne : nonces ≠ requeue)
    (hparting : Parting requeue nonce ps) :
    Balanced nonces requeue (ms ++ ps) ∧ (custody (ms ++ ps)).hand = none := by
  have hopened : ∀ queue, .closed queue ∉ ps := by
    intro queue
    cases hparting <;> simp
  cases hparting with
  -- From the hand to those that are finished.
  | finished =>
    have hcustody : custody (ms ++ [.finished nonce]) =
        { custody ms with hand := none, finished := (custody ms).finished ++ [nonce] } :=
      custody_append ms _
    refine ⟨h.append ?_ rfl ?_ rfl rfl hopened, by rw [hcustody]⟩
    · rw [hcustody, hhand]
      show ([nonce] ++ (custody ms).finished ++ (custody ms).givenUp ++ []).Perm
        ((custody ms).finished ++ [nonce] ++ (custody ms).givenUp)
      rw [List.append_nil]
      exact List.perm_append_comm.append_right _
    · rw [hcustody]
      rfl
  -- From the hand into the other queue, and counted as requeued.
  | requeued =>
    have hcustody : custody (ms ++ [.put requeue nonce, .requeueNoted]) =
        { custody ms with hand := none } := custody_append ms _
    have hput (queue : QueueId) : putInto queue [.put requeue nonce, .requeueNoted] =
        (if requeue = queue then some nonce else none).toList := by
      rw [putInto_cons]
      exact List.append_nil _
    refine ⟨h.append ?_ ?_ ?_ rfl ?_ hopened, by rw [hcustody]⟩
    · rw [hcustody, hhand, hput, if_pos rfl]
      exact .of_eq (List.append_nil _)
    · rw [hput, if_pos rfl]
      rfl
    · rw [hcustody]
      rfl
    · rw [hput, if_neg hne.symm]
      rfl
  -- From the hand to those that are given up, and counted as dropped.
  | dropped =>
    have hcustody : custody (ms ++ [.dropNoted]) =
        { custody ms with hand := none, givenUp := (custody ms).givenUp ++ [nonce] } := by
      rw [custody_append]
      show Custody.step (custody ms) .dropNoted = _
      rw [Custody.step, hhand]
      rfl
    refine ⟨h.append ?_ rfl ?_ rfl rfl hopened, by rw [hcustody]⟩
    · rw [hcustody, hhand]
      show ([nonce] ++ (custody ms).finished ++ (custody ms).givenUp ++ []).Perm
        ((custody ms).finished ++ ((custody ms).givenUp ++ [nonce]))
      rw [List.append_nil, List.append_assoc, ← List.append_assoc (custody ms).finished]
      exact List.perm_append_comm
    · rw [hcustody, List.length_append]
      rfl

/-- All turns keep the accounts balanced, and leave the hand empty. -/
theorem Handles.balanced {ms : List Motion} (h : Handles nonces requeue ms)
    (hne : nonces ≠ requeue) : Balanced nonces requeue ms ∧ (custody ms).hand = none := by
  induction h with
  | start => exact ⟨⟨.nil, rfl, rfl, rfl, rfl, by simp⟩, rfl⟩
  | @turn ms ps nonce _ hparting ih =>
    obtain ⟨hbalanced, hhand⟩ := ih
    have htaken := hbalanced.take hhand hne nonce
    have hnow : (custody (ms ++ [.taken nonces nonce])).hand = some nonce := by
      rw [custody_append]
      rfl
    rw [List.append_cons]
    exact htaken.part hnow hne hparting

/-- A drain's accounts: what it took it put, and it does nothing else. So it keeps the order of the
nonces. -/
theorem Returns.putInto_eq {ms : List Motion} (h : Returns nonces requeue ms)
    (hne : nonces ≠ requeue) :
    putInto nonces ms = takenFrom requeue ms ∧ takenFrom nonces ms = [] ∧
      putInto requeue ms = [] := by
  induction h with
  | start => exact ⟨rfl, rfl, rfl⟩
  | turn nonce _ ih =>
    obtain ⟨hput, htaken, hnone⟩ := ih
    simp [takenFrom_cons, putInto_cons, Motion.takenFrom?, Motion.putInto?, hput, htaken, hnone,
      hne, hne.symm]
    exact ⟨rfl, rfl, rfl⟩

/-- **A drain that has not stopped** closes no queue, so the processor goes on being fed. -/
theorem closed_notMem_of_loops {first due : Nat}
    (h : Loops (drainNext setup requeue nonces) first t due) (queue : QueueId) :
    .closed queue ∉ motions t := by
  induction h with
  | start => exact List.not_mem_nil
  | turn _ hturn ih =>
    intro hmem
    rw [motions_append] at hmem
    rcases List.mem_append.mp hmem with hmem | hmem
    · exact ih hmem
    rcases drainNext_follows hturn with hnone | ⟨nonce, sent, -, hmotions⟩
    · rw [hnone] at hmem
      cases hmem
    · rw [hmotions] at hmem
      cases sent <;> simp at hmem

end Countersign.Orchestrator
