import Countersign.Proofs.Orchestrator.Listening
import Mathlib.Data.List.Basic

/-!
# Courses of the backfill

A backfill reads its bounds, after failures, and then sends everything between them downwards. It
reads the earliest nonce once only, so where this stands in its course the latest nonce stands
before it and all that it sends behind (`Orchestrator.follows_backfill`).
-/

namespace Countersign.Orchestrator

open Routine

variable {setup : OrchestratorSetup} {queue : QueueId}

/-! ### Reading the bounds -/

/-- The earliest nonce, if it was read. It is read last before the sending, so it marks the place in
a course where the bounds are known. -/
def bound? : Exchange → Option UInt64
  | ⟨.source .earliestNonce, .ok earliest⟩ => some earliest
  | _ => none

/-- A good reading of the bounds asks for the latest nonce first. -/
theorem follows_readBounds_ok {t : List Exchange} {earliest latest : UInt64}
    (h : Follows readBounds t (.ok (earliest, latest))) :
    t = [⟨.source .latestNonce, .ok latest⟩, ⟨.source .earliestNonce, .ok earliest⟩] := by
  obtain ⟨answer, rest, rfl, h₁⟩ := (follows_perform_bind_iff (r := .source .latestNonce)).mp h
  cases answer with
  | error e => obtain ⟨-, ⟨⟩⟩ := follows_done_iff.mp h₁
  | ok l =>
    obtain ⟨answer, rest, rfl, h₂⟩ := (follows_perform_bind_iff (r := .source .earliestNonce)).mp h₁
    cases answer with
    | error e => obtain ⟨-, ⟨⟩⟩ := follows_done_iff.mp h₂
    | ok e =>
      obtain ⟨rfl, heq⟩ := follows_done_iff.mp h₂
      cases heq
      rfl

/-- **A failed reading of the bounds** is quiet, and has not got the earliest nonce. So failed
readings are not taken for the good one. -/
theorem follows_readBounds_error {t : List Exchange} {error : OrchestratorError}
    (h : Follows readBounds t (.error error)) : ∀ e ∈ t, Quiet e ∧ bound? e = none := by
  obtain ⟨answer, rest, rfl, h₁⟩ := (follows_perform_bind_iff (r := .source .latestNonce)).mp h
  intro e he
  cases answer with
  | error e =>
    obtain ⟨rfl, -⟩ := follows_done_iff.mp h₁
    obtain rfl := List.mem_singleton.mp he
    exact ⟨.latestNonce _, rfl⟩
  | ok l =>
    obtain ⟨answer, rest, rfl, h₂⟩ := (follows_perform_bind_iff (r := .source .earliestNonce)).mp h₁
    cases answer with
    | error e =>
      obtain ⟨rfl, -⟩ := follows_done_iff.mp h₂
      simp only [List.mem_cons, List.not_mem_nil, or_false] at he
      rcases he with rfl | rfl
      · exact ⟨.latestNonce _, rfl⟩
      · exact ⟨⟨rfl, fun _ => rfl, fun _ => rfl⟩, rfl⟩
    | ok e => obtain ⟨-, ⟨⟩⟩ := follows_done_iff.mp h₂

/-! ### Sending -/

/-- **What is sent downwards**, if everything is taken: the nonces from the first on, as many as
there are to be. The count is bounded so that the nonces do not come round at zero. -/
theorem mem_sentTo_of_sendDown {count : Nat} {nonce : UInt64} {t : List Exchange}
    (h : Follows (sendDown queue count nonce) t ()) (hcount : count ≤ nonce.toNat + 1)
    (pushed : ∀ n answer, ⟨.send queue n, answer⟩ ∈ t → answer = .sent) (n : UInt64) :
    n ∈ sentTo queue t ↔ n ≤ nonce ∧ nonce.toNat < n.toNat + count := by
  -- On the number of nonces that are left to be sent, from the greatest of them downwards.
  induction count generalizing nonce t with
  | zero =>
    obtain ⟨rfl, -⟩ := follows_done_iff.mp h
    rw [UInt64.le_iff_toNat_le]
    simp [sentTo]
  | succ count ih =>
    obtain ⟨answer, rest, rfl, h₁⟩ := follows_perform_bind_iff.mp h
    obtain rfl := pushed nonce answer List.mem_cons_self
    have hpushed : ∀ m answer, ⟨.send queue m, answer⟩ ∈ rest → answer = .sent :=
      fun m answer hmem => pushed m answer (List.mem_cons_of_mem _ hmem)
    have hfirst : n ∈ sentTo queue (⟨.send queue nonce, .sent⟩ :: rest) ↔
        n = nonce ∨ n ∈ sentTo queue rest := by
      rw [sentTo_cons]
      simp [sent?]
    have heq : n = nonce ↔ n.toNat = nonce.toNat := UInt64.toNat_inj.symm
    rw [hfirst, heq, UInt64.le_iff_toNat_le]
    -- The next nonce below is there, unless this one was the last to be sent.
    cases count with
    | zero =>
      rw [ih h₁ (Nat.zero_le _) hpushed, UInt64.le_iff_toNat_le]
      omega
    | succ count =>
      have hbelow : (nonce - 1).toNat = nonce.toNat - 1 := by
        refine UInt64.toNat_sub_of_le _ _ ?_
        rw [UInt64.le_iff_toNat_le]
        change 1 ≤ nonce.toNat
        omega
      rw [ih h₁ (by omega) hpushed, UInt64.le_iff_toNat_le, hbelow]
      omega

/-- **Nothing else is sent**, and each nonce once and downwards, even if the sending is broken
off. -/
theorem pairwise_sentTo_of_sendDown {count : Nat} {nonce : UInt64} {t : List Exchange}
    (h : Follows (sendDown queue count nonce) t ()) (hcount : count ≤ nonce.toNat + 1) :
    (sentTo queue t).Pairwise (· > ·) ∧
      ∀ n ∈ sentTo queue t, n ≤ nonce ∧ nonce.toNat < n.toNat + count := by
  induction count generalizing nonce t with
  | zero =>
    obtain ⟨rfl, -⟩ := follows_done_iff.mp h
    exact ⟨.nil, nofun⟩
  | succ count ih =>
    obtain ⟨answer, rest, rfl, h₁⟩ := follows_perform_bind_iff.mp h
    cases answer with
    -- Sending that is broken off has sent nothing more.
    | closed =>
      obtain ⟨rfl, -⟩ := follows_done_iff.mp h₁
      exact ⟨.nil, nofun⟩
    | cancelled =>
      obtain ⟨rfl, -⟩ := follows_done_iff.mp h₁
      exact ⟨.nil, nofun⟩
    | sent =>
      -- What comes later is below this nonce, unless it was the last one.
      obtain ⟨hpairwise, hlater⟩ : (sentTo queue rest).Pairwise (· > ·) ∧
          ∀ n ∈ sentTo queue rest, n < nonce ∧ nonce.toNat < n.toNat + (count + 1) := by
        cases count with
        | zero =>
          obtain ⟨rfl, -⟩ := follows_done_iff.mp h₁
          exact ⟨.nil, nofun⟩
        | succ count =>
          have hbelow : (nonce - 1).toNat = nonce.toNat - 1 := by
            refine UInt64.toNat_sub_of_le _ _ ?_
            rw [UInt64.le_iff_toNat_le]
            change 1 ≤ nonce.toNat
            omega
          obtain ⟨hpairwise, hrange⟩ := ih h₁ (by omega)
          refine ⟨hpairwise, fun n hn => ?_⟩
          obtain ⟨hle, hlt⟩ := hrange n hn
          rw [UInt64.le_iff_toNat_le] at hle
          rw [UInt64.lt_iff_toNat_lt]
          omega
      have hsent : sentTo queue (⟨.send queue nonce, .sent⟩ :: rest) =
          nonce :: sentTo queue rest := by
        rw [sentTo_cons]
        simp [sent?]
      -- This nonce stands in front of smaller ones.
      rw [hsent, List.pairwise_cons]
      refine ⟨⟨fun n hn => (hlater n hn).1, hpairwise⟩, fun n hn => ?_⟩
      rcases List.mem_cons.mp hn with rfl | hn
      · exact ⟨UInt64.le_refl n, by omega⟩
      · exact ⟨UInt64.le_of_lt (hlater n hn).1, (hlater n hn).2⟩

/-- Failed readings and the waits between them do not read the earliest nonce. -/
theorem quiet_of_preparing {delay : Nat} {e : Exchange}
    (h : Preparing delay (fun _ => readBounds) e) : Quiet e ∧ bound? e = none := by
  refine ⟨.of_preparing (fun _ _ _ hfailed e he => (follows_readBounds_error hfailed e he).1) h, ?_⟩
  cases h with
  | isCancelled answer => rfl
  | pause answer => rfl
  | failed hfailed he => exact (follows_readBounds_error hfailed e he).2

/-- Nor is it read while sending. -/
theorem bound?_of_sendDown {count : Nat} {nonce : UInt64} {t : List Exchange}
    (h : Follows (sendDown queue count nonce) t ()) : ∀ e ∈ t, bound? e = none := by
  induction count generalizing nonce t with
  | zero =>
    obtain ⟨rfl, -⟩ := follows_done_iff.mp h
    simp
  | succ count ih =>
    obtain ⟨answer, rest, rfl, h₁⟩ := follows_perform_bind_iff.mp h
    refine List.forall_mem_cons.mpr ⟨rfl, ?_⟩
    cases answer with
    | sent => exact ih h₁
    | closed =>
      obtain ⟨rfl, -⟩ := follows_done_iff.mp h₁
      simp
    | cancelled =>
      obtain ⟨rfl, -⟩ := follows_done_iff.mp h₁
      simp

/-! ### The whole course -/

/-- **The whole backfill**: after failed readings of the bounds and a good one, everything between
them is sent. The bounds are those of the good reading, however the course is cut. -/
theorem follows_backfill {result : WorkerResult} {reading sending : List Exchange}
    {earliest latest : UInt64}
    (h : Follows (backfill setup queue)
      (reading ++ ⟨.source .latestNonce, .ok latest⟩ ::
        ⟨.source .earliestNonce, .ok earliest⟩ :: sending) result) :
    (∀ e ∈ reading, Quiet e) ∧
      Follows (sendDown queue
        (rangeSize (if earliest ≤ bootstrapNonce then bootstrapNonce else earliest) latest) latest)
        sending () := by
  rw [backfill] at h
  obtain ⟨bounds, retried, rest, heq, hretry, h₁⟩ := follows_bind_iff.mp h
  cases bounds with
  | error error =>
    -- The earliest nonce would have been read while preparing.
    obtain ⟨rfl, -⟩ := follows_done_iff.mp h₁
    have hmem : ⟨.source .earliestNonce, .ok earliest⟩ ∈ retried := by
      rw [List.append_nil] at heq
      rw [← heq]
      simp
    have hnone := (quiet_of_preparing (follows_retryFrom_error hretry _ hmem)).2
    cases hnone
  | ok bounds =>
    -- The course of the backfill itself, with the bounds that it got.
    obtain ⟨first, last⟩ := bounds
    obtain ⟨before, n, read, rfl, hread, hbefore⟩ := follows_retryFrom_ok hretry
    obtain rfl := follows_readBounds_ok hread
    obtain ⟨u, sends, ending, rfl, hsends, hending⟩ := follows_bind_iff.mp h₁
    obtain ⟨rfl, -⟩ := follows_done_iff.mp hending
    rw [List.append_nil] at heq
    -- The earliest nonce is read only once.
    have hunread : ∀ e ∈ before ++ [⟨.source .latestNonce, .ok last⟩], bound? e = none := by
      intro e he
      rcases List.mem_append.mp he with he | he
      · exact (quiet_of_preparing (hbefore e he)).2
      · obtain rfl := List.mem_singleton.mp he
        rfl
    have hsplit : (before ++ [⟨.source .latestNonce, .ok last⟩]) ++
        ⟨.source .earliestNonce, .ok first⟩ :: sends =
        (reading ++ [⟨.source .latestNonce, .ok latest⟩]) ++
          ⟨.source .earliestNonce, .ok earliest⟩ :: sending := by
      simpa using heq.symm
    -- So the two ways to cut the course at that reading are the same.
    obtain ⟨hreading, hfirst, rfl⟩ := (List.append_cons_inj_of_notMem
      (fun hmem => by cases hunread _ hmem)
      (fun hmem => by cases bound?_of_sendDown hsends _ hmem)).mp hsplit
    obtain ⟨rfl, hlast⟩ := List.append_inj' hreading rfl
    cases hfirst
    cases hlast
    exact ⟨fun e he => (quiet_of_preparing (hbefore e he)).1, hsends⟩

end Countersign.Orchestrator
