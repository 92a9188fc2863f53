import Countersign.Proofs.Relayer.Questions
import Countersign.Proofs.Relayer.Slots
import Countersign.Proofs.Store.QuorumCache

/-!
# What a relayer submits

A call of `Relayer.relayNext` submits at most once. What it submits is the next nonce behind the
contract's last one, under the valset before that nonce, with signatures by place that carry a
quorum of this valset for the digest of what is submitted (`Relayer.relayNext_submissions`).

This holds over every interleaving of calls of one relayer, with replicas that hold anything and a
source and a contract that fail as they like. What the source promises is that attestations do not
change (`SourceSteady`): otherwise a quorum of one valset could be remembered, and submitted under
another one.

The argument goes through the call from its start:

* before it commits, a call has read the contract's last nonce, the latest nonce, the attestation
  and the valset before it (`Committing`, `Relayer.relayNext_asks`);
* it commits to one target, whose digest is that of what it would submit (`Submits`,
  `Relayer.commit_asks`);
* the quorum for this target is polled, or was remembered by a call that committed to the same
  target, so with the same nonce and the same valset before it.
-/

namespace Countersign

/-- The digest that was signed for a submission. The contract computes it again from the arguments
that it receives. -/
def Submission.digest : Submission → Word
  | .valset new _ _ _ => new.digest
  | .dataRoot nonce root _ _ => commitmentDigest nonce root

namespace Relayer

open Routine

variable {setup : RelayerSetup}

/-! ### Waiting for a quorum -/

/-- Waiting for a quorum changes nothing but what the store's call changes. The waiting itself reads
the clock and notes how long it took. -/
theorem quorum_asks {target : QuorumTarget} {current : Valset} {t : List Exchange} {r : Request}
    (h : Asks (quorum setup target current) t r) (hr : isEffect r = true) :
    ∃ mid, mid <:+: t ∧ Asks (Store.queryQuorum setup.store target current
      setup.config.quorumTimeout) mid r := by
  rw [quorum] at h
  -- Apart from the query itself there are readings of the clock and a note.
  rcases asks_perform_bind_iff.mp h with ⟨-, rfl⟩ | ⟨started, t₁, rfl, h₁⟩
  · cases hr
  rcases asks_bind_iff.mp h₁ with hquery | ⟨result, t₂, t₃, rfl, -, h₂⟩
  · exact ⟨t₁, List.infix_cons (List.infix_refl _), hquery⟩
  rcases asks_perform_bind_iff.mp h₂ with ⟨-, rfl⟩ | ⟨ended, t₄, rfl, h₃⟩
  · cases hr
  rcases asks_perform_bind_iff.mp h₃ with ⟨-, rfl⟩ | ⟨_, t₅, rfl, h₄⟩
  · cases hr
  split at h₄
  · exact absurd h₄ not_asks_done
  · exact absurd h₄ not_asks_done

/-- A quorum that was waited for is the answer of a call of the store. -/
theorem quorum_follows {target : QuorumTarget} {current : Valset} {t : List Exchange}
    {confirms : List Confirm} (h : Follows (quorum setup target current) t (.ok confirms)) :
    ∃ mid, mid <:+: t ∧ Follows (Store.queryQuorum setup.store target current
      setup.config.quorumTimeout) mid (.ok confirms) := by
  rw [quorum] at h
  obtain ⟨started, t₁, rfl, h₁⟩ := follows_perform_bind_iff.mp h
  obtain ⟨result, t₂, t₃, rfl, hquery, h₂⟩ := follows_bind_iff.mp h₁
  obtain ⟨ended, t₄, rfl, h₃⟩ := follows_perform_bind_iff.mp h₂
  obtain ⟨_, t₅, rfl, h₄⟩ := follows_perform_bind_iff.mp h₃
  refine ⟨t₂, List.infix_cons (List.infix_append' [] t₂ _), ?_⟩
  split at h₄
  · obtain ⟨-, heq⟩ := follows_done_iff.mp h₄
    rwa [Except.ok.inj heq]
  · obtain ⟨-, heq⟩ := follows_done_iff.mp h₄
    cases heq

/-- A quorum that the store finds is what the waiting comes to. -/
theorem quorum_follows_of_queryQuorum {target : QuorumTarget} {current : Valset}
    {mid : List Exchange} {confirms : List Confirm} (started ended : Nat)
    (h : Follows (Store.queryQuorum setup.store target current setup.config.quorumTimeout) mid
      (.ok confirms)) :
    Follows (quorum setup target current)
      (⟨.now, started⟩ :: (mid ++ [⟨.now, ended⟩, ⟨.note (.quorumWaited (ended - started)), ()⟩]))
      (.ok confirms) := by
  rw [quorum]
  refine .perform_bind (h.bind ?_)
  refine .perform_bind ?_
  refine .perform_bind ?_
  exact .done _

/-! ### Committing -/

/-- **Submissions to one target**: whatever the signatures, they are for the target's nonce and
digest and under one valset. -/
structure Submits (target : QuorumTarget) (current : Valset)
    (submission : List Vrs → Submission) : Prop where
  nonce : ∀ signatures, (submission signatures).nonce = target.nonce
  kind : ∀ signatures, (submission signatures).kind = target.kind
  digest : ∀ signatures, (submission signatures).digest = target.digest
  current_eq : ∀ signatures, (submission signatures).current = current
  signatures_eq : ∀ signatures, (submission signatures).signatures = signatures

/-- **What waiting and submitting may change**: a quorum is remembered by the call for it, or the
signatures of its confirms are submitted. -/
theorem submitWithQuorum_asks {target : QuorumTarget} {current : Valset}
    {submission : List Vrs → Submission} {t : List Exchange} {r : Request}
    (h : Asks (submitWithQuorum setup target current submission) t r) (hr : isEffect r = true) :
    (∃ mid, mid <:+: t ∧ Asks (Store.queryQuorum setup.store target current
      setup.config.quorumTimeout) mid r) ∨
    (∃ mid confirms signatures, mid <:+: t ∧ Follows (Store.queryQuorum setup.store target current
        setup.config.quorumTimeout) mid (.ok confirms) ∧
      orderSignatures current confirms = .ok signatures ∧ r = .submit (submission signatures)) := by
  rw [submitWithQuorum] at h
  rcases asks_bind_iff.mp h with hquorum | ⟨result, t₁, t₂, rfl, hquorum, h₁⟩
  · -- The wait for the quorum.
    exact Or.inl (quorum_asks hquorum hr)
  cases result with
  | error e => exact absurd h₁ not_asks_done
  | ok confirms =>
    obtain ⟨mid, hmid, hquery⟩ := quorum_follows hquorum
    -- The signatures are lined up, and submitted if that succeeds.
    cases hslots : orderSignatures current confirms with
    | error e =>
      simp only [hslots] at h₁
      exact absurd h₁ not_asks_done
    | ok signatures =>
      simp only [hslots] at h₁
      rcases asks_perform_bind_iff.mp h₁ with ⟨-, rfl⟩ | ⟨answer, t₃, rfl, h₂⟩
      · exact Or.inr ⟨mid, confirms, signatures, hmid.trans (List.infix_append' [] t₁ t₂), hquery,
          hslots, rfl⟩
      · split at h₂
        · exact absurd h₂ not_asks_done
        · exact absurd h₂ not_asks_done

/-- **Committing an attestation** is waiting for a quorum for one target, and submitting to it. A
valset is submitted with its own nonce, whichever was looked for. -/
theorem commit_asks_submitWithQuorum {nonce : UInt64} {attestation : Attestation}
    {current : Valset} {t : List Exchange} {r : Request}
    (h : Asks (commit setup nonce attestation current) t r) (hr : isEffect r = true) :
    ∃ target submission mid, target.nonce = nonce ∧
      (attestation.nonce = nonce → Submits target current submission) ∧ mid <:+: t ∧
      Asks (submitWithQuorum setup target current submission) mid r := by
  cases attestation with
  | valset new =>
    refine ⟨⟨.valset, nonce, new.digest⟩, _, t, rfl, fun hnonce => ?_, List.infix_refl _, h⟩
    exact ⟨fun _ => hnonce, fun _ => rfl, fun _ => rfl, fun _ => rfl, fun _ => rfl⟩
  | dataCommitment c =>
    -- For a commitment the source is asked for the root first, and the target has the answer.
    rw [commit] at h
    rcases asks_perform_bind_iff.mp h with ⟨-, rfl⟩ | ⟨answer, t₁, rfl, h₁⟩
    · cases hr
    cases answer with
    | error e => exact absurd h₁ not_asks_done
    | ok root =>
      refine ⟨⟨.dataCommitment, nonce, commitmentDigest nonce root⟩, _, t₁, rfl, fun _ => ?_,
        List.infix_cons (List.infix_refl _), h₁⟩
      exact ⟨fun _ => rfl, fun _ => rfl, fun _ => rfl, fun _ => rfl, fun _ => rfl⟩

/-- With the attestation that was looked for, the submissions of a commit are to one target. -/
theorem commit_asks {nonce : UInt64} {attestation : Attestation} {current : Valset}
    {t : List Exchange} {r : Request} (hnonce : attestation.nonce = nonce)
    (h : Asks (commit setup nonce attestation current) t r) (hr : isEffect r = true) :
    ∃ target submission mid, target.nonce = nonce ∧ Submits target current submission ∧
      mid <:+: t ∧ Asks (submitWithQuorum setup target current submission) mid r := by
  obtain ⟨target, submission, mid, htarget, hsubmits, hmid, hasks⟩ :=
    commit_asks_submitWithQuorum h hr
  exact ⟨target, submission, mid, htarget, hsubmits hnonce, hmid, hasks⟩

/-- **What is submitted** for an attestation: a valset with its own threshold, or the root that the
source told, under the valset whose members signed. -/
inductive SubmittedFor (nonce : UInt64) (current : Valset) : Attestation → Submission → Prop where
  | valset (new : Valset) (signatures : List Vrs) : SubmittedFor nonce current (.valset new)
      (.valset new new.threshold current signatures)
  | dataRoot (c : DataCommitment) (root : Word) (signatures : List Vrs) :
      SubmittedFor nonce current (.dataCommitment c) (.dataRoot nonce root current signatures)

/-- What is submitted differs from other submissions to the target in the signatures only. -/
theorem submitWithQuorum_asks_submit {target : QuorumTarget} {current : Valset}
    {submission : List Vrs → Submission} {t : List Exchange} {s : Submission}
    (h : Asks (submitWithQuorum setup target current submission) t (.submit s)) :
    ∃ signatures, s = submission signatures := by
  rcases submitWithQuorum_asks h rfl with
    ⟨mid, -, hquery⟩ | ⟨mid, confirms, signatures, -, -, -, hsubmit⟩
  · cases Store.conforms_queryQuorum.asks hquery
  · exact ⟨signatures, Request.submit.inj hsubmit⟩

/-- **What a commit submits** is for its attestation, whatever quorum it had. -/
theorem commit_asks_submit {nonce : UInt64} {attestation : Attestation} {current : Valset}
    {t : List Exchange} {s : Submission}
    (h : Asks (commit setup nonce attestation current) t (.submit s)) :
    SubmittedFor nonce current attestation s := by
  cases attestation with
  | valset new =>
    obtain ⟨signatures, rfl⟩ := submitWithQuorum_asks_submit h
    exact .valset new signatures
  | dataCommitment c =>
    rw [commit] at h
    rcases asks_perform_bind_iff.mp h with ⟨-, ⟨⟩⟩ | ⟨answer, t₁, rfl, h₁⟩
    cases answer with
    | error e => exact absurd h₁ not_asks_done
    | ok root =>
      obtain ⟨signatures, rfl⟩ := submitWithQuorum_asks_submit h₁
      exact .dataRoot c root signatures

/-- **What a call has read when it commits.** The first three fields are the answers of contract and
source, the last two the searches in the source's history, as parts of the course. -/
structure Committing (setup : RelayerSetup) (t : List Exchange) (last latest : UInt64)
    (attestation : Attestation) (current : Valset) : Prop where
  lastRelayed : ⟨.lastRelayed, .ok last⟩ ∈ t
  latestNonce : ⟨.source .latestNonce, .ok latest⟩ ∈ t
  behind : last < latest
  attested : ∃ mid, mid <:+: t ∧
    Follows (History.attestation setup.config.history (last + 1)) mid (.ok attestation)
  before : ∃ mid, mid <:+: t ∧
    Follows (History.valsetBefore setup.config.history (last + 1)) mid (.ok current)

/-- **Relaying changes nothing before it commits.** What changes something is asked within the
commit, and by then attestation and valset were found. -/
theorem relay_asks {nonce : UInt64} {t : List Exchange} {r : Request}
    (h : Asks (relay setup nonce) t r) (hr : isEffect r = true) :
    ∃ attestation current mid,
      (∃ mid, mid <:+: t ∧
        Follows (History.attestation setup.config.history nonce) mid (.ok attestation)) ∧
      (∃ mid, mid <:+: t ∧
        Follows (History.valsetBefore setup.config.history nonce) mid (.ok current)) ∧
      mid <:+: t ∧ Asks (commit setup nonce attestation current) mid r := by
  rw [relay] at h
  -- A search has no effect, so the request is not one of its own.
  rcases asks_bind_iff.mp h with hask | ⟨found, t₁, t₂, rfl, hfound, h₁⟩
  · exact absurd hask (not_asks_effect (conforms_attestation _ _) hr)
  cases found with
  | error e => exact absurd h₁ not_asks_done
  | ok attestation =>
    rcases asks_bind_iff.mp h₁ with hask | ⟨prior, t₃, t₄, rfl, hprior, h₂⟩
    · exact absurd hask (not_asks_effect (conforms_valsetBefore _ _) hr)
    cases prior with
    | error e => exact absurd h₂ not_asks_done
    | ok current =>
      refine ⟨attestation, current, ?_⟩
      -- The searches are parts of the whole course, whatever follows.
      have hattested : ∃ mid, mid <:+: t₁ ++ (t₃ ++ t₄) ∧
          Follows (History.attestation setup.config.history nonce) mid (.ok attestation) :=
        ⟨t₁, List.infix_append' [] _ _, hfound⟩
      have hbefore : ∃ mid, mid <:+: t₁ ++ (t₃ ++ t₄) ∧
          Follows (History.valsetBefore setup.config.history nonce) mid (.ok current) :=
        ⟨t₃, List.infix_append' t₁ t₃ t₄, hprior⟩
      rcases asks_bind_iff.mp h₂ with hcommit | ⟨result, t₅, t₆, rfl, -, h₃⟩
      · refine ⟨t₄, hattested, hbefore, ?_, hcommit⟩
        exact (List.suffix_append t₃ t₄).isInfix.trans (List.suffix_append t₁ _).isInfix
      · -- Behind the commit a call only notes what it did.
        cases result with
        | error e => exact absurd h₃ not_asks_done
        | ok transaction =>
          rcases asks_perform_bind_iff.mp h₃ with ⟨-, rfl⟩ | ⟨_, t₇, rfl, h₄⟩
          · cases hr
          · exact absurd h₄ not_asks_done

/-- **A call changes nothing before it commits.** To the two searches of `relay_asks` this adds the
reads of contract and source. -/
theorem relayNext_asks {t : List Exchange} {r : Request} (h : Asks (relayNext setup) t r)
    (hr : isEffect r = true) :
    ∃ last latest attestation current mid, Committing setup t last latest attestation current ∧
      mid <:+: t ∧ Asks (commit setup (last + 1) attestation current) mid r := by
  rw [relayNext] at h
  -- A read has no effect, so none of the three that come first is the request.
  rcases asks_perform_bind_iff.mp h with ⟨-, rfl⟩ | ⟨lastAnswer, t₁, rfl, h₁⟩
  · cases hr
  cases lastAnswer with
  | error e => exact absurd h₁ not_asks_done
  | ok last =>
    rcases asks_perform_bind_iff.mp h₁ with ⟨-, rfl⟩ | ⟨_, t₂, rfl, h₂⟩
    · cases hr
    rcases asks_perform_bind_iff.mp h₂ with ⟨-, rfl⟩ | ⟨latestAnswer, t₃, rfl, h₃⟩
    · cases hr
    cases latestAnswer with
    | error e => exact absurd h₃ not_asks_done
    | ok latest =>
      dsimp only at h₃
      split at h₃
      · exact absurd h₃ not_asks_done
      · -- The contract is behind the source, so the call relays.
        next hbehind =>
        obtain ⟨attestation, current, mid, ⟨t₄, ht₄, hattested⟩, ⟨t₅, ht₅, hbefore⟩, hmid,
          hcommit⟩ := relay_asks h₃ hr
        -- What is found in the rest of the course stands behind three reads.
        have later : ∀ {e₁ e₂ e₃ : Exchange} {t₄ : List Exchange}, t₄ <:+: t₃ →
            t₄ <:+: e₁ :: e₂ :: e₃ :: t₃ :=
          fun h => List.infix_cons (List.infix_cons (List.infix_cons h))
        refine ⟨last, latest, attestation, current, mid, ⟨?_, ?_, ?_, ?_, ?_⟩, later hmid, hcommit⟩
        · exact List.mem_cons_self
        · exact List.mem_cons_of_mem _ (List.mem_cons_of_mem _ List.mem_cons_self)
        · exact UInt64.not_le.mp hbehind
        · exact ⟨t₄, later ht₄, hattested⟩
        · exact ⟨t₅, later ht₅, hbefore⟩

/-! ### At most one submission -/

/-- Waiting for a quorum submits nothing. -/
theorem asksAtMost_quorum (target : QuorumTarget) (current : Valset) :
    AsksAtMost isSubmission 0 (quorum setup target current) := by
  have query : AsksAtMost isSubmission 0
      (Store.queryQuorum setup.store target current setup.config.quorumTimeout) := by
    refine (Store.conforms_queryQuorum.mono (fun r hr => ?_) fun _ h => h).asksAtMost_zero
    cases hr <;> rfl
  rw [quorum]
  refine asksAtMost_perform_bind rfl fun started => query.bind_quiet fun result => ?_
  refine asksAtMost_perform_bind rfl fun ended => asksAtMost_perform_bind rfl fun _ => ?_
  split <;> exact asksAtMost_done

/-- With a quorum there is one submission, and without there is none. -/
theorem asksAtMost_submitWithQuorum (target : QuorumTarget) (current : Valset)
    (submission : List Vrs → Submission) :
    AsksAtMost isSubmission 1 (submitWithQuorum setup target current submission) := by
  rw [submitWithQuorum]
  refine (asksAtMost_quorum target current).bind_quiet fun result => ?_
  split
  · exact asksAtMost_done
  split
  · exact asksAtMost_done
  refine AsksAtMost.bind (n := 0) asksAtMost_perform fun answer => ?_
  split <;> exact asksAtMost_done

theorem asksAtMost_commit (nonce : UInt64) (attestation : Attestation) (current : Valset) :
    AsksAtMost isSubmission 1 (commit setup nonce attestation current) := by
  cases attestation with
  | valset new => exact asksAtMost_submitWithQuorum _ _ _
  | dataCommitment c =>
    rw [commit]
    refine asksAtMost_perform_bind rfl fun answer => ?_
    split
    · exact asksAtMost_done
    · exact asksAtMost_submitWithQuorum _ _ _

/-- **A call submits at most once**, whatever it is answered. A submission that fails is left to the
next call. -/
theorem asksAtMost_relayNext : AsksAtMost isSubmission 1 (relayNext setup) := by
  rw [relayNext]
  refine asksAtMost_perform_bind rfl fun last => ?_
  split
  · exact asksAtMost_done
  refine asksAtMost_perform_bind rfl fun _ => asksAtMost_perform_bind rfl fun latest => ?_
  split
  · exact asksAtMost_done
  split
  · exact asksAtMost_done
  -- The searches submit nothing, so what is submitted is submitted by the commit.
  rw [relay]
  refine (asksAtMost_zero_of_isQuestion (conforms_attestation _ _)).bind_quiet fun found => ?_
  split
  · exact asksAtMost_done
  refine (asksAtMost_zero_of_isQuestion (conforms_valsetBefore _ _)).bind_quiet fun prior => ?_
  split
  · exact asksAtMost_done
  refine AsksAtMost.bind (n := 0) (asksAtMost_commit _ _ _) fun result => ?_
  split
  · exact asksAtMost_done
  · exact asksAtMost_perform_bind rfl fun _ => asksAtMost_done

/-! ### Quorums over all calls -/

/-- **A source whose attestations do not change**, as far as the searches of numbered calls go: an
attestation that is found has the nonce that was looked for, and the valset before a nonce is the
same each time, with each address once. -/
structure SourceSteady (config : HistoryConfig) (course : List (Nat × Exchange))
    (before : UInt64 → Valset) : Prop where
  attestation : ∀ n nonce found mid, mid <:+: ofCall n course →
    Follows (History.attestation config nonce) mid (.ok found) → found.nonce = nonce
  valset : ∀ n nonce found mid, mid <:+: ofCall n course →
    Follows (History.valsetBefore config nonce) mid (.ok found) → found = before nonce
  distinct : ∀ nonce, (before nonce).addresses.Nodup

variable {before : UInt64 → Valset}

/-- **A call that changes something** has committed to a target with the nonce behind the contract's
last one, under the valset before that nonce. -/
theorem committed {h : Interleaving fun _ : Nat => relayNext setup}
    (steady : SourceSteady setup.config.history h.course before) {n : Nat} {e : Exchange}
    (he : (n, e) ∈ h.course) (heffect : isEffect e.1 = true) :
    ∃ last latest target submission mid,
      (n, ⟨.lastRelayed, .ok last⟩) ∈ h.course ∧
      (n, ⟨.source .latestNonce, .ok latest⟩) ∈ h.course ∧ last < latest ∧
      target.nonce = last + 1 ∧ Submits target (before target.nonce) submission ∧
      mid <:+: ofCall n h.course ∧
      Asks (submitWithQuorum setup target (before target.nonce) submission) mid e.1 := by
  obtain ⟨earlier, later, hsplit⟩ := List.append_of_mem he
  -- What the call read before, it read somewhere in its part of the whole course.
  have hpart : ofCall n earlier <:+: ofCall n h.course := by
    rw [hsplit, ofCall_append]
    exact (List.prefix_append _ _).isInfix
  obtain ⟨last, latest, attestation, current, mid, read, hmid, hcommit⟩ :=
    relayNext_asks (h.asks hsplit) heffect
  -- What the searches found is what the source promises of them.
  obtain ⟨t₁, ht₁, hattested⟩ := read.attested
  obtain ⟨t₂, ht₂, hbefore⟩ := read.before
  have hnonce := steady.attestation n _ _ _ (ht₁.trans hpart) hattested
  have hcurrent := steady.valset n _ _ _ (ht₂.trans hpart) hbefore
  obtain ⟨target, submission, mid', htarget, hsubmits, hmid', hasks⟩ :=
    commit_asks hnonce hcommit heffect
  rw [hcurrent, ← htarget] at hsubmits hasks
  -- Put together: the nonce is the next one, and the valset the one before it.
  exact ⟨last, latest, target, submission, mid', mem_ofCall.mp (hpart.subset read.lastRelayed),
    mem_ofCall.mp (hpart.subset read.latestNonce), read.behind, htarget, hsubmits,
    (hmid'.trans hmid).trans hpart, hasks⟩

/-- **What a call is given is a quorum** of the valset before the target's nonce, polled or not: a
call that remembered it had committed to the same nonce. -/
theorem isQuorum_of_queryQuorum {h : Interleaving fun _ : Nat => relayNext setup}
    (faithful : Store.CacheFaithful h.course)
    (steady : SourceSteady setup.config.history h.course before) {n : Nat} {target : QuorumTarget}
    {confirms : List Confirm} {mid : List Exchange} (hmid : mid <:+: ofCall n h.course)
    (hquery : Follows (Store.queryQuorum setup.store target (before target.nonce)
      setup.config.quorumTimeout) mid (.ok confirms)) :
    IsQuorum target (before target.nonce) confirms := by
  rcases Store.queryQuorum_follows (steady.distinct _) hquery with
    ⟨records, rfl, hdecode⟩ | ⟨_, _, hquorum⟩
  · have hmem : (n, ⟨.recall target, some records⟩) ∈ h.course :=
      mem_ofCall.mp (hmid.subset List.mem_cons_self)
    obtain ⟨m, hm⟩ := faithful.exists_remember hmem
    obtain ⟨-, -, target', submission, mid', -, -, -, -, -, -, hasks⟩ := committed steady hm rfl
    rcases submitWithQuorum_asks hasks rfl with ⟨_, _, hremember⟩ | ⟨_, _, _, _, _, _, hsubmit⟩
    · -- It was remembered under the target of the other call, and so under the same nonce.
      obtain ⟨rfl, confirms', hquorum, rfl⟩ :=
        Store.queryQuorum_asks_remember (steady.distinct _) hremember
      rw [Store.decodeQuorum_encode hquorum.kinds] at hdecode
      rwa [← Except.ok.inj hdecode]
    · cases hsubmit
  · exact hquorum

/-- **What a relayer submits.** Each call submits at most once; and each submission is for the nonce
behind the contract's last one as the call read it, which the source has reached, under the valset
before this nonce, with signatures by place that carry a quorum of that valset for the submission's
digest. -/
theorem relayNext_submissions (h : Interleaving fun _ : Nat => relayNext setup)
    (faithful : Store.CacheFaithful h.course)
    (steady : SourceSteady setup.config.history h.course before) (n : Nat) :
    (ofCall n h.course).countP (fun e => isSubmission e.1) ≤ 1 ∧
    ∀ submission answer, (n, ⟨.submit submission, answer⟩) ∈ h.course →
      ∃ last latest, (n, ⟨.lastRelayed, .ok last⟩) ∈ h.course ∧
        (n, ⟨.source .latestNonce, .ok latest⟩) ∈ h.course ∧ last < latest ∧
        submission.nonce = last + 1 ∧ submission.current = before (last + 1) ∧
        Quorate submission.digest submission.current submission.signatures := by
  refine ⟨asksAtMost_relayNext _ (h.begins n), fun submission answer hmem => ?_⟩
  obtain ⟨last, latest, target, submit, mid, hlast, hlatest, hbehind, htarget, hsubmits, hmid,
    hasks⟩ := committed steady hmem rfl
  refine ⟨last, latest, hlast, hlatest, hbehind, ?_⟩
  rcases submitWithQuorum_asks hasks rfl with
    ⟨_, _, hquery⟩ | ⟨mid', confirms, signatures, hmid', hquery, horder, heq⟩
  · -- The call for the quorum itself does not submit.
    cases Store.conforms_queryQuorum.asks hquery
  · have hquorum := isQuorum_of_queryQuorum faithful steady (hmid'.trans hmid) hquery
    obtain rfl : submission = submit signatures := by simpa using heq
    rw [hsubmits.nonce, hsubmits.current_eq, hsubmits.digest, hsubmits.signatures_eq, ← htarget]
    exact ⟨rfl, rfl, quorate_of_orderSignatures hquorum (steady.distinct _) horder⟩

/-! ### A call that submits -/

/-- The submission of a commitment that the only member of a valset signed. -/
def soleSubmission (nonce : UInt64) (root : Word) (signer : Address) (x : Vrs) : Submission :=
  .dataRoot nonce root (Store.soleValset signer) [x]

/-- **The course of a call that finds everything at once**: the commitment, the valset before it,
and the record of its only member. -/
def soleCourse (setup : RelayerSetup) (target : QuorumTarget) (root : Word) (confirm : Confirm)
    (x : Vrs) : List Exchange :=
  -- How far contract and source are.
  [⟨.lastRelayed, .ok (target.nonce - 1)⟩, ⟨.note (.lastRelayed (target.nonce - 1)), ()⟩,
    ⟨.source .latestNonce, .ok target.nonce⟩,
    -- What is to be submitted, and under which valset.
    ⟨.source (.attestation target.nonce), .ok (some (.dataCommitment ⟨target.nonce, 1, 2⟩))⟩,
    ⟨.source (.valsetBefore target.nonce), .ok (Store.soleValset confirm.signer)⟩,
    ⟨.source (.dataRoot 1 2), .ok root⟩,
    -- The quorum, in the first poll.
    ⟨.now, (0 : Nat)⟩, ⟨.recall target, none⟩, ⟨.now, (0 : Nat)⟩, ⟨.isCancelled, false⟩,
    ⟨.getAll [Store.confirmKey target.kind target.nonce confirm.signer] setup.store.requestTimeout,
      [.ok [Bytes.ofText confirm.encode]]⟩,
    ⟨.remember target [Bytes.ofText confirm.encode], ()⟩,
    ⟨.now, (0 : Nat)⟩, ⟨.note (.quorumWaited 0), ()⟩,
    ⟨.submit (soleSubmission target.nonce root confirm.signer x), .ok 0⟩]

/-- A nonce behind the first one is greater than the one before it, so a contract at the one before
is behind. -/
theorem not_le_pred {nonce : UInt64} (h : bootstrapNonce < nonce) : ¬ nonce ≤ nonce - 1 := by
  -- The nonce is not zero, so subtracting one does not wrap around.
  have hpos : bootstrapNonce.toNat < nonce.toNat := UInt64.lt_iff_toNat_lt.mp h
  have hone : (1 : UInt64) ≤ nonce := by
    rw [UInt64.le_iff_toNat_le]
    change 1 ≤ nonce.toNat
    omega
  rw [UInt64.le_iff_toNat_le, UInt64.toNat_sub_of_le _ _ hone]
  change ¬ nonce.toNat ≤ nonce.toNat - 1
  omega

/-- The only member's signature is the only slot. -/
theorem orderSignatures_sole {confirm : Confirm} {x : Vrs}
    (hparse : Vrs.parse confirm.signature = .ok x) :
    orderSignatures (Store.soleValset confirm.signer) [confirm] = .ok [x] := by
  have hfirst : IsFirstWith Confirm.signer confirm.signer [confirm] confirm :=
    ⟨[], [], rfl, rfl, by simp⟩
  have hplace : StandsAt [confirm] ⟨1, confirm.signer⟩ x :=
    slotOf_eq_ok_iff.mp ((slotOf_of_isFirstWith hfirst).trans hparse)
  exact orderSignatures_eq_ok_iff.mpr (.cons hplace .nil)

/-- The course of a call that finds the commitment and the valset before it at once, and then has a
quorum of the valset's only member, however it is found. -/
def relayCourse (target : QuorumTarget) (root : Word) (signer : Address) (x : Vrs)
    (query : List Exchange) : List Exchange :=
  [⟨.lastRelayed, .ok (target.nonce - 1)⟩, ⟨.note (.lastRelayed (target.nonce - 1)), ()⟩,
    ⟨.source .latestNonce, .ok target.nonce⟩,
    ⟨.source (.attestation target.nonce), .ok (some (.dataCommitment ⟨target.nonce, 1, 2⟩))⟩,
    ⟨.source (.valsetBefore target.nonce), .ok (Store.soleValset signer)⟩,
    ⟨.source (.dataRoot 1 2), .ok root⟩, ⟨.now, (0 : Nat)⟩] ++
  (query ++ [⟨.now, (0 : Nat)⟩, ⟨.note (.quorumWaited 0), ()⟩,
    ⟨.submit (soleSubmission target.nonce root signer x), .ok 0⟩])

/-- A call of a relayer may take this course, if the store's call may take `query` and its confirms
are lined up as the member's signature. -/
theorem begins_relayCourse {target : QuorumTarget} {root : Word} {signer : Address} {x : Vrs}
    {query : List Exchange} {confirms : List Confirm}
    (hcommitment : target.kind = .dataCommitment) (hnonce : bootstrapNonce < target.nonce)
    (hdigest : target.digest = commitmentDigest target.nonce root)
    (hquery : Follows (Store.queryQuorum setup.store target (Store.soleValset signer)
      setup.config.quorumTimeout) query (.ok confirms))
    (horder : orderSignatures (Store.soleValset signer) confirms = .ok [x]) :
    Begins (relayNext setup) (relayCourse target root signer x query) := by
  -- The target is the one that the commit names, and its nonce the one behind the contract's last.
  have htarget : (⟨.dataCommitment, target.nonce, commitmentDigest target.nonce root⟩ :
      QuorumTarget) = target := by
    rw [← hcommitment, ← hdigest]
  have hnext : target.nonce - 1 + 1 = target.nonce := by
    rw [UInt64.sub_add_cancel]
  -- Both searches are answered by their first question.
  have hattested : Follows (History.attestation setup.config.history target.nonce)
      [⟨.source (.attestation target.nonce), .ok (some (.dataCommitment ⟨target.nonce, 1, 2⟩))⟩]
      (.ok (.dataCommitment ⟨target.nonce, 1, 2⟩)) :=
    .perform_bind (r := .source (.attestation target.nonce)) (.done _)
  have hbefore : Follows (History.valsetBefore setup.config.history target.nonce)
      [⟨.source (.valsetBefore target.nonce), .ok (Store.soleValset signer)⟩]
      (.ok (Store.soleValset signer)) :=
    .perform_bind (r := .source (.valsetBefore target.nonce)) (.done _)
  have hquorum := quorum_follows_of_queryQuorum 0 0 hquery
  -- With its quorum the call submits, and is broken off there.
  have hcommit : Begins (submitWithQuorum setup target (Store.soleValset signer)
      fun signatures => .dataRoot target.nonce root (Store.soleValset signer) signatures)
      ((⟨.now, (0 : Nat)⟩ :: (query ++ [⟨.now, (0 : Nat)⟩, ⟨.note (.quorumWaited 0), ()⟩])) ++
        [⟨.submit (soleSubmission target.nonce root signer x), .ok 0⟩]) := by
    rw [submitWithQuorum]
    refine hquorum.begins_bind ?_
    simp only [horder]
    exact .perform_bind (.nil _)
  rw [List.cons_append, List.append_assoc] at hcommit
  rw [relayNext]
  -- The contract's last nonce, a note of it, and the source's latest one.
  refine .perform_bind ?_
  refine .perform_bind ?_
  refine .perform_bind (r := .source .latestNonce) ?_
  dsimp only
  rw [if_neg (not_le_pred hnonce), relay, hnext]
  refine hattested.begins_bind (hbefore.begins_bind ?_)
  -- The call is broken off behind its submission, so it is still within its commit.
  refine begins_bind_iff.mpr (Or.inl ?_)
  rw [commit]
  refine .perform_bind (r := .source (.dataRoot 1 2)) ?_
  dsimp only
  rw [htarget]
  exact hcommit

/-- The query of the sole course is a poll that finds the record of the only member. -/
theorem begins_soleCourse {target : QuorumTarget} {root : Word} {confirm : Confirm} {x : Vrs}
    (hcommitment : target.kind = .dataCommitment) (hnonce : bootstrapNonce < target.nonce)
    (hdigest : target.digest = commitmentDigest target.nonce root)
    (hkind : confirm.kind = target.kind) (hcheck : confirm.checkSignature target.nonce = .ok ())
    (hverify : verifyText target.digest confirm.signature confirm.signer = .ok ())
    (hparse : Vrs.parse confirm.signature = .ok x) :
    Begins (relayNext setup) (soleCourse setup target root confirm x) :=
  begins_relayCourse hcommitment hnonce hdigest
    (Store.queryQuorum_follows_sole hkind hcheck hverify setup.config.quorumTimeout)
    (orderSignatures_sole hparse)

/-- The source of the sole course is asked once for each thing, so it does not change. -/
theorem sourceSteady_soleCourse (config : HistoryConfig) (target : QuorumTarget) (root : Word)
    (confirm : Confirm) (x : Vrs) :
    SourceSteady config ((soleCourse setup target root confirm x).map fun e => (0, e))
      fun _ => Store.soleValset confirm.signer := by
  -- Each search is answered by its first question, and this stands in the course once.
  refine ⟨fun n nonce found mid hmid h => ?_, fun n nonce found mid hmid h => ?_, fun nonce => ?_⟩
  · rw [History.attestation] at h
    obtain ⟨answer, rest, rfl, h₁⟩ :=
      (follows_perform_bind_iff (r := .source (.attestation nonce))).mp h
    have hmem := mem_ofCall.mp (hmid.subset List.mem_cons_self)
    simp [soleCourse] at hmem
    obtain ⟨-, rfl, rfl⟩ := hmem
    obtain ⟨-, heq⟩ := follows_done_iff.mp h₁
    rw [Except.ok.inj heq]
    rfl
  · rw [History.valsetBefore] at h
    obtain ⟨answer, rest, rfl, h₁⟩ :=
      (follows_perform_bind_iff (r := .source (.valsetBefore nonce))).mp h
    have hmem := mem_ofCall.mp (hmid.subset List.mem_cons_self)
    simp [soleCourse] at hmem
    obtain ⟨-, rfl, rfl⟩ := hmem
    obtain ⟨-, heq⟩ := follows_done_iff.mp h₁
    exact Except.ok.inj heq
  · simp [Store.soleValset, Valset.addresses]

/-- **A call that submits**, with a quorum of one. -/
theorem relayNext_submissions_sole :
    ∃ (h : Interleaving fun _ : Nat => relayNext ⟨.standard, .standard⟩) (nonce : UInt64)
      (root : Word) (signer : Address) (x : Vrs),
      (0, ⟨.submit (soleSubmission nonce root signer x), .ok 0⟩) ∈ h.course ∧
        Quorate (commitmentDigest nonce root) (Store.soleValset signer) [x] := by
  obtain ⟨target, root, confirm, hcommitment, hnonce, hdigest, hkind, hcheck, hverify⟩ :=
    Store.exists_confirm
  obtain ⟨x, hparse, -⟩ := verifyText_eq_ok_iff.mp hverify
  let setup : RelayerSetup := ⟨.standard, .standard⟩
  have hbegins : Begins (relayNext setup) (soleCourse setup target root confirm x) :=
    begins_soleCourse hcommitment hnonce hdigest hkind hcheck hverify hparse
  -- The call submits what it has, and the general theorem says that it is a quorum.
  have hsubmit : (0, ⟨.submit (soleSubmission target.nonce root confirm.signer x), .ok 0⟩) ∈
      (Interleaving.single hbegins).course := by
    simp [Interleaving.single, soleCourse]
  -- The cache has nothing to give back in this course.
  have faithful : Store.CacheFaithful (Interleaving.single hbegins).course := by
    intro earlier n target' records later hsplit
    have hmem : (n, ⟨.recall target', some records⟩) ∈ (Interleaving.single hbegins).course := by
      rw [hsplit]
      exact List.mem_append_right _ List.mem_cons_self
    simp [Interleaving.single, soleCourse] at hmem
  have hall := relayNext_submissions (Interleaving.single hbegins) faithful
    (sourceSteady_soleCourse _ target root confirm x) 0
  obtain ⟨last, latest, -, -, -, -, -, hquorate⟩ := hall.2 _ _ hsubmit
  exact ⟨Interleaving.single hbegins, target.nonce, root, confirm.signer, x, hsubmit, hquorate⟩

end Relayer

end Countersign
