import Countersign.Orchestrator.Process
import Countersign.Proofs.Routine.Course

/-!
# How a run of an orchestrator ends

A run of `Orchestrator.process` that does not fail ends in one of four ways
(`Orchestrator.Processed`): the nonce is the first one, or the own address is no member of the
valset before the nonce, or a confirm is stored already, or a confirm was signed and put.

Every fact about runs is read off `Orchestrator.process_follows_ok`, which says this of all courses
that end with an outcome. The two routines inside, for what is stored and for what is published,
have one lemma each.
-/

namespace Countersign

open Routine

/-! ### What is signed -/

/-- **The digest of an attestation**, as far as it was told in a course, and the root that the
confirm of a commitment carries. That of a valset needs no telling, and that of a commitment is as
good as the source's answer. -/
inductive DigestTold (nonce : UInt64) (course : List Exchange) :
    Attestation → Word → Option Word → Prop where
  | valset (v : Valset) : DigestTold nonce course (.valset v) v.digest none
  | dataCommitment (c : DataCommitment) {root : Word}
      (told : ⟨.source (.dataRoot c.beginBlock c.endBlock), .ok root⟩ ∈ course) :
      DigestTold nonce course (.dataCommitment c) (commitmentDigest nonce root) (some root)

namespace DigestTold

variable {nonce : UInt64} {course course' : List Exchange} {attestation : Attestation}
  {digest : Word} {root : Option Word}

/-- What was told in a course was told in a longer one. -/
theorem mono (h : DigestTold nonce course attestation digest root) (hsub : course ⊆ course') :
    DigestTold nonce course' attestation digest root := by
  cases h with
  | valset v => exact .valset v
  | dataCommitment c told => exact .dataCommitment c (hsub told)

/-- The confirm is of the attestation's kind, so it is put under a key of this kind. -/
theorem kind_confirmOf (h : DigestTold nonce course attestation digest root) (address : Address)
    (x : Vrs) : (Orchestrator.confirmOf address x root).kind = attestation.kind := by
  cases h <;> rfl

end DigestTold

/-- A record that was put with success: one write, which was answered so. -/
theorem Store.putRecord_follows_ok {config : StoreConfig} {key : String} {value : Bytes}
    {t : List Exchange} (h : Follows (putRecord config key value) t (.ok ())) :
    t = [⟨.put key value config.requestTimeout, .ok ()⟩] := by
  unfold putRecord at h
  split at h
  · obtain ⟨-, ⟨⟩⟩ := follows_done_iff.mp h
  · obtain ⟨answer, rest, rfl, h₁⟩ := follows_perform_bind_iff.mp h
    cases answer with
    | error e => obtain ⟨-, ⟨⟩⟩ := follows_done_iff.mp h₁
    | ok u =>
      obtain ⟨rfl, -⟩ := follows_done_iff.mp h₁
      rfl

namespace Orchestrator

variable {setup : OrchestratorSetup} {nonce : UInt64} {attestation : Attestation} {valset : Valset}
  {digest : Word} {root : Option Word} {x : Vrs} {t t' : List Exchange} {outcome : ProcessOutcome}

@[simp] theorem signer_confirmOf {address : Address} :
    (confirmOf address x root).signer = address := by
  cases root <;> rfl

@[simp] theorem signature_confirmOf {address : Address} :
    (confirmOf address x root).signature = x.render := by
  cases root <;> rfl

/-- **A confirm that was signed and put** in a course, for an attestation. The three points are
linked by the digest and the signature, so nothing else was put than what was signed. -/
structure PutsConfirm (setup : OrchestratorSetup) (nonce : UInt64) (attestation : Attestation)
    (t : List Exchange) (digest : Word) (root : Option Word) (x : Vrs) : Prop where
  told : DigestTold nonce t attestation digest root
  signed : ⟨.sign digest, .ok x⟩ ∈ t
  put : ⟨.put (Store.confirmKey attestation.kind nonce setup.address)
    (Bytes.ofText (confirmOf setup.address x root).encode) setup.store.requestTimeout, .ok ()⟩ ∈ t

/-- What was done in a course was done in a longer one. -/
theorem PutsConfirm.mono (h : PutsConfirm setup nonce attestation t digest root x)
    (hsub : t ⊆ t') : PutsConfirm setup nonce attestation t' digest root x :=
  ⟨h.told.mono hsub, hsub h.signed, hsub h.put⟩

/-- **Publishing with success**: the digest was signed, and the confirm with this signature put. -/
theorem publish_follows_ok (h : Follows (publish setup nonce digest root) t (.ok outcome)) :
    ∃ x, outcome = .published (confirmOf setup.address x root).kind ∧ ⟨.sign digest, .ok x⟩ ∈ t ∧
      ⟨.put (Store.confirmKey (confirmOf setup.address x root).kind nonce setup.address)
        (Bytes.ofText (confirmOf setup.address x root).encode) setup.store.requestTimeout,
        .ok ()⟩ ∈ t := by
  rw [publish] at h
  obtain ⟨signature, rest, rfl, h₁⟩ := follows_perform_bind_iff.mp h
  cases signature with
  | error e => obtain ⟨-, ⟨⟩⟩ := follows_done_iff.mp h₁
  | ok x =>
    obtain ⟨put, t₁, t₂, rfl, hput, h₂⟩ := follows_bind_iff.mp h₁
    cases put with
    | error e => obtain ⟨-, ⟨⟩⟩ := follows_done_iff.mp h₂
    | ok u =>
      obtain ⟨-, _, -, h₃⟩ := follows_perform_bind_iff.mp h₂
      obtain ⟨-, houtcome⟩ := follows_done_iff.mp h₃
      rw [Store.putConfirm, signer_confirmOf] at hput
      obtain rfl := Store.putRecord_follows_ok hput
      refine ⟨x, Except.ok.inj houtcome, List.mem_cons_self, ?_⟩
      exact List.mem_cons_of_mem _ (List.mem_append_left _ List.mem_cons_self)

/-- **How signing ends** without a failure: a confirm is stored already, or one is published. There
is no third way. -/
inductive Settled (setup : OrchestratorSetup) (nonce : UInt64) (attestation : Attestation)
    (t : List Exchange) : ProcessOutcome → Prop where
  | stored {asked : List Exchange} {confirm : Confirm}
      (found : Follows (Store.queryOne setup.store attestation.kind nonce setup.address) asked
        (.ok (some confirm)))
      (within : asked ⊆ t) : Settled setup nonce attestation t (.skipped .alreadySigned)
  | published {digest : Word} {root : Option Word} {x : Vrs}
      (puts : PutsConfirm setup nonce attestation t digest root x) :
      Settled setup nonce attestation t (.published attestation.kind)

/-- The way in which it ended is the same in a longer course. -/
theorem Settled.mono (h : Settled setup nonce attestation t outcome) (hsub : t ⊆ t') :
    Settled setup nonce attestation t' outcome := by
  cases h with
  | stored found within => exact .stored found (List.Subset.trans within hsub)
  | published puts => exact .published (puts.mono hsub)

/-- **Signing that does not fail** ends in one of these ways, be the attestation a valset or a
commitment. -/
theorem signUnlessStored_follows_ok
    (h : Follows (signUnlessStored setup nonce attestation) t (.ok outcome)) :
    Settled setup nonce attestation t outcome := by
  unfold signUnlessStored at h
  obtain ⟨stored, asked, rest, rfl, hquery, h₁⟩ := follows_bind_iff.mp h
  -- The query failed, found nothing, or found a confirm.
  rcases stored with e | _ | confirm
  · obtain ⟨-, ⟨⟩⟩ := follows_done_iff.mp h₁
  · cases attestation with
    | valset v =>
      obtain ⟨x, rfl, hsigned, hput⟩ := publish_follows_ok h₁
      refine .published (x := x) ⟨.valset v, ?_, ?_⟩
      · exact List.mem_append_right _ hsigned
      · exact List.mem_append_right _ hput
    | dataCommitment c =>
      -- The root is asked for first, and goes into the digest and into the confirm.
      obtain ⟨answer, rest, rfl, h₂⟩ := (follows_perform_bind_iff (r := .source _)).mp h₁
      cases answer with
      | error e => obtain ⟨-, ⟨⟩⟩ := follows_done_iff.mp h₂
      | ok root =>
        obtain ⟨x, rfl, hsigned, hput⟩ := publish_follows_ok h₂
        have htold : ⟨.source (.dataRoot c.beginBlock c.endBlock), .ok root⟩ ∈
            asked ++ ⟨.source (.dataRoot c.beginBlock c.endBlock), .ok root⟩ :: rest :=
          List.mem_append_right _ List.mem_cons_self
        refine .published (x := x) ⟨.dataCommitment c htold, ?_, ?_⟩
        · exact List.mem_append_right _ (List.mem_cons_of_mem _ hsigned)
        · exact List.mem_append_right _ (List.mem_cons_of_mem _ hput)
  · obtain ⟨-, _, -, h₂⟩ := follows_perform_bind_iff.mp h₁
    obtain ⟨-, houtcome⟩ := follows_done_iff.mp h₂
    cases houtcome
    exact .stored hquery (List.subset_append_left _ _)

/-- What a run is told first: the attestation, and the valset before it. Everything the run does
later rests on these two answers. -/
def ToldFirst (nonce : UInt64) (attestation : Attestation) (valset : Valset) (t : List Exchange) :
    Prop :=
  ∃ rest, t = ⟨.source (.attestation nonce), .ok (some attestation)⟩ ::
    ⟨.source (.valsetBefore nonce), .ok valset⟩ :: rest

/-- **How a run ends** without a failure. Each way carries the answers that led to it, so no later
proof needs to look at the run itself. -/
inductive Processed (setup : OrchestratorSetup) (nonce : UInt64) (t : List Exchange) :
    ProcessOutcome → Prop where
  | bootstrap (first : nonce = bootstrapNonce) : Processed setup nonce t (.skipped .bootstrap)
  | notSigner {attestation : Attestation} {valset : Valset}
      (told : ToldFirst nonce attestation valset t)
      (noMember : valset.contains setup.address = false) :
      Processed setup nonce t (.skipped .notSigner)
  | settled {attestation : Attestation} {valset : Valset} {outcome : ProcessOutcome}
      (told : ToldFirst nonce attestation valset t)
      (member : valset.contains setup.address = true)
      (settled : Settled setup nonce attestation t outcome) : Processed setup nonce t outcome

/-- **Every run that does not fail** ends in one of these ways. The proof goes through the run step
by step, and drops the steps that fail. -/
theorem process_follows_ok (h : Follows (process setup nonce) t (.ok outcome)) :
    Processed setup nonce t outcome := by
  rw [process] at h
  obtain ⟨answer, rest, rfl, h₁⟩ := (follows_perform_bind_iff (r := .source _)).mp h
  -- The attestation: a failed query and an unknown nonce are failures of the run.
  rcases answer with e | _ | attestation
  · obtain ⟨-, ⟨⟩⟩ := follows_done_iff.mp h₁
  · obtain ⟨-, ⟨⟩⟩ := follows_done_iff.mp h₁
  dsimp only at h₁
  split at h₁
  · next hfirst =>
    obtain ⟨-, _, -, h₂⟩ := follows_perform_bind_iff.mp h₁
    obtain ⟨-, houtcome⟩ := follows_done_iff.mp h₂
    cases houtcome
    exact .bootstrap hfirst
  obtain ⟨prior, rest₁, rfl, h₂⟩ := (follows_perform_bind_iff (r := .source _)).mp h₁
  cases prior with
  | error e => obtain ⟨-, ⟨⟩⟩ := follows_done_iff.mp h₂
  | ok valset =>
    dsimp only at h₂
    cases hmember : valset.contains setup.address with
    -- No member of the valset before, so there is nothing to sign.
    | false =>
      rw [hmember] at h₂
      obtain ⟨-, _, -, h₃⟩ := follows_perform_bind_iff.mp h₂
      obtain ⟨-, houtcome⟩ := follows_done_iff.mp h₃
      cases houtcome
      exact .notSigner ⟨_, rfl⟩ hmember
    -- The rest is signing, behind the latest valset, which may be published or not.
    | true =>
      rw [hmember] at h₂
      obtain ⟨_, published, signing, rfl, -, h₃⟩ := follows_bind_iff.mp h₂
      refine .settled ⟨_, rfl⟩ hmember ((signUnlessStored_follows_ok h₃).mono ?_)
      intro e he
      exact List.mem_cons_of_mem _ (List.mem_cons_of_mem _ (List.mem_append_right _ he))

end Orchestrator

end Countersign
