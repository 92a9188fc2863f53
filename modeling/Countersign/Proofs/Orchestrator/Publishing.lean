import Countersign.Proofs.Orchestrator.Skipping
import Countersign.Proofs.Signature.Signing
import Countersign.Relayer.Relay

/-!
# A published confirm is collected

An orchestrator and a relayer never speak to each other. What they have in common is the store, and
that both make the same things out of an attestation: the key of a confirm, its record, and the
digest that is signed. This module follows one confirm from the one to the other. If a run of
`Orchestrator.process` ends with a published confirm, then every later collection in which the reads
succeed contains a confirm of the same signer (`Orchestrator.published_is_collected`), whatever else
was written before, during and after the run.

1. The run signed the digest of the attestation it was told, and put a record with the signature
   under its own key (`Orchestrator.process_follows_ok`).
2. The record is accepted by every replica that has nothing else under the key, because the
   signature verifies and nothing is lost in writing it down (`DigestTold.checkSignature`).
3. The record is kept by the replica that accepted it (`StoreEvent.Reaches.keeps`), so it is among
   the candidates of every read.
4. Other candidates do not hide it: one that is collected in its place verifies as well
   (`Store.CollectsFrom.exists_mem`).
5. What a relayer waits for when it commits the attestation is a quorum for the same digest
   (`Relayer.digestTold_of_commit_asks`). Both make it out of the attestation, and out of a root that
   each of them asks the source for; so it can be another one only where the source has told them two
   roots for the same range (`SameRoots`).
-/

namespace Countersign

open Routine

/-- A confirm passes every check of its signature, the one of its form and the whole one, if it has
a signature of the digest that was told. For a valset only the form is checked, since the store does
not know the valset that was signed. -/
theorem DigestTold.checkSignature {nonce : UInt64} {course : List Exchange}
    {attestation : Attestation} {digest : Word} {root : Option Word} {address : Address} {x : Vrs}
    (h : DigestTold nonce course attestation digest root) (hcanonical : x.Canonical)
    (hverify : verifyText digest x.render address = .ok ()) :
    (Orchestrator.confirmOf address x root).checkSignature nonce = .ok () := by
  cases h with
  | valset v =>
    rw [Orchestrator.confirmOf, Confirm.checkSignature, Vrs.parse_render hcanonical]
  | dataCommitment c told =>
    rw [Orchestrator.confirmOf, Confirm.checkSignature]
    exact hverify

/-- Two courses in which the source tells the same roots, as far as both ask for them. The
commitments of finished blocks do not change, so this is what a source without faults does. -/
def SameRoots (course course' : List Exchange) : Prop :=
  ∀ first last root root', ⟨.source (.dataRoot first last), .ok root⟩ ∈ course →
    ⟨.source (.dataRoot first last), .ok root'⟩ ∈ course' → root = root'

/-- Whoever is told the same of an attestation makes the same digest of it. A valset's digest is
made of the valset alone, and a commitment's of the root. -/
theorem DigestTold.digest_eq {nonce : UInt64} {course course' : List Exchange}
    {attestation : Attestation} {digest digest' : Word} {root root' : Option Word}
    (h : DigestTold nonce course attestation digest root)
    (h' : DigestTold nonce course' attestation digest' root') (same : SameRoots course course') :
    digest' = digest := by
  cases h with
  | valset v =>
    cases h'
    rfl
  | dataCommitment c told =>
    cases h' with
    | dataCommitment _ told' => rw [same _ _ _ _ told told']

/-! ### What a relayer waits for -/

namespace Relayer

variable {relayer : RelayerSetup} {target : QuorumTarget} {nonce : UInt64}
  {attestation : Attestation} {current : Valset}

/-- **Waiting and submitting** is about one target only: of the cache nothing is asked but the
quorum of this one. -/
theorem conforms_submitWithQuorum (submission : List Vrs → Submission) :
    Conforms (fun r => ∀ other, r = .recall other → other = target) (fun _ => True)
      (submitWithQuorum relayer target current submission) := by
  -- The store asks its cache for the target only.
  have hquery : Conforms (fun r => ∀ other, r = .recall other → other = target) (fun _ => True)
      (Store.queryQuorum relayer.store target current relayer.config.quorumTimeout) := by
    refine Store.conforms_queryQuorum.mono (fun r hr other heq => ?_) fun _ h => h
    subst heq
    cases hr
    rfl
  -- Around it the clock is read, and a note made.
  have hquorum : Conforms (fun r => ∀ other, r = .recall other → other = target) (fun _ => True)
      (quorum relayer target current) := by
    rw [quorum]
    refine conforms_perform_bind.mpr ⟨nofun, fun started => ?_⟩
    refine hquery.bind fun result _ => ?_
    refine conforms_perform_bind.mpr ⟨nofun, fun ended => ?_⟩
    refine conforms_perform_bind.mpr ⟨nofun, fun _ => ?_⟩
    cases result <;> trivial
  rw [submitWithQuorum]
  refine hquorum.bind fun result _ => ?_
  cases result with
  | error e => trivial
  | ok confirms =>
    dsimp only
    split
    · trivial
    · refine conforms_perform_bind.mpr ⟨nofun, fun answer => ?_⟩
      cases answer <;> trivial

/-- **A relayer waits for the digest that an orchestrator signs**, as far as both were told the
same. -/
theorem digestTold_of_commit_asks {t : List Exchange}
    (h : Asks (commit relayer nonce attestation current) t (.recall target)) :
    target.kind = attestation.kind ∧ target.nonce = nonce ∧
      ∃ root, DigestTold nonce t attestation target.digest root := by
  cases attestation with
  | valset new =>
    rw [commit] at h
    obtain rfl := (conforms_submitWithQuorum _).asks h target rfl
    exact ⟨rfl, rfl, none, .valset new⟩
  | dataCommitment c =>
    rw [commit] at h
    rcases (asks_perform_bind_iff (r := .source _)).mp h with ⟨-, ⟨⟩⟩ | ⟨answer, t₁, rfl, h₁⟩
    cases answer with
    | error e => exact absurd h₁ not_asks_done
    | ok root =>
      obtain rfl := (conforms_submitWithQuorum _).asks h₁ target rfl
      exact ⟨rfl, rfl, some root, .dataCommitment c List.mem_cons_self⟩

/-- A relayer that is told the root of a commitment goes on to look for a quorum of its digest. -/
theorem commit_asks_recall (c : DataCommitment) (root : Word) (started : Nat)
    (hthreshold : current.threshold ≠ 0) :
    Asks (commit relayer nonce (.dataCommitment c) current)
      [⟨.source (.dataRoot c.beginBlock c.endBlock), .ok root⟩, ⟨.now, started⟩]
      (.recall ⟨.dataCommitment, nonce, commitmentDigest nonce root⟩) := by
  rw [commit]
  refine (asks_perform_bind_iff (r := .source _)).mpr (Or.inr ⟨.ok root, _, rfl, ?_⟩)
  refine asks_bind_iff.mpr (Or.inl ?_)
  rw [quorum]
  refine asks_perform_bind_iff.mpr (Or.inr ⟨started, [], rfl, ?_⟩)
  refine asks_bind_iff.mpr (Or.inl ?_)
  rw [Store.queryQuorum, if_neg hthreshold]
  exact asks_perform_bind_iff.mpr (Or.inl ⟨rfl, rfl⟩)

end Relayer

/-! ### A run that publishes -/

/-- Nothing is found where there are no candidates, so an empty answer to the read is answered by
`none`. -/
theorem Store.queryOne_follows_none (config : StoreConfig) (kind : AttestationKind)
    (nonce : UInt64) (signer : Address) :
    Follows (queryOne config kind nonce signer)
      [⟨.get (confirmKey kind nonce signer) config.requestTimeout, .ok []⟩] (.ok none) := by
  exact queryOne_follows_ok_iff.mpr rfl

/-- A record that is accepted may be put, and the put may succeed. -/
theorem Store.putRecord_follows (config : StoreConfig) {key : String} {value : Bytes}
    (h : isAccepted key value = true) :
    Follows (putRecord config key value) [⟨.put key value config.requestTimeout, .ok ()⟩]
      (.ok ()) := by
  rw [putRecord, isAccepted_iff.mp h]
  exact .perform_bind (.done _)

/-- A replica without records takes every record that is accepted. -/
theorem Overlay.put_fresh {key : String} {value : Bytes} (h : isAccepted key value = true) :
    ((fresh 1).put key value).2 = .ok () := by
  have htaken : (putOne key value Replica.empty).2 = none := by
    rw [putOne, Replica.put, isAccepted_iff.mp h]
    rfl
  change verdict [(putOne key value Replica.empty).2] = .ok ()
  rw [htaken]
  rfl

namespace Orchestrator

variable {setup : OrchestratorSetup} {nonce : UInt64}

/-- **Publishing with success**, for a signature with which the record is accepted. The record is
checked before it is put, so `haccepted` is needed for the put to be made at all. -/
theorem publish_follows (digest : Word) (root : Option Word) (x : Vrs)
    (haccepted : isAccepted
      (Store.confirmKey (confirmOf setup.address x root).kind nonce setup.address)
      (Bytes.ofText (confirmOf setup.address x root).encode) = true) :
    Follows (publish setup nonce digest root)
      [⟨.sign digest, .ok x⟩,
        ⟨.put (Store.confirmKey (confirmOf setup.address x root).kind nonce setup.address)
          (Bytes.ofText (confirmOf setup.address x root).encode) setup.store.requestTimeout,
          .ok ()⟩,
        ⟨.note (.published (confirmOf setup.address x root).kind), ()⟩]
      (.ok (.published (confirmOf setup.address x root).kind)) := by
  have hput := Store.putRecord_follows setup.store haccepted
  rw [publish]
  refine .perform_bind ?_
  dsimp only
  rw [Store.putConfirm, signer_confirmOf]
  refine hput.bind ?_
  exact .perform_bind (.done _)

/-- A run up to its signature. The only member of the valset before the commitment is the own
address, and nothing is stored. What comes of publishing this valset is left open, since it does not
matter (`process_ignores_latest`). -/
def courseToSignature (setup : OrchestratorSetup) (nonce : UInt64) (c : DataCommitment)
    (latest : List Exchange) (root : Word) (x : Vrs) : List Exchange :=
  ⟨.source (.attestation nonce), .ok (some (.dataCommitment c))⟩ ::
    ⟨.source (.valsetBefore nonce), .ok (Store.soleValset setup.address)⟩ ::
      (latest ++
        [⟨.get (Store.confirmKey .dataCommitment nonce setup.address) setup.store.requestTimeout,
            .ok []⟩,
          ⟨.source (.dataRoot c.beginBlock c.endBlock), .ok root⟩,
          ⟨.sign (commitmentDigest nonce root), .ok x⟩])

variable {c : DataCommitment} {latest : List Exchange} {root : Word} {x : Vrs}

/-- **The run goes on with publishing**, and ends as that ends. Runs that succeed and runs whose put
fails are both built with this. -/
theorem process_follows_of_publish {result : Except StoreError Unit} {rest : List Exchange}
    {outcome : Except OrchestratorError ProcessOutcome} (hnonce : bootstrapNonce < nonce)
    (hlatest : Follows (Store.putLatestValset setup.store (Store.soleValset setup.address)) latest
      result)
    (hpublish : Follows (publish setup nonce (commitmentDigest nonce root) (some root))
      (⟨.sign (commitmentDigest nonce root), .ok x⟩ :: rest) outcome) :
    Follows (process setup nonce) (courseToSignature setup nonce c latest root x ++ rest)
      outcome := by
  rw [process, courseToSignature, List.cons_append, List.cons_append, List.append_assoc]
  refine .perform_bind (r := .source (.attestation nonce)) ?_
  dsimp only
  rw [if_neg (UInt64.ne_of_lt hnonce).symm]
  refine .perform_bind (r := .source (.valsetBefore nonce)) ?_
  dsimp only
  rw [Store.contains_soleValset]
  refine hlatest.bind ?_
  -- Nothing is stored under the own key, so the root is asked for and the digest signed.
  unfold signUnlessStored
  refine (Store.queryOne_follows_none setup.store .dataCommitment nonce setup.address).bind ?_
  exact .perform_bind (r := .source (.dataRoot c.beginBlock c.endBlock)) hpublish

/-- **The run ends with a published confirm**, if the record is accepted. -/
theorem process_follows_published {result : Except StoreError Unit}
    (hnonce : bootstrapNonce < nonce)
    (hlatest : Follows (Store.putLatestValset setup.store (Store.soleValset setup.address)) latest
      result)
    (haccepted : isAccepted (Store.confirmKey .dataCommitment nonce setup.address)
      (Bytes.ofText (confirmOf setup.address x (some root)).encode) = true) :
    Follows (process setup nonce)
      (courseToSignature setup nonce c latest root x ++
        [⟨.put (Store.confirmKey .dataCommitment nonce setup.address)
            (Bytes.ofText (confirmOf setup.address x (some root)).encode)
            setup.store.requestTimeout, .ok ()⟩,
          ⟨.note (.published .dataCommitment), ()⟩])
      (.ok (.published .dataCommitment)) :=
  process_follows_of_publish hnonce hlatest
    (publish_follows (commitmentDigest nonce root) (some root) x haccepted)

/-- What is answered up to the signature: no put succeeds, one digest is signed, and one root is
told. -/
def AnsweredToSignature (nonce : UInt64) (root : Word) (x : Vrs) : Exchange → Prop
  | ⟨.put _ _ _, answer⟩ => answer ≠ .ok ()
  | ⟨.sign digest, answer⟩ => digest = commitmentDigest nonce root ∧ answer = .ok x
  | ⟨.source (.dataRoot _ _), answer⟩ => answer = .ok root
  | _ => True

/-- Each exchange of the course is answered in this way, if publishing the latest valset fails. -/
theorem answered_of_mem_courseToSignature
    (hlatest : ∀ e ∈ latest, ∃ key value limit error, e = ⟨.put key value limit, .error error⟩)
    {e : Exchange} (h : e ∈ courseToSignature setup nonce c latest root x) :
    AnsweredToSignature nonce root x e := by
  rw [courseToSignature, List.mem_cons, List.mem_cons, List.mem_append] at h
  rcases h with rfl | rfl | h | h
  · trivial
  · trivial
  · obtain ⟨key, value, limit, error, rfl⟩ := hlatest e h
    rintro ⟨⟩
  · rcases List.mem_cons.mp h with rfl | h
    · trivial
    rcases List.mem_cons.mp h with rfl | h
    · rfl
    obtain rfl := List.mem_singleton.mp h
    exact ⟨rfl, rfl⟩

/-- Signatures of an identity, from each of which it is found again. That recovery finds the signer
is assumed of the curve, and holds for the keys of the witnesses by computation. -/
def SignedBy (identity : Identity) (course : List Exchange) : Prop :=
  ∀ digest answer, ⟨.sign digest, answer⟩ ∈ course →
    answer = identity.sign digest ∧ identity.Recovers digest

/-- **A run in which the only replica takes the confirm** of an identity that signs. Everything that
`published_is_collected` asks of a run holds of this one. -/
theorem exists_events_published (setup : OrchestratorSetup) {identity : Identity}
    (haddress : identity.address = setup.address) (hnonce : bootstrapNonce < nonce)
    (c : DataCommitment) (hsign : identity.sign (commitmentDigest nonce root) = .ok x)
    (hrecovers : identity.Recovers (commitmentDigest nonce root)) :
    ∃ events, SignedBy identity (StoreEvent.exchanges events) ∧
      StoreEvent.PutsReach (Overlay.fresh 1) events ∧
      Follows (process setup nonce) (StoreEvent.exchanges events)
        (.ok (.published .dataCommitment)) ∧
      ToldFirst nonce (.dataCommitment c) (Store.soleValset setup.address)
        (StoreEvent.exchanges events) ∧
      ∀ first last answer, ⟨.source (.dataRoot first last), answer⟩ ∈
        StoreEvent.exchanges events → answer = .ok root := by
  obtain ⟨latest, _, hlatest, hfailing⟩ :=
    exists_follows_putLatestValset setup.store (Store.soleValset setup.address)
  -- The signature verifies, so the record is accepted.
  have hverify : verifyText (commitmentDigest nonce root) x.render setup.address = .ok () := by
    rw [← haddress]
    exact Identity.verifyText_of_sign hsign hrecovers
  have hcheck : (confirmOf setup.address x (some root)).checkSignature nonce = .ok () := hverify
  have haccepted := Store.isAccepted_encode hcheck
  rw [signer_confirmOf] at haccepted
  -- Up to the signature the exchanges are as above, and then the record is put and a note made.
  have hanswered : ∀ e ∈ courseToSignature setup nonce c latest root x,
      AnsweredToSignature nonce root x e := fun e => answered_of_mem_courseToSignature hfailing
  have hfollows := process_follows_published (c := c) hnonce hlatest haccepted
  refine ⟨StoreEvent.withPut (Overlay.fresh 1) (courseToSignature setup nonce c latest root x)
    (Store.confirmKey .dataCommitment nonce setup.address)
    (Bytes.ofText (confirmOf setup.address x (some root)).encode) setup.store.requestTimeout
    [⟨.note (.published .dataCommitment), ()⟩], ?_, ?_, ?_, ?_, ?_⟩
  · rw [StoreEvent.exchanges_withPut]
    intro digest answer hmem
    rcases List.mem_append.mp hmem with hmem | hmem
    · obtain ⟨rfl, rfl⟩ := hanswered _ hmem
      exact ⟨hsign.symm, hrecovers⟩
    · simp at hmem
  · -- The one put that succeeds is the last one, and the replica has taken its record.
    refine StoreEvent.putsReach_withPut (Overlay.put_fresh haccepted) ?_ ?_
    · intro key value limit hmem
      exact hanswered _ hmem rfl
    · intro key value limit hmem
      simp at hmem
  · rw [StoreEvent.exchanges_withPut]
    exact hfollows
  · rw [StoreEvent.exchanges_withPut]
    exact ⟨_, rfl⟩
  · rw [StoreEvent.exchanges_withPut]
    intro first last answer hmem
    rcases List.mem_append.mp hmem with hmem | hmem
    · exact hanswered _ hmem
    · simp at hmem

/-! ### From the orchestrator to the relayer -/

/-- **A published confirm is collected.** The replicas may have held anything before the run, and
anybody may write anything to them during the run and after it: every collection for the attestation
among the members that the run was told has a confirm of the run's address, with its power.

The attestation is collected for under the digest that the run signed. This is the one for which a
relayer waits when it commits the same attestation, unless it was told another root. -/
theorem published_is_collected {identity : Identity} {overlay : Overlay} {events : List StoreEvent}
    {kind : AttestationKind} (haddress : identity.address = setup.address)
    (hsigned : SignedBy identity (StoreEvent.exchanges events))
    (hreached : StoreEvent.PutsReach overlay events)
    (h : Follows (process setup nonce) (StoreEvent.exchanges events) (.ok (.published kind))) :
    ∃ attestation valset digest root, kind = attestation.kind ∧
      ToldFirst nonce attestation valset (StoreEvent.exchanges events) ∧
      DigestTold nonce (StoreEvent.exchanges events) attestation digest root ∧
      valset.contains setup.address = true ∧
      (∀ relayer current course target, SameRoots (StoreEvent.exchanges events) course →
        Asks (Relayer.commit relayer nonce attestation current) course (.recall target) →
          target = ⟨attestation.kind, nonce, digest⟩) ∧
      ∀ config collected,
        Store.CollectsFrom (overlay.after (StoreEvent.writes events)) config
            ⟨attestation.kind, nonce, digest⟩ valset collected →
          ∃ confirm, (valset.powerOf setup.address, confirm) ∈ collected ∧
            confirm.signer = setup.address := by
  cases process_follows_ok h with
  | @settled attestation valset _ hfirst hmember settled =>
  cases settled with
  | @published digest root x hputs =>
  refine ⟨attestation, valset, digest, root, rfl, hfirst, hputs.told, hmember,
    fun relayer current course target same hasks => ?_, fun config collected hcollects => ?_⟩
  · -- The relayer makes its digest in the same way, of what it was told itself.
    obtain ⟨hkind, hnonce, root', htold⟩ := Relayer.digestTold_of_commit_asks hasks
    have hdigest := hputs.told.digest_eq htold same
    obtain ⟨kind, nonce, digest⟩ := target
    obtain rfl : kind = attestation.kind := hkind
    obtain rfl : nonce = _ := hnonce
    obtain rfl : digest = _ := hdigest
    rfl
  -- The signature is the identity's, so it verifies in its written form.
  obtain ⟨hsign, hrecovers⟩ := hsigned digest (.ok x) hputs.signed
  have hcanonical : x.Canonical := Identity.canonical_of_sign hsign.symm hrecovers
  have hverify : verifyText digest x.render setup.address = .ok () := by
    rw [← haddress]
    exact Identity.verifyText_of_sign hsign.symm hrecovers
  have hcheck := hputs.told.checkSignature hcanonical hverify
  -- One replica has taken the record by the time the put is answered, and keeps it.
  have hkeeps : (overlay.after (StoreEvent.writes events)).Keeps
      (Store.confirmKey attestation.kind nonce setup.address)
      (Bytes.ofText (confirmOf setup.address x root).encode) := by
    obtain ⟨before, after, hsplit⟩ := List.append_of_mem (StoreEvent.mem_exchanges hputs.put)
    have hthen := (hreached before _ _ _ after hsplit).keeps
      (Store.isConfirmKey_confirmKey attestation.kind nonce setup.address)
    rw [hsplit, StoreEvent.writes_append, Overlay.after_append]
    exact hthen.after _
  have hmem := hcollects.exists_mem (c := confirmOf setup.address x root)
    (hputs.told.kind_confirmOf setup.address x) hcheck
  rw [signer_confirmOf, signature_confirmOf] at hmem
  exact hmem hverify hkeeps hmember

/-- **The confirm of the smallest key** for a commitment is among what a relayer collects that waits
for a quorum for the same commitment, from the replica that took it. -/
theorem published_is_collected_of_smallestKey :
    ∃ (setup : OrchestratorSetup) (relayer : RelayerSetup) (events : List StoreEvent)
      (course : List Exchange) (target : QuorumTarget) (confirm : Confirm),
      Follows (process setup 2) (StoreEvent.exchanges events) (.ok (.published .dataCommitment)) ∧
      Asks (Relayer.commit relayer 2 (.dataCommitment ⟨2, 1, 2⟩) (Store.soleValset setup.address))
        course (.recall target) ∧
      (1, confirm) ∈ Store.collect target (Store.soleValset setup.address).members
        [((Overlay.fresh 1).after (StoreEvent.writes events)).get
          (Store.confirmKey .dataCommitment 2 setup.address)] ∧
      confirm.signer = setup.address := by
  obtain ⟨x, hsign⟩ := Identity.exists_sign_smallestKey
  have hrecovers := Identity.recovers_smallestKey
  -- Nothing else about the key and its signature is used, so nothing of it is computed.
  generalize Identity.ofKey Ecdsa.smallestKey = identity at hsign hrecovers
  let setup : OrchestratorSetup := ⟨identity.address, .standard, .standard, .standard⟩
  let relayer : RelayerSetup := ⟨.standard, ⟨10, 100, false, 50, .standard⟩⟩
  obtain ⟨events, hsigned, hreached, hfollows, ⟨rest, hcourse⟩, hroot⟩ :=
    exists_events_published setup rfl (by decide) ⟨2, 1, 2⟩ hsign hrecovers
  obtain ⟨attestation, valset, digest, root, -, ⟨rest', hcourse'⟩, -, -, htarget, hcollected⟩ :=
    published_is_collected rfl hsigned hreached hfollows
  rw [hcourse] at hcourse'
  cases hcourse'
  -- The relayer is told the same root, so it waits for the digest that was signed.
  have hthreshold : (Store.soleValset setup.address).threshold ≠ 0 := by
    rw [Store.threshold_soleValset]
    decide
  have hasks : Asks (Relayer.commit relayer 2 (.dataCommitment ⟨2, 1, 2⟩)
      (Store.soleValset setup.address)) _ (.recall ⟨.dataCommitment, 2, commitmentDigest 2 0⟩) :=
    Relayer.commit_asks_recall ⟨2, 1, 2⟩ 0 0 hthreshold
  -- There is one root in either course, and it is the same.
  have hsame : SameRoots (StoreEvent.exchanges events)
      [⟨.source (.dataRoot 1 2), .ok 0⟩, ⟨.now, (0 : Nat)⟩] := by
    intro first last told told' htold htold'
    cases hroot first last _ htold
    simp only [List.mem_cons, List.not_mem_nil, or_false] at htold'
    rcases htold' with heq | heq
    · cases heq
      rfl
    · cases heq
  obtain ⟨confirm, hmem, hsigner⟩ := hcollected .standard _
    (Store.collectsFrom_get _ _ _ (Store.soleValset setup.address))
  rw [← htarget relayer _ _ _ hsame hasks, Store.powerOf_soleValset] at hmem
  exact ⟨setup, relayer, events, _, _, confirm, hfollows, hasks, hmem, hsigner⟩

end Orchestrator

end Countersign
