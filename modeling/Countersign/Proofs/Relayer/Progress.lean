import Countersign.Proofs.Relayer.Searching
import Countersign.Proofs.Relayer.Submissions
import Countersign.Proofs.Routine.Loop

/-!
# What a relayer's contract has recorded

A relayer that runs alone against a contract commits the attestations one by one: the nonces of the
recorded submissions count up from the contract's first last nonce, without a gap and without a
repetition, and each is behind a latest nonce that the source reported before
(`Relayer.recorded_consecutive`). A turn that fails records nothing, so failures of any kind only
delay the next nonce.

The contract is a number that is read and set (`contractAfter`): a submission that succeeds sets it,
one that fails leaves it, and nobody else writes it. Nothing else that the relayer hears need be
true, apart from the source showing attestations of the nonces asked for (`ShowsAsked`).

The order does not come from anything that the relayer remembers. Each call reads the contract anew
and submits once at most, and what it submits is the nonce behind the one it read
(`Relayer.relayNext_recorded`). So a call takes the contract on by one or leaves it, and a run is
one such call after the other.
-/

namespace Countersign

open Routine

/-! ### The contract -/

/-- The nonce that an exchange records, if it is a submission that succeeds. -/
def recordedNonce? : Exchange → Option UInt64
  | ⟨.submit submission, .ok _⟩ => some submission.nonce
  | _ => none

/-- The recorded nonces, in order. -/
def recorded (t : List Exchange) : List UInt64 :=
  t.filterMap recordedNonce?

/-- What an exchange makes of the contract's last nonce, if a contract could take part in it.
Reading a nonce that is not the last one is impossible; a submission sets whatever nonce it has. -/
def contractStep (last : UInt64) : Exchange → Option UInt64
  | ⟨.lastRelayed, .ok n⟩ => if n = last then some last else none
  | ⟨.submit submission, .ok _⟩ => some submission.nonce
  | _ => some last

/-- The contract's last nonce after exchanges, given the one before, if they are exchanges with a
contract that nobody else writes to. -/
def contractAfter (start : UInt64) (t : List Exchange) : Option UInt64 :=
  t.foldlM contractStep start

@[simp] theorem recorded_append (t t' : List Exchange) :
    recorded (t ++ t') = recorded t ++ recorded t' :=
  List.filterMap_append

theorem recorded_cons {e : Exchange} {n : UInt64} {t : List Exchange}
    (h : recordedNonce? e = some n) : recorded (e :: t) = n :: recorded t :=
  List.filterMap_cons_some h

theorem recorded_eq_nil_iff {t : List Exchange} :
    recorded t = [] ↔ ∀ e ∈ t, recordedNonce? e = none :=
  List.filterMap_eq_nil_iff

/-- Only a submission that succeeds records a nonce, and this is its own. -/
theorem recordedNonce?_eq_some {e : Exchange} {n : UInt64} (h : recordedNonce? e = some n) :
    ∃ submission tx, e = ⟨.submit submission, .ok tx⟩ ∧ submission.nonce = n := by
  unfold recordedNonce? at h
  split at h
  · next submission tx => exact ⟨submission, tx, rfl, Option.some.inj h⟩
  · cases h

/-- A recorded nonce is the contract's last one then. -/
theorem contractStep_of_recordedNonce? {last n : UInt64} {e : Exchange}
    (h : recordedNonce? e = some n) : contractStep last e = some n := by
  obtain ⟨submission, tx, rfl, rfl⟩ := recordedNonce?_eq_some h
  rfl

/-- **Where nothing is recorded** the contract stays as it is, and reading it gives what it has. -/
theorem contractStep_of_none {last last' : UInt64} {e : Exchange} (h : recordedNonce? e = none)
    (hstep : contractStep last e = some last') :
    last' = last ∧ ∀ n, e = ⟨.lastRelayed, .ok n⟩ → n = last := by
  unfold contractStep at hstep
  split at hstep
  · next n =>
    split at hstep
    · next heq =>
      obtain rfl := heq
      refine ⟨(Option.some.inj hstep).symm, fun n' hn' => ?_⟩
      simpa using hn'.symm
    · cases hstep
  · cases h
  · next hother _ =>
    refine ⟨(Option.some.inj hstep).symm, ?_⟩
    rintro n rfl
    exact absurd rfl (hother n)

/-- The contract goes through a course part by part. -/
theorem contractAfter_append {start last : UInt64} {t t' : List Exchange}
    (h : contractAfter start (t ++ t') = some last) :
    ∃ mid, contractAfter start t = some mid ∧ contractAfter mid t' = some last := by
  unfold contractAfter at h
  rw [List.foldlM_append] at h
  exact Option.bind_eq_some_iff.mp h

/-- The contract goes through a course exchange by exchange. -/
theorem contractAfter_cons {start last : UInt64} {e : Exchange} {t : List Exchange}
    (h : contractAfter start (e :: t) = some last) :
    ∃ mid, contractStep start e = some mid ∧ contractAfter mid t = some last := by
  unfold contractAfter at h
  rw [List.foldlM_cons] at h
  exact Option.bind_eq_some_iff.mp h

/-- **Exchanges that record nothing** leave the contract as it is. So whatever is read of it
meanwhile is what it had before. -/
theorem contractAfter_of_recorded_nil {start last : UInt64} {t : List Exchange}
    (hnone : recorded t = []) (h : contractAfter start t = some last) :
    last = start ∧ ∀ n, ⟨.lastRelayed, .ok n⟩ ∈ t → n = start := by
  rw [recorded_eq_nil_iff] at hnone
  induction t with
  | nil =>
    refine ⟨(Option.some.inj h).symm, ?_⟩
    intro n hn
    cases hn
  | cons e t ih =>
    obtain ⟨mid, hstep, hrest⟩ := contractAfter_cons h
    obtain ⟨rfl, hread⟩ := contractStep_of_none (hnone e List.mem_cons_self) hstep
    obtain ⟨hlast, hreads⟩ := ih (fun e he => hnone e (List.mem_cons_of_mem _ he)) hrest
    refine ⟨hlast, ?_⟩
    intro n hn
    rcases List.mem_cons.mp hn with heq | hn
    · exact hread n heq.symm
    · exact hreads n hn

/-! ### Counting up -/

/-- Recorded nonces that count up behind `start`, as far as `last`. They are compared as numbers, so
that the nonces do not wrap around. -/
def CountsUp (start : UInt64) (t : List Exchange) (last : UInt64) : Prop :=
  ∃ k, (recorded t).map UInt64.toNat = List.range' (start.toNat + 1) k ∧
    last.toNat = start.toNat + k

/-- Nothing recorded counts up by nothing. -/
theorem CountsUp.of_recorded_nil {start : UInt64} {t : List Exchange} (h : recorded t = []) :
    CountsUp start t start := by
  refine ⟨0, ?_, rfl⟩
  rw [h]
  rfl

/-- Where one part has stopped, the next one goes on. -/
theorem CountsUp.append {start mid last : UInt64} {t t' : List Exchange}
    (h : CountsUp start t mid) (h' : CountsUp mid t' last) : CountsUp start (t ++ t') last := by
  obtain ⟨k, hk, hmid⟩ := h
  obtain ⟨k', hk', hlast⟩ := h'
  refine ⟨k + k', ?_, by omega⟩
  calc (recorded (t ++ t')).map UInt64.toNat
      = List.range' (start.toNat + 1) k ++ List.range' (mid.toNat + 1) k' := by
        rw [recorded_append, List.map_append, hk, hk']
    _ = List.range' (start.toNat + 1) k ++ List.range' (start.toNat + 1 + k) k' := by
        rw [hmid, Nat.add_right_comm]
    _ = List.range' (start.toNat + 1) (k + k') := List.range'_append_1

/-- A nonce below another one is followed by the next number. -/
theorem toNat_succ_of_lt {last latest : UInt64} (h : last < latest) :
    (last + 1).toNat = last.toNat + 1 := by
  have hlt : last.toNat < latest.toNat := UInt64.lt_iff_toNat_lt.mp h
  have hsize : latest.toNat < UInt64.size := latest.toNat_lt_size
  rw [UInt64.toNat_add]
  show (last.toNat + 1) % UInt64.size = last.toNat + 1
  exact Nat.mod_eq_of_lt (by omega)

/-! ### The source -/

/-- **A source that shows attestations of the nonces asked for**, live and of the past. It may show
none, or fail. -/
structure ShowsAsked (t : List Exchange) : Prop where
  live : ∀ nonce found, ⟨.source (.attestation nonce), .ok (some found)⟩ ∈ t → found.nonce = nonce
  past : ∀ nonce height found,
    ⟨.source (.attestationAt nonce height), .ok (some found)⟩ ∈ t → found.nonce = nonce

theorem ShowsAsked.mono {t t' : List Exchange} (h : ShowsAsked t') (hsub : t ⊆ t') :
    ShowsAsked t :=
  ⟨fun nonce found hmem => h.live nonce found (hsub hmem),
    fun nonce height found hmem => h.past nonce height found (hsub hmem)⟩

/-- **The attestation of a nonce** has this nonce, wherever it was found: at the source itself, or
at one of the heights that are searched. -/
theorem ShowsAsked.attestation_nonce {config : HistoryConfig} {nonce : UInt64} {t : List Exchange}
    {found : Attestation} (shows : ShowsAsked t)
    (h : Follows (History.attestation config nonce) t (.ok found)) : found.nonce = nonce := by
  rw [History.attestation] at h
  obtain ⟨answer, t₁, rfl, h₁⟩ :=
    (follows_perform_bind_iff (r := .source (.attestation nonce))).mp h
  rcases answer with e | _ | live
  · obtain ⟨-, heq⟩ := follows_done_iff.mp h₁
    cases heq
  · -- It is not live any more, so it was searched from the latest height.
    obtain ⟨answer, t₂, rfl, h₂⟩ := (follows_perform_bind_iff (r := .source .latestHeight)).mp h₁
    cases answer with
    | error e =>
      obtain ⟨-, heq⟩ := follows_done_iff.mp h₂
      cases heq
    | ok latest =>
      obtain ⟨height, -, hmem⟩ := (History.follows_resolveFrom_iff.mp h₂).exists_shown
      exact shows.past nonce height found
        (List.mem_cons_of_mem _ (List.mem_cons_of_mem _ hmem))
  · obtain ⟨-, heq⟩ := follows_done_iff.mp h₁
    obtain rfl := Except.ok.inj heq
    exact shows.live nonce found List.mem_cons_self

namespace Relayer

variable {setup : RelayerSetup} {t : List Exchange}

/-! ### One call -/

/-- Exchanges without a submission record nothing. -/
theorem recorded_of_countP_eq_zero (h : t.countP (fun e => isSubmission e.1) = 0) :
    recorded t = [] := by
  rw [recorded_eq_nil_iff]
  intro e he
  by_contra hsome
  obtain ⟨n, hn⟩ := Option.ne_none_iff_exists'.mp hsome
  obtain ⟨submission, tx, rfl, -⟩ := recordedNonce?_eq_some hn
  exact List.countP_eq_zero.mp h _ he rfl

/-- What submits nothing records nothing. -/
theorem recorded_of_asksAtMost_zero {α : Type} {p : Routine α} (hp : AsksAtMost isSubmission 0 p)
    (h : Begins p t) : recorded t = [] :=
  recorded_of_countP_eq_zero (Nat.le_zero.mp (hp t h))

/-- A routine that submits nothing, whatever it is answered, records nothing. -/
theorem recorded_of_quiet {α : Type} {p : Routine α}
    (hp : Conforms (fun r => isSubmission r = false) (fun _ => True) p) (h : Begins p t) :
    recorded t = [] :=
  recorded_of_asksAtMost_zero hp.asksAtMost_zero h

/-- **What a call submits** is behind the last nonce that it read, and not behind the latest. -/
theorem submission_nonce {submission : Submission} (shows : ShowsAsked t)
    (h : Asks (relayNext setup) t (.submit submission)) :
    ∃ last latest, ⟨.lastRelayed, .ok last⟩ ∈ t ∧ ⟨.source .latestNonce, .ok latest⟩ ∈ t ∧
      last < latest ∧ submission.nonce = last + 1 := by
  obtain ⟨last, latest, attestation, current, mid, read, hmid, hcommit⟩ := relayNext_asks h rfl
  obtain ⟨searched, hsearched, hattested⟩ := read.attested
  have hnonce := (shows.mono hsearched.subset).attestation_nonce hattested
  obtain ⟨target, submit, mid', htarget, hsubmits, -, hasks⟩ := commit_asks hnonce hcommit rfl
  refine ⟨last, latest, read.lastRelayed, read.latestNonce, read.behind, ?_⟩
  rcases submitWithQuorum_asks hasks rfl with
    ⟨_, _, hquery⟩ | ⟨_, confirms, signatures, _, _, _, heq⟩
  · -- The wait for the quorum does not submit.
    cases Store.conforms_queryQuorum.asks hquery
  · obtain rfl : submission = submit signatures := by simpa using heq
    rw [hsubmits.nonce, htarget]

/-- **A call takes the contract on by one or leaves it**, wherever it is broken off. It submits once
at most, so the contract is still where the call has read it. -/
theorem relayNext_recorded {last last' : UInt64} (h : Begins (relayNext setup) t)
    (shows : ShowsAsked t) (contract : contractAfter last t = some last') :
    CountsUp last t last' := by
  by_cases hnone : recorded t = []
  · obtain ⟨rfl, -⟩ := contractAfter_of_recorded_nil hnone contract
    exact .of_recorded_nil hnone
  · -- A submission succeeded, and it was the only one.
    obtain ⟨n, hn⟩ := List.exists_mem_of_ne_nil _ hnone
    obtain ⟨e, he, hrecorded⟩ := List.mem_filterMap.mp hn
    obtain ⟨submission, tx, rfl, rfl⟩ := recordedNonce?_eq_some hrecorded
    obtain ⟨before, after, rfl⟩ := List.append_of_mem he
    have honce := asksAtMost_relayNext _ h
    rw [List.countP_append, List.countP_cons_of_pos rfl] at honce
    have hbefore := recorded_of_countP_eq_zero (t := before) (by omega)
    have hafter := recorded_of_countP_eq_zero (t := after) (by omega)
    -- So the nonce that the call read before is still the contract's last one.
    obtain ⟨mid, hmid, hrest⟩ := contractAfter_append contract
    obtain ⟨mid', hstep, hrest⟩ := contractAfter_cons hrest
    obtain ⟨rfl, hreads⟩ := contractAfter_of_recorded_nil hbefore hmid
    obtain rfl := Option.some.inj ((contractStep_of_recordedNonce? hrecorded).symm.trans hstep)
    obtain ⟨rfl, -⟩ := contractAfter_of_recorded_nil hafter hrest
    obtain ⟨read, latest, hread, -, hbehind, hnonce⟩ :=
      submission_nonce (shows.mono (List.subset_append_left _ _)) h.asks
    obtain rfl := hreads read hread
    have hsucc := toNat_succ_of_lt hbehind
    have hrecords : recorded (before ++ ⟨.submit submission, .ok tx⟩ :: after) =
        [submission.nonce] := by
      rw [recorded_append, hbefore, recorded_cons hrecorded, hafter]
      rfl
    -- So exactly one nonce was recorded, and it is the one behind what was read.
    refine ⟨1, ?_, ?_⟩
    · rw [hrecords, hnonce]
      show [(read + 1).toNat] = [read.toNat + 1]
      rw [hsucc]
    · rw [hnonce]
      exact hsucc

/-- **Waiting and submitting in vain** records nothing: the quorum is not reached, the signatures do
not line up, or the submission itself fails. -/
theorem recorded_of_submitWithQuorum_error {target : QuorumTarget} {current : Valset}
    {submission : List Vrs → Submission} {error : RelayerError}
    (h : Follows (submitWithQuorum setup target current submission) t (.error error)) :
    recorded t = [] := by
  rw [submitWithQuorum] at h
  obtain ⟨result, t₁, t₂, rfl, hquorum, h₁⟩ := follows_bind_iff.mp h
  rw [recorded_append,
    recorded_of_asksAtMost_zero (asksAtMost_quorum target current) hquorum.begins, List.nil_append]
  cases result with
  | error e =>
    obtain ⟨rfl, -⟩ := follows_done_iff.mp h₁
    rfl
  -- With a quorum something is submitted, unless its signatures do not line up.
  | ok confirms =>
    dsimp only at h₁
    split at h₁
    · obtain ⟨rfl, -⟩ := follows_done_iff.mp h₁
      rfl
    · obtain ⟨answer, t₃, rfl, h₂⟩ := follows_perform_bind_iff.mp h₁
      cases answer with
      | error e =>
        obtain ⟨rfl, -⟩ := follows_done_iff.mp h₂
        rfl
      -- A submission that succeeds is no failure.
      | ok transaction =>
        obtain ⟨-, heq⟩ := follows_done_iff.mp h₂
        cases heq

/-- A commit that fails records nothing. The reading of the root comes before its submission. -/
theorem recorded_of_commit_error {nonce : UInt64} {attestation : Attestation} {current : Valset}
    {error : RelayerError} (h : Follows (commit setup nonce attestation current) t (.error error)) :
    recorded t = [] := by
  cases attestation with
  | valset new => exact recorded_of_submitWithQuorum_error h
  | dataCommitment c =>
    rw [commit] at h
    obtain ⟨answer, t₁, rfl, h₁⟩ :=
      (follows_perform_bind_iff (r := .source (.dataRoot c.beginBlock c.endBlock))).mp h
    show recorded t₁ = []
    cases answer with
    | error e =>
      obtain ⟨rfl, -⟩ := follows_done_iff.mp h₁
      rfl
    | ok root => exact recorded_of_submitWithQuorum_error h₁

/-- Relaying that fails records nothing. -/
theorem recorded_of_relay_error {nonce : UInt64} {error : RelayerError}
    (h : Follows (relay setup nonce) t (.error error)) : recorded t = [] := by
  rw [relay] at h
  -- The searches submit nothing, and behind a commit that succeeds the call does not fail.
  obtain ⟨found, t₁, t₂, rfl, hfound, h₁⟩ := follows_bind_iff.mp h
  rw [recorded_append, recorded_of_asksAtMost_zero
    (asksAtMost_zero_of_isQuestion (conforms_attestation _ _)) hfound.begins, List.nil_append]
  cases found with
  | error e =>
    obtain ⟨rfl, -⟩ := follows_done_iff.mp h₁
    rfl
  | ok attestation =>
    obtain ⟨prior, t₃, t₄, rfl, hprior, h₂⟩ := follows_bind_iff.mp h₁
    rw [recorded_append, recorded_of_asksAtMost_zero
      (asksAtMost_zero_of_isQuestion (conforms_valsetBefore _ _)) hprior.begins, List.nil_append]
    cases prior with
    | error e =>
      obtain ⟨rfl, -⟩ := follows_done_iff.mp h₂
      rfl
    | ok current =>
      obtain ⟨result, t₅, t₆, rfl, hcommit, h₃⟩ := follows_bind_iff.mp h₂
      -- The commit is the last thing that can fail, and a failed one records nothing.
      cases result with
      | error e =>
        obtain ⟨rfl, -⟩ := follows_done_iff.mp h₃
        rw [List.append_nil]
        exact recorded_of_commit_error hcommit
      | ok transaction =>
        obtain ⟨_, t₇, -, h₄⟩ := follows_perform_bind_iff.mp h₃
        obtain ⟨-, heq⟩ := follows_done_iff.mp h₄
        cases heq

/-- **A call that fails** records nothing. So a failure of any kind leaves the nonce to the next
call. -/
theorem recorded_of_relayNext_error {error : RelayerError}
    (h : Follows (relayNext setup) t (.error error)) : recorded t = [] := by
  rw [relayNext] at h
  obtain ⟨lastAnswer, t₁, rfl, h₁⟩ := follows_perform_bind_iff.mp h
  cases lastAnswer with
  | error e =>
    obtain ⟨rfl, -⟩ := follows_done_iff.mp h₁
    rfl
  | ok last =>
    obtain ⟨_, t₂, rfl, h₂⟩ := follows_perform_bind_iff.mp h₁
    obtain ⟨latestAnswer, t₃, rfl, h₃⟩ :=
      (follows_perform_bind_iff (r := .source .latestNonce)).mp h₂
    -- The reads and the note record nothing.
    show recorded t₃ = []
    cases latestAnswer with
    | error e =>
      obtain ⟨rfl, -⟩ := follows_done_iff.mp h₃
      rfl
    | ok latest =>
      dsimp only at h₃
      split at h₃
      · obtain ⟨rfl, -⟩ := follows_done_iff.mp h₃
        rfl
      · exact recorded_of_relay_error h₃

/-! ### A run of the service -/

/-- Recorded nonces that the source has reached: a latest nonce that is not below was reported
before. -/
def Reached (t : List Exchange) : Prop :=
  ∀ before submission tx after, t = before ++ ⟨.submit submission, .ok tx⟩ :: after →
    ∃ latest, ⟨.source .latestNonce, .ok latest⟩ ∈ before ∧ submission.nonce ≤ latest

theorem Reached.of_recorded_nil (h : recorded t = []) : Reached t := by
  rintro before submission tx after rfl
  cases recorded_eq_nil_iff.mp h _ (List.mem_append_right _ List.mem_cons_self)

/-- It holds of two parts together, as what was reported in the first part stays reported. -/
theorem Reached.append {t' : List Exchange} (h : Reached t) (h' : Reached t') :
    Reached (t ++ t') := by
  intro before submission tx after hsplit
  -- The submission is in the one part or in the other.
  rcases List.append_eq_append_iff.mp hsplit with ⟨mid, rfl, rfl⟩ | ⟨mid, rfl, hmid⟩
  · obtain ⟨latest, hlatest, hle⟩ := h' mid submission tx after rfl
    exact ⟨latest, List.mem_append_right _ hlatest, hle⟩
  · cases mid with
    | nil =>
      obtain ⟨latest, hlatest, -⟩ := h' [] submission tx after hmid.symm
      cases hlatest
    | cons e rest =>
      obtain ⟨rfl, -⟩ := List.cons.inj hmid
      exact h before submission tx rest rfl

/-- A call submits what the source has reached. -/
theorem reached_relayNext (h : Begins (relayNext setup) t) (shows : ShowsAsked t) : Reached t := by
  rintro before submission tx after rfl
  obtain ⟨last, latest, -, hlatest, hbehind, hnonce⟩ :=
    submission_nonce (shows.mono (List.subset_append_left _ _)) h.asks
  refine ⟨latest, hlatest, ?_⟩
  rw [hnonce, UInt64.le_iff_toNat_le, toNat_succ_of_lt hbehind]
  exact UInt64.lt_iff_toNat_lt.mp hbehind

/-- **A turn is one call**, and then nothing is submitted. -/
theorem begins_turn (h : Begins (turn setup) t) :
    ∃ called rest, t = called ++ rest ∧ Begins (relayNext setup) called ∧ recorded rest = [] := by
  rw [turn] at h
  rcases begins_bind_iff.mp h with hcall | ⟨result, t₁, t₂, rfl, hcall, h₁⟩
  · exact ⟨t, [], (List.append_nil t).symm, hcall, rfl⟩
  refine ⟨t₁, t₂, rfl, hcall.begins, ?_⟩
  apply recorded_of_quiet _ h₁
  -- What is left is a note of a failure, a look for cancellation and a pause.
  have hsettle : Conforms (fun r => isSubmission r = false) (fun _ => True) (settle result) := by
    unfold settle
    split
    · trivial
    · trivial
    · trivial
    · exact conforms_perform_bind.mpr ⟨rfl, fun _ => trivial⟩
  refine hsettle.bind fun settled _ => ?_
  unfold conclude
  split
  · trivial
  refine conforms_perform_bind.mpr ⟨rfl, fun cancelled => ?_⟩
  split
  · trivial
  split
  · refine conforms_perform_bind.mpr ⟨rfl, fun wait => ?_⟩
    split <;> trivial
  · trivial

/-- What a turn does to the contract is what its call does. -/
theorem turn_recorded {last last' : UInt64} (h : Begins (turn setup) t) (shows : ShowsAsked t)
    (contract : contractAfter last t = some last') : CountsUp last t last' ∧ Reached t := by
  obtain ⟨called, rest, rfl, hcall, hrest⟩ := begins_turn h
  obtain ⟨mid, hmid, hlast⟩ := contractAfter_append contract
  obtain ⟨rfl, -⟩ := contractAfter_of_recorded_nil hrest hlast
  have hshows := shows.mono (List.subset_append_left called rest)
  exact ⟨(relayNext_recorded hcall hshows hmid).append (.of_recorded_nil hrest),
    (reached_relayNext hcall hshows).append (.of_recorded_nil hrest)⟩

/-- **The service on its way**, at any moment: it waits as a backup, or it has made some turns and
begun another one. -/
inductive Running (setup : RelayerSetup) : List Exchange → Prop where
  | waiting {t : List Exchange} : Begins (gracePeriod setup) t → Running setup t
  | turning {grace turns begun : List Exchange} :
      Follows (gracePeriod setup) grace .elapsed →
      Loops (fun _ : Unit => turn setup) () turns () → Begins (turn setup) begun →
      Running setup (grace ++ (turns ++ begun))

/-- A backup that waits records nothing. -/
theorem recorded_gracePeriod (h : Begins (gracePeriod setup) t) : recorded t = [] := by
  apply recorded_of_quiet _ h
  unfold gracePeriod
  split
  · exact (conforms_perform (r := .pause setup.config.backupGracePeriod)).mpr
      ⟨rfl, fun _ => trivial⟩
  · trivial

/-- **What whole turns do to the contract.** The induction is on the turns, each of which takes up
the contract where the last one has left it. -/
theorem loops_recorded {start last : UInt64}
    (h : Loops (fun _ : Unit => turn setup) () t ()) (shows : ShowsAsked t)
    (contract : contractAfter start t = some last) : CountsUp start t last ∧ Reached t := by
  -- On the turns, each of which goes on from where the contract was left.
  generalize hstate : () = s at h
  induction h generalizing last with
  | start =>
    obtain rfl := Option.some.inj contract
    exact ⟨.of_recorded_nil rfl, .of_recorded_nil rfl⟩
  | @turn t t' _ _ _ hturn ih =>
    obtain ⟨mid, hmid, hlast⟩ := contractAfter_append contract
    obtain ⟨hcounts, hreached⟩ := ih (shows.mono (List.subset_append_left _ _)) hmid rfl
    obtain ⟨hcounts', hreached'⟩ :=
      turn_recorded hturn.begins (shows.mono (List.subset_append_right _ _)) hlast
    exact ⟨hcounts.append hcounts', hreached.append hreached'⟩

/-- **What a relayer's contract records.** At any moment of a run that begins with the last nonce
`start`, the nonces of the recorded submissions are the next ones behind `start`, each once and in
order, and the contract's last nonce is the last of them. Each of them was reached by a latest nonce
that the source reported before. And a call that fails records nothing. -/
theorem recorded_consecutive {start last : UInt64} (h : Running setup t) (shows : ShowsAsked t)
    (contract : contractAfter start t = some last) :
    (∃ k, (recorded t).map UInt64.toNat = List.range' (start.toNat + 1) k ∧
      last.toNat = start.toNat + k) ∧
    (∀ before submission tx after, t = before ++ ⟨.submit submission, .ok tx⟩ :: after →
      ∃ latest, ⟨.source .latestNonce, .ok latest⟩ ∈ before ∧ submission.nonce ≤ latest) ∧
    ∀ called error, Follows (relayNext setup) called (.error error) → recorded called = [] := by
  have hprogress : CountsUp start t last ∧ Reached t := by
    cases h with
    -- Within the grace period nothing is recorded.
    | waiting hgrace =>
      have hnone := recorded_gracePeriod hgrace
      obtain ⟨rfl, -⟩ := contractAfter_of_recorded_nil hnone contract
      exact ⟨.of_recorded_nil hnone, .of_recorded_nil hnone⟩
    -- Behind it, the contract goes through the whole turns, and then the one that has begun.
    | @turning grace turns begun hgrace hturns hbegun =>
      have hnone := recorded_gracePeriod hgrace.begins
      obtain ⟨mid, hmid, hrest⟩ := contractAfter_append contract
      obtain ⟨rfl, -⟩ := contractAfter_of_recorded_nil hnone hmid
      obtain ⟨mid', hmid', hlast⟩ := contractAfter_append hrest
      have hrestShows := shows.mono (List.subset_append_right _ _)
      have hwhole := loops_recorded hturns
        (hrestShows.mono (List.subset_append_left _ _)) hmid'
      have hlastTurn := turn_recorded hbegun
        (hrestShows.mono (List.subset_append_right _ _)) hlast
      exact ⟨(CountsUp.of_recorded_nil hnone).append (hwhole.1.append hlastTurn.1),
        (Reached.of_recorded_nil hnone).append (hwhole.2.append hlastTurn.2)⟩
  exact ⟨hprogress.1, hprogress.2, fun called error => recorded_of_relayNext_error⟩

/-- A turn in which the contract cannot be read. -/
def failedTurn (setup : RelayerSetup) : List Exchange :=
  [⟨.lastRelayed, .error .rpc⟩, ⟨.note .relayFailed, ()⟩, ⟨.isCancelled, false⟩,
    ⟨.pause setup.config.pollInterval, .elapsed⟩]

theorem follows_failedTurn : Follows (turn setup) (failedTurn setup) (.again ()) := by
  have hcall : Follows (relayNext setup) [⟨.lastRelayed, .error .rpc⟩]
      (.error (.submitter .rpc)) := by
    rw [relayNext]
    exact .perform_bind (.done _)
  rw [turn]
  refine hcall.bind ?_
  -- The failure is noted, the task is not cancelled, and the pause comes to its end.
  refine .perform_bind ?_
  refine .perform_bind ?_
  exact .perform_bind (.done _)

/-- **A failed turn, and then one that relays**, by a call that finds everything at once. -/
theorem recorded_consecutive_of_failedTurn :
    ∃ (t : List Exchange) (start last : UInt64), Running ⟨.standard, .standard⟩ t ∧
      contractAfter start t = some last ∧ start < last ∧
      ∃ k, (recorded t).map UInt64.toNat = List.range' (start.toNat + 1) k ∧
        last.toNat = start.toNat + k := by
  obtain ⟨target, root, confirm, hcommitment, hnonce, hdigest, hkind, hcheck, hverify⟩ :=
    Store.exists_confirm
  obtain ⟨x, hparse, -⟩ := verifyText_eq_ok_iff.mp hverify
  let setup : RelayerSetup := ⟨.standard, .standard⟩
  have hbegins : Begins (relayNext setup) (soleCourse setup target root confirm x) :=
    begins_soleCourse hcommitment hnonce hdigest hkind hcheck hverify hparse
  have hrunning : Running setup
      ([] ++ (failedTurn setup ++ soleCourse setup target root confirm x)) :=
    .turning (.done _) (.single follows_failedTurn) (begins_bind_iff.mpr (Or.inl hbegins))
  have shows : ShowsAsked
      ([] ++ (failedTurn setup ++ soleCourse setup target root confirm x)) := by
    refine ⟨fun nonce found hmem => ?_, fun nonce height found hmem => ?_⟩
    · simp [failedTurn, soleCourse] at hmem
      obtain ⟨rfl, rfl⟩ := hmem
      rfl
    · simp [failedTurn, soleCourse] at hmem
  -- The failed turn leaves the contract, and the call sets the next nonce.
  have contract : contractAfter (target.nonce - 1)
      ([] ++ (failedTurn setup ++ soleCourse setup target root confirm x)) =
        some target.nonce := by
    simp [contractAfter, contractStep, failedTurn, soleCourse, soleSubmission, Submission.nonce]
  have hall := recorded_consecutive hrunning shows contract
  exact ⟨_, _, _, hrunning, contract, UInt64.not_le.mp (not_le_pred hnonce), hall.1⟩

end Relayer

end Countersign
