import Countersign.Proofs.Relayer.Submissions

/-!
# Calls that are cancelled before they begin

A task that was cancelled is told so whenever it looks (`Routine.Cancelled`). A call for a quorum
looks before each poll, but not before it asks the cache. So a call that is cancelled before it
begins ends with `cancelled` exactly if the cache has nothing for it. What the cache has is a quorum
that an earlier call of the same store reached, and this is the answer then
(`Store.queryQuorum_follows_of_cancelled`).

A relayer waits for quorums in no other way, and looks for its cancellation nowhere else before it
submits. So a call of `Relayer.relayNext` that is cancelled before it begins submits exactly if an
earlier call left a quorum for its target in the cache (`Relayer.cancelled_iff_not_recalled`): the
signatures of such a quorum can always be lined up.

Calls of both kinds share the store, in any number and any order (`Relayer.StoreCall`).
-/

namespace Countersign

open Routine

/-- A task that was cancelled before: whenever it looks, it is. This says nothing of tasks that
never look, and these are the point of the module. -/
def Routine.Cancelled (t : List Exchange) : Prop :=
  ∀ answer : Bool, ⟨.isCancelled, answer⟩ ∈ t → answer = true

theorem Routine.Cancelled.mono {t t' : List Exchange} (h : Cancelled t) (hsub : t' ⊆ t) :
    Cancelled t' :=
  fun answer hmem => h answer (hsub hmem)

namespace Store

variable {config : StoreConfig} {target : QuorumTarget} {valset : Valset} {deadline : Nat}
  {t : List Exchange} {result : Except StoreError (List Confirm)}

/-- **A call for a quorum that is cancelled before it begins** is answered by the cache, or ends
before its first poll. A valset without power is refused before either. -/
theorem queryQuorum_follows_of_cancelled (cancelled : Cancelled t)
    (h : Follows (queryQuorum config target valset deadline) t result) :
    (valset.threshold = 0 ∧ t = [] ∧ result = .error (.emptyValset valset.nonce)) ∨
    (∃ records, t = [⟨.recall target, some records⟩] ∧
      result = decodeQuorum target.kind records) ∨
    (∃ started : Nat, t = [⟨.recall target, none⟩, ⟨.now, started⟩, ⟨.isCancelled, true⟩] ∧
      result = .error .cancelled) := by
  rw [queryQuorum] at h
  split at h
  · next powerless =>
    obtain ⟨rfl, rfl⟩ := follows_done_iff.mp h
    exact Or.inl ⟨powerless, rfl, rfl⟩
  obtain ⟨recalled, rest, rfl, hrest⟩ := follows_perform_bind_iff.mp h
  cases recalled with
  -- The cache answers, and the token is not looked at.
  | some records =>
    obtain ⟨rfl, rfl⟩ := follows_done_iff.mp hrest
    exact Or.inr (Or.inl ⟨records, rfl, rfl⟩)
  -- Polling begins, and the first thing it does is to look at the token.
  | none =>
    obtain ⟨started, polled, rfl, hpoll⟩ := follows_perform_bind_iff.mp hrest
    rw [pollBound, poll] at hpoll
    obtain ⟨seen, rest, rfl, hlooked⟩ := follows_perform_bind_iff.mp hpoll
    obtain rfl : seen = true := cancelled seen (by simp)
    obtain ⟨rfl, rfl⟩ := follows_done_iff.mp hlooked
    exact Or.inr (Or.inr ⟨started, rfl, rfl⟩)

/-- What a call remembers reaches the threshold of its valset. -/
theorem reached_of_asks_remember {target' : QuorumTarget} {records : List Bytes}
    (h : Asks (queryQuorum config target valset deadline) t (.remember target' records)) :
    ∃ confirms, Reached target' valset confirms ∧
      records = confirms.map fun c => Bytes.ofText c.encode := by
  rcases conforms_queryQuorum.asks h with _ | _ | _ | _ | hreached | _
  exact ⟨_, hreached, rfl⟩

/-- Confirms of a quorum are of the kind that the target asks for. -/
theorem Reached.kinds {confirms : List Confirm} (h : Reached target valset confirms) :
    ∀ c ∈ confirms, c.kind = target.kind := by
  obtain ⟨candidates, -, rfl⟩ := h
  exact fun c hc => (of_mem_collect hc).1

/-- Confirms of a quorum are signed over the digest of the target by those who are named. -/
theorem Reached.verified {confirms : List Confirm} (h : Reached target valset confirms) :
    ∀ c ∈ confirms, verifyText target.digest c.signature c.signer = .ok () := by
  obtain ⟨candidates, -, rfl⟩ := h
  exact fun c hc => (of_mem_collect hc).2

end Store

namespace Relayer

variable {setup : RelayerSetup}

/-- Confirms that verify can be lined up with any members. Lining up fails on a signature that
cannot be read only, and these can. -/
theorem exists_orderSignatures {digest : Word} {confirms : List Confirm}
    (verified : ∀ c ∈ confirms, verifyText digest c.signature c.signer = .ok ())
    (current : Valset) : ∃ signatures, orderSignatures current confirms = .ok signatures := by
  cases horder : orderSignatures current confirms with
  | ok signatures => exact ⟨signatures, rfl⟩
  | error e =>
    -- Some member spoils its place, though its confirm is taken apart.
    obtain ⟨member, -, e', c, hfirst, hparse⟩ :=
      exists_orderSignatures_eq_error_iff.mp ⟨e, horder⟩
    obtain ⟨x, hx, -⟩ := verifyText_eq_ok_iff.mp (verified c hfirst.mem)
    cases hparse.symm.trans hx

/-! ### A call from its beginning to its end -/

/-- What is asked outside of waiting and submitting: how far contract and source are, and what the
source knows; and what is noted. -/
def isReading : Request → Bool
  | .lastRelayed => true
  | .source _ => true
  | .note _ => true
  | _ => false

/-- A part of a course that only reads, so that it has neither cache nor submission in it. -/
def Reads (t : List Exchange) : Prop := ∀ e ∈ t, isReading e.1 = true

theorem reads_nil : Reads [] := by
  rintro e ⟨⟩

theorem Reads.cons {e : Exchange} {t : List Exchange} (he : isReading e.1 = true) (h : Reads t) :
    Reads (e :: t) :=
  List.forall_mem_cons.mpr ⟨he, h⟩

theorem Reads.append {t₁ t₂ : List Exchange} (h₁ : Reads t₁) (h₂ : Reads t₂) :
    Reads (t₁ ++ t₂) :=
  List.forall_mem_append.mpr ⟨h₁, h₂⟩

/-- A routine that asks only questions reads only. -/
theorem reads_of_isQuestion {α : Type} {p : Routine α} {t : List Exchange} {a : α}
    (hp : Conforms (fun r => isQuestion r = true) (fun _ => True) p) (h : Follows p t a) :
    Reads t := by
  intro e he
  have hquestion := hp.begins h.begins he
  cases hrequest : e.1 <;> rw [hrequest] at hquestion <;> first | rfl | cases hquestion

/-- **A course with at most one wait for a quorum**, between parts that only read. Every call of a
relayer is of this form, whatever it comes to. -/
inductive WaitsOnce (setup : RelayerSetup) : List Exchange → Prop where
  | never {t : List Exchange} (reads : Reads t) : WaitsOnce setup t
  | once {front back mid : List Exchange} {target : QuorumTarget} {current : Valset}
      {submission : List Vrs → Submission} {result : Except RelayerError Word}
      (reads : Reads front)
      (waits : Follows (submitWithQuorum setup target current submission) mid result)
      (reads' : Reads back) : WaitsOnce setup (front ++ (mid ++ back))

/-- More reads before and behind do not change it. -/
theorem WaitsOnce.extend {t front back : List Exchange} (h : WaitsOnce setup t)
    (hfront : Reads front) (hback : Reads back) : WaitsOnce setup (front ++ (t ++ back)) := by
  cases h with
  | never reads => exact .never (hfront.append (reads.append hback))
  | @once front' back' mid target current submission result reads waits reads' =>
    have hparts : front ++ (front' ++ (mid ++ back') ++ back) =
        (front ++ front') ++ (mid ++ (back' ++ back)) := by
      simp only [List.append_assoc]
    rw [hparts]
    exact .once (hfront.append reads) waits (reads'.append hback)

/-- Committing an attestation waits for one quorum, and reads the root before it for a data
commitment. -/
theorem commit_follows {nonce : UInt64} {attestation : Attestation} {current : Valset}
    {t : List Exchange} {result : Except RelayerError Word}
    (h : Follows (commit setup nonce attestation current) t result) : WaitsOnce setup t := by
  cases attestation with
  | valset new =>
    rw [← List.append_nil t]
    exact WaitsOnce.once reads_nil h reads_nil
  | dataCommitment c =>
    rw [commit] at h
    obtain ⟨answer, rest, rfl, hrest⟩ :=
      (follows_perform_bind_iff (r := .source (.dataRoot c.beginBlock c.endBlock))).mp h
    cases answer with
    | error e =>
      obtain ⟨rfl, -⟩ := follows_done_iff.mp hrest
      exact .never (.cons rfl reads_nil)
    | ok root =>
      rw [← List.append_nil rest]
      exact WaitsOnce.once (.cons rfl reads_nil) hrest reads_nil

/-- Relaying a nonce reads the attestation and the valset before it, commits, and notes what it
did. -/
theorem relay_follows {nonce : UInt64} {t : List Exchange}
    {result : Except RelayerError RelayOutcome} (h : Follows (relay setup nonce) t result) :
    WaitsOnce setup t := by
  rw [relay] at h
  obtain ⟨found, t₁, rest, rfl, hfound, h₁⟩ := follows_bind_iff.mp h
  -- The attestation is read, and then the valset before it.
  have hreads := reads_of_isQuestion (conforms_attestation _ _) hfound
  cases found with
  | error e =>
    obtain ⟨rfl, -⟩ := follows_done_iff.mp h₁
    exact .never (hreads.append reads_nil)
  | ok attestation =>
    obtain ⟨prior, t₂, rest, rfl, hprior, h₂⟩ := follows_bind_iff.mp h₁
    have hreads' := hreads.append (reads_of_isQuestion (conforms_valsetBefore _ _) hprior)
    rw [← List.append_assoc]
    cases prior with
    | error e =>
      obtain ⟨rfl, -⟩ := follows_done_iff.mp h₂
      exact .never (hreads'.append reads_nil)
    | ok current =>
      obtain ⟨committed, t₃, rest, rfl, hcommit, h₃⟩ := follows_bind_iff.mp h₂
      -- What was read comes before the commit, and behind it there is at most a note.
      refine (commit_follows hcommit).extend hreads' ?_
      cases committed with
      | error e =>
        obtain ⟨rfl, -⟩ := follows_done_iff.mp h₃
        exact reads_nil
      | ok transaction =>
        obtain ⟨_, rest, rfl, h₄⟩ := follows_perform_bind_iff.mp h₃
        obtain ⟨rfl, -⟩ := follows_done_iff.mp h₄
        exact .cons rfl reads_nil

/-- **A call waits for at most one quorum.** It asks how far contract and source are before, and
does not wait at all if there is nothing to relay. -/
theorem relayNext_follows {t : List Exchange} {result : Except RelayerError RelayOutcome}
    (h : Follows (relayNext setup) t result) : WaitsOnce setup t := by
  rw [relayNext] at h
  obtain ⟨last, rest, rfl, h₁⟩ := follows_perform_bind_iff.mp h
  cases last with
  | error e =>
    obtain ⟨rfl, -⟩ := follows_done_iff.mp h₁
    exact .never (.cons rfl reads_nil)
  | ok last =>
    obtain ⟨_, rest, rfl, h₂⟩ := follows_perform_bind_iff.mp h₁
    obtain ⟨latest, rest, rfl, h₃⟩ :=
      (follows_perform_bind_iff (r := .source .latestNonce)).mp h₂
    -- The reads of contract and source, which come before anything else.
    have hread : Reads [⟨.lastRelayed, .ok last⟩, ⟨.note (.lastRelayed last), ()⟩,
        ⟨.source .latestNonce, latest⟩] :=
      .cons rfl (.cons rfl (.cons rfl reads_nil))
    suffices hrest : WaitsOnce setup rest by
      have hall := hrest.extend hread reads_nil
      rwa [List.append_nil] at hall
    -- Behind these reads the call ends, or it relays.
    cases latest with
    | error e =>
      obtain ⟨rfl, -⟩ := follows_done_iff.mp h₃
      exact .never reads_nil
    | ok latest =>
      dsimp only at h₃
      split at h₃
      · obtain ⟨rfl, -⟩ := follows_done_iff.mp h₃
        exact .never reads_nil
      · exact relay_follows h₃

/-- **What comes behind the answer of the store**: if it is confirms that can be lined up, they are
submitted, and otherwise nothing follows. The token is not looked at in between. -/
inductive AfterQuery (current : Valset) (submission : List Vrs → Submission) :
    Except StoreError (List Confirm) → List Exchange → Prop where
  | failed {answer : Except StoreError (List Confirm)}
      (unfit : ∀ confirms signatures, answer = .ok confirms →
        orderSignatures current confirms ≠ .ok signatures) : AfterQuery current submission answer []
  | submitted {confirms : List Confirm} {signatures : List Vrs}
      (order : orderSignatures current confirms = .ok signatures)
      (answer : Except SubmitterError Word) :
      AfterQuery current submission (.ok confirms) [⟨.submit (submission signatures), answer⟩]

/-- The cache is not asked again behind the answer. -/
theorem AfterQuery.not_mem_recall {current : Valset} {submission : List Vrs → Submission}
    {answer : Except StoreError (List Confirm)} {after : List Exchange}
    (h : AfterQuery current submission answer after) (target : QuorumTarget)
    (recalled : Option (List Bytes)) : ⟨.recall target, recalled⟩ ∉ after := by
  cases h <;> simp

/-- **Waiting for a quorum, and submitting**, from its beginning to its end. -/
theorem submitWithQuorum_follows {target : QuorumTarget} {current : Valset}
    {submission : List Vrs → Submission} {t : List Exchange} {result : Except RelayerError Word}
    (h : Follows (submitWithQuorum setup target current submission) t result) :
    ∃ (started ended : Nat) (query after : List Exchange)
      (answer : Except StoreError (List Confirm)),
      t = (⟨.now, started⟩ ::
        (query ++ [⟨.now, ended⟩, ⟨.note (.quorumWaited (ended - started)), ()⟩])) ++ after ∧
      Follows (Store.queryQuorum setup.store target current setup.config.quorumTimeout) query
        answer ∧ AfterQuery current submission answer after := by
  rw [submitWithQuorum, quorum] at h
  obtain ⟨result, waited, after, rfl, hquorum, hafter⟩ := follows_bind_iff.mp h
  obtain ⟨started, rest, rfl, h₁⟩ := follows_perform_bind_iff.mp hquorum
  obtain ⟨answer, query, rest, rfl, hquery, h₂⟩ := follows_bind_iff.mp h₁
  obtain ⟨ended, rest, rfl, h₃⟩ := follows_perform_bind_iff.mp h₂
  obtain ⟨_, rest, rfl, h₄⟩ := follows_perform_bind_iff.mp h₃
  cases answer with
  -- Without a quorum nothing is submitted.
  | error e =>
    obtain ⟨rfl, rfl⟩ := follows_done_iff.mp h₄
    obtain ⟨rfl, -⟩ := follows_done_iff.mp hafter
    refine ⟨started, ended, query, [], .error e, rfl, hquery, .failed ?_⟩
    rintro _ _ ⟨⟩
  -- With a quorum it depends on whether its signatures can be lined up.
  | ok confirms =>
    obtain ⟨rfl, rfl⟩ := follows_done_iff.mp h₄
    refine ⟨started, ended, query, after, .ok confirms, rfl, hquery, ?_⟩
    dsimp only at hafter
    cases horder : orderSignatures current confirms with
    | error e =>
      rw [horder] at hafter
      obtain ⟨rfl, -⟩ := follows_done_iff.mp hafter
      refine .failed fun confirms' signatures heq hsignatures => ?_
      obtain rfl := Except.ok.inj heq
      rw [horder] at hsignatures
      cases hsignatures
    | ok signatures =>
      rw [horder] at hafter
      obtain ⟨submitted, rest, rfl, hdone⟩ := follows_perform_bind_iff.mp hafter
      cases submitted with
      | error e =>
        obtain ⟨rfl, -⟩ := follows_done_iff.mp hdone
        exact .submitted horder _
      | ok transaction =>
        obtain ⟨rfl, -⟩ := follows_done_iff.mp hdone
        exact .submitted horder _

/-! ### Calls of one store -/

/-- **A call that shares a store with others**: one for a quorum, or one of a relayer. -/
inductive StoreCall where
  | quorum (config : StoreConfig) (call : Store.QuorumCall)
  | relay (setup : RelayerSetup)

/-- What comes of a call, which is different for the two kinds. -/
abbrev StoreCall.Result := Except StoreError (List Confirm) ⊕ Except RelayerError RelayOutcome

/-- What a call does, with its result in the common type. -/
def StoreCall.routine : StoreCall → Routine StoreCall.Result
  | .quorum config call => call.routine config >>= fun result => .done (.inl result)
  | .relay setup => relayNext setup >>= fun result => .done (.inr result)

/-- Behind a change of the result nothing is asked. -/
theorem asks_of_bind_done {α β : Type} {p : Routine α} {f : α → β} {t : List Exchange} {r : Request}
    (h : Asks (p >>= fun a => .done (f a)) t r) : Asks p t r := by
  rcases asks_bind_iff.mp h with h | ⟨_, _, _, _, _, h⟩
  · exact h
  · exact absurd h not_asks_done

variable {calls : Nat → StoreCall} {h : Interleaving fun n => (calls n).routine}

/-- **What is remembered** by a call, of either kind, has the power of a quorum of some valset. -/
theorem exists_reached_of_remember {m : Nat} {target : QuorumTarget} {records : List Bytes}
    (hm : (m, ⟨.remember target records, ()⟩) ∈ h.course) :
    ∃ valset confirms, Store.Reached target valset confirms ∧
      records = confirms.map fun c => Bytes.ofText c.encode := by
  obtain ⟨before, hasks⟩ := h.exists_asks hm
  dsimp only at hasks
  cases hcall : calls m with
  | quorum config call =>
    rw [hcall] at hasks
    exact ⟨_, Store.reached_of_asks_remember (asks_of_bind_done hasks)⟩
  | relay setup =>
    rw [hcall] at hasks
    obtain ⟨_, _, _, _, _, -, -, hcommit⟩ := relayNext_asks (asks_of_bind_done hasks) rfl
    obtain ⟨_, _, _, -, -, -, hwait⟩ := commit_asks_submitWithQuorum hcommit rfl
    rcases submitWithQuorum_asks hwait rfl with ⟨_, -, hquery⟩ | ⟨_, _, _, -, -, -, ⟨⟩⟩
    exact ⟨_, Store.reached_of_asks_remember hquery⟩

/-- What the cache gives back can be read, as confirms that have the power of a quorum. A faithful
cache has it from a call that remembered it, and encoding and decoding a confirm give it back. -/
theorem exists_reached_of_recall (faithful : Store.CacheFaithful h.course) {n : Nat}
    {target : QuorumTarget} {records : List Bytes}
    (hn : (n, ⟨.recall target, some records⟩) ∈ h.course) :
    ∃ valset confirms, Store.Reached target valset confirms ∧
      Store.decodeQuorum target.kind records = .ok confirms := by
  obtain ⟨m, hm⟩ := faithful.exists_remember hn
  obtain ⟨valset, confirms, hreached, rfl⟩ := exists_reached_of_remember hm
  exact ⟨valset, confirms, hreached, Store.decodeQuorum_encode hreached.kinds⟩

/-! ### Calls that are cancelled before they begin -/

section
variable {n : Nat}

/-- **A call for a quorum that is cancelled before it begins** is told so, unless the cache
answers. -/
theorem queryQuorum_of_cancelled (faithful : Store.CacheFaithful h.course)
    (cancelled : Cancelled (ofCall n h.course)) {config : StoreConfig} {call : Store.QuorumCall}
    {result : Except StoreError (List Confirm)} (power : 0 < call.valset.totalPower)
    (hresult : Follows (call.routine config) (ofCall n h.course) result) :
    (result = .error .cancelled ↔
      ∀ records, (n, ⟨.recall call.target, some records⟩) ∉ h.course) ∧
    ∀ records, (n, ⟨.recall call.target, some records⟩) ∈ h.course →
      ∃ valset confirms, Store.Reached call.target valset confirms ∧ result = .ok confirms := by
  rcases Store.queryQuorum_follows_of_cancelled cancelled hresult with
    ⟨powerless, -⟩ | ⟨records, hcourse, rfl⟩ | ⟨started, hcourse, rfl⟩
  · exact absurd powerless (Valset.threshold_ne_zero power)
  · -- The cache answered, and what it gave can be read.
    have hn : (n, ⟨.recall call.target, some records⟩) ∈ h.course := by
      rw [← mem_ofCall, hcourse]
      exact List.mem_cons_self
    obtain ⟨valset, confirms, hreached, hdecode⟩ := exists_reached_of_recall faithful hn
    rw [hdecode]
    exact ⟨⟨nofun, fun hnone => absurd hn (hnone records)⟩,
      fun _ _ => ⟨valset, confirms, hreached, rfl⟩⟩
  · -- It did not, so the whole course is known and has no answer of the cache in it.
    have hnone : ∀ records, (n, ⟨.recall call.target, some records⟩) ∉ h.course := by
      intro records hn
      rw [← mem_ofCall, hcourse] at hn
      simp at hn
    exact ⟨⟨fun _ => hnone, fun _ => rfl⟩, fun records hn => absurd hn (hnone records)⟩

/-- **A relayer that is cancelled before it begins submits** only what the cache gave it. -/
theorem exists_recall_of_submit {setup : RelayerSetup} (hcall : calls n = .relay setup)
    (cancelled : Cancelled (ofCall n h.course)) {submission : Submission}
    {answer : Except SubmitterError Word}
    (hsubmit : (n, ⟨.submit submission, answer⟩) ∈ h.course) :
    ∃ target records, (n, ⟨.recall target, some records⟩) ∈ h.course := by
  obtain ⟨earlier, later, hsplit⟩ := List.append_of_mem hsubmit
  have hpart : ofCall n earlier ⊆ ofCall n h.course := by
    rw [hsplit, ofCall_append]
    exact List.subset_append_left _ _
  have hasks := h.asks hsplit
  dsimp only at hasks
  rw [hcall] at hasks
  -- The call has waited for a quorum before, and it came out of the cache.
  obtain ⟨_, _, _, _, mid, -, hmid, hcommit⟩ := relayNext_asks (asks_of_bind_done hasks) rfl
  obtain ⟨target, _, mid', -, -, hmid', hwait⟩ := commit_asks_submitWithQuorum hcommit rfl
  rcases submitWithQuorum_asks hwait rfl with
    ⟨_, -, hquery⟩ | ⟨query, confirms, _, hquery, hfollows, -, -⟩
  · cases Store.conforms_queryQuorum.asks hquery
  have hsub : query ⊆ ofCall n h.course :=
    fun e he => hpart (hmid.subset (hmid'.subset (hquery.subset he)))
  rcases Store.queryQuorum_follows_of_cancelled (cancelled.mono hsub) hfollows with
    ⟨-, -, ⟨⟩⟩ | ⟨records, rfl, -⟩ | ⟨_, -, ⟨⟩⟩
  exact ⟨target, records, mem_ofCall.mp (hsub List.mem_cons_self)⟩

/-- **A quorum out of the cache is submitted**: nothing that follows can fail before. -/
theorem exists_submit_of_recall (faithful : Store.CacheFaithful h.course)
    (cancelled : Cancelled (ofCall n h.course)) {setup : RelayerSetup}
    {result : Except RelayerError RelayOutcome}
    (hresult : Follows (relayNext setup) (ofCall n h.course) result) {target : QuorumTarget}
    {records : List Bytes} (hn : (n, ⟨.recall target, some records⟩) ∈ h.course) :
    ∃ submission answer, (n, ⟨.submit submission, answer⟩) ∈ h.course := by
  rw [← mem_ofCall] at hn
  have hwaits := relayNext_follows hresult
  generalize hcourse : ofCall n h.course = t at hn hwaits
  cases hwaits with
  | never reads => exact absurd (reads _ hn) (by simp [isReading])
  | @once front back mid own current submission committed reads waits reads' =>
    obtain ⟨started, ended, query, after, answer, rfl, hquery, hafter⟩ :=
      submitWithQuorum_follows waits
    -- The cache was asked by the wait for the quorum, and by nothing before or behind it.
    have hnot : ∀ {t}, Reads t → ⟨.recall target, some records⟩ ∉ t :=
      fun reads hmem => absurd (reads _ hmem) (by simp [isReading])
    have hquestion : ⟨.recall target, some records⟩ ∈ query := by
      simpa [hnot reads, hnot reads', hafter.not_mem_recall] using hn
    have hcancelled : Cancelled query := by
      refine cancelled.mono fun e he => ?_
      rw [hcourse]
      simp [he]
    -- A cancelled query asks nothing, or ends with what the cache gave, or ends without it.
    rcases Store.queryQuorum_follows_of_cancelled hcancelled hquery with
      ⟨-, rfl, -⟩ | ⟨records', rfl, rfl⟩ | ⟨_, rfl, -⟩
    · cases hquestion
    · -- What the cache gave can be read and lined up.
      have hrecall : (n, ⟨.recall own, some records'⟩) ∈ h.course := by
        rw [← mem_ofCall, hcourse]
        simp
      obtain ⟨_, confirms, hreached, hdecode⟩ := exists_reached_of_recall faithful hrecall
      obtain ⟨signatures, horder⟩ := exists_orderSignatures hreached.verified current
      rw [hdecode] at hafter
      cases hafter with
      | failed unfit => exact absurd horder (unfit confirms signatures rfl)
      | @submitted _ signatures order answer =>
        refine ⟨submission signatures, answer, ?_⟩
        rw [← mem_ofCall, hcourse]
        simp
    · simp at hquestion

/-- **What a cancellation before the beginning comes to**, whatever calls share the store. A call
for a quorum is told of it, and a relayer submits nothing, exactly if the cache did not answer. What
the cache answers is a quorum for the same target that an earlier call reached. -/
theorem cancelled_iff_not_recalled {calls : Nat → StoreCall}
    (h : Interleaving fun n => (calls n).routine) (faithful : Store.CacheFaithful h.course)
    (n : Nat) (cancelled : Cancelled (ofCall n h.course)) :
    (∀ config call result, calls n = .quorum config call → 0 < call.valset.totalPower →
      Follows (call.routine config) (ofCall n h.course) result →
      (result = .error .cancelled ↔
        ∀ records, (n, ⟨.recall call.target, some records⟩) ∉ h.course) ∧
      ∀ records, (n, ⟨.recall call.target, some records⟩) ∈ h.course →
        ∃ valset confirms, Store.Reached call.target valset confirms ∧
          result = .ok confirms) ∧
    (∀ setup, calls n = .relay setup →
      (∀ submission answer, (n, ⟨.submit submission, answer⟩) ∈ h.course →
        ∃ target records, (n, ⟨.recall target, some records⟩) ∈ h.course) ∧
      ∀ result target records, Follows (relayNext setup) (ofCall n h.course) result →
        (n, ⟨.recall target, some records⟩) ∈ h.course →
        ∃ submission answer, (n, ⟨.submit submission, answer⟩) ∈ h.course) := by
  refine ⟨fun config call result _ power hresult => ?_, fun setup hcall => ⟨?_, ?_⟩⟩
  · exact queryQuorum_of_cancelled faithful cancelled power hresult
  · exact fun submission answer hsubmit => exists_recall_of_submit hcall cancelled hsubmit
  · exact fun result target records hresult hrecall =>
      exists_submit_of_recall faithful cancelled hresult hrecall

end

/-! ### Cancelled calls that the cache answers -/

/-- **A cache that gives back only what was remembered at first.** This is how the witness's course
is faithful: one quorum is remembered, and whatever is recalled behind it is this one. -/
theorem cacheFaithful_append {first rest : List (Nat × Exchange)} (m : Nat) (target : QuorumTarget)
    (records : List Bytes) (hremember : (m, ⟨.remember target records, ()⟩) ∈ first)
    (hfirst : ∀ n target' records', (n, ⟨.recall target', some records'⟩) ∉ first)
    (hrest : ∀ n target' records', (n, ⟨.recall target', some records'⟩) ∈ rest →
      target' = target ∧ records' = records) : Store.CacheFaithful (first ++ rest) := by
  intro before n target' records' after hsplit
  rcases List.append_eq_append_iff.mp hsplit with ⟨part, rfl, hafter⟩ | ⟨part, hbefore, hafter⟩
  · obtain ⟨rfl, rfl⟩ := hrest n target' records' (by simp [hafter])
    exact ⟨m, List.mem_append_left _ hremember⟩
  · cases part with
    | nil =>
      have hmem : (n, ⟨.recall target', some records'⟩) ∈ rest := by
        rw [List.nil_append] at hafter
        rw [← hafter]
        exact List.mem_cons_self
      obtain ⟨rfl, rfl⟩ := hrest n target' records' hmem
      rw [hbefore, List.append_nil] at hremember
      exact ⟨m, hremember⟩
    | cons e part =>
      obtain ⟨rfl, -⟩ := List.cons.inj hafter
      exact (hfirst n target' records' (by simp [hbefore])).elim

/-- Two calls for one quorum, and a relayer that needs the same. -/
def answeredCalls (target : QuorumTarget) (signer : Address) : Nat → StoreCall
  | 0 | 1 => .quorum .standard ⟨target, Store.soleValset signer, 1000⟩
  | _ => .relay ⟨.standard, .standard⟩

/-- The second and the third call are given what the first one found. Neither looks whether it is
cancelled. -/
def answeredCourse (target : QuorumTarget) (root : Word) (confirm : Confirm) (x : Vrs) :
    List (Nat × Exchange) :=
  [(0, ⟨.recall target, none⟩), (0, ⟨.now, (0 : Nat)⟩), (0, ⟨.isCancelled, false⟩),
    (0, ⟨.getAll [Store.confirmKey target.kind target.nonce confirm.signer]
      StoreConfig.standard.requestTimeout, [.ok [Bytes.ofText confirm.encode]]⟩),
    (0, ⟨.remember target [Bytes.ofText confirm.encode], ()⟩)] ++
  ((1, ⟨.recall target, some [Bytes.ofText confirm.encode]⟩) ::
    (relayCourse target root confirm.signer x
      [⟨.recall target, some [Bytes.ofText confirm.encode]⟩]).map fun e => (2, e))

/-- **There are such calls**: cancelled before they begin, one of them answers with confirms, and
the other one submits. -/
theorem exists_answered : ∃ (calls : Nat → StoreCall)
    (h : Interleaving fun n => (calls n).routine) (config : StoreConfig) (call : Store.QuorumCall)
    (setup : RelayerSetup) (confirm : Confirm) (submission : Submission),
    Store.CacheFaithful h.course ∧ calls 1 = .quorum config call ∧ 0 < call.valset.totalPower ∧
      Cancelled (ofCall 1 h.course) ∧
      Follows (call.routine config) (ofCall 1 h.course) (.ok [confirm]) ∧
      calls 2 = .relay setup ∧ Cancelled (ofCall 2 h.course) ∧
      (2, ⟨.submit submission, .ok 0⟩) ∈ h.course := by
  obtain ⟨target, root, confirm, hcommitment, hnonce, hdigest, hkind, hcheck, hverify⟩ :=
    Store.exists_confirm
  obtain ⟨x, hparse, -⟩ := verifyText_eq_ok_iff.mp hverify
  have hpower : 0 < (Store.soleValset confirm.signer).totalPower := by
    change (0 : UInt64) < saturatingAdd 0 1
    decide
  have hrecalled : Follows (Store.queryQuorum .standard target (Store.soleValset confirm.signer)
      1000) [⟨.recall target, some [Bytes.ofText confirm.encode]⟩] (.ok [confirm]) :=
    Store.queryQuorum_follows_recall hkind confirm.signer 1000
  have hrelays : Begins (relayNext ⟨.standard, .standard⟩)
      (relayCourse target root confirm.signer x
        [⟨.recall target, some [Bytes.ofText confirm.encode]⟩]) :=
    begins_relayCourse hcommitment hnonce hdigest
      (Store.queryQuorum_follows_recall hkind confirm.signer _) (orderSignatures_sole hparse)
  -- The three calls run one behind the other, the first of them to its end.
  let h : Interleaving fun n => (answeredCalls target confirm.signer n).routine := {
    course := answeredCourse target root confirm x
    begins := fun n => by
      match n with
      | 0 =>
        exact begins_bind_iff.mpr
          (Or.inl (Store.queryQuorum_follows_sole hkind hcheck hverify 1000).begins)
      | 1 => exact begins_bind_iff.mpr (Or.inl hrecalled.begins)
      | 2 => exact begins_bind_iff.mpr (Or.inl hrelays)
      | n + 3 => exact .nil _ }
  -- All that is recalled is what the first call remembered.
  have faithful : Store.CacheFaithful h.course := by
    refine cacheFaithful_append 0 target [Bytes.ofText confirm.encode] (by simp)
      (fun _ _ _ hmem => ?_) ?_
    · simp at hmem
    intro n target' records' hmem
    simp [relayCourse] at hmem
    rcases hmem with ⟨-, rfl, rfl⟩ | ⟨-, rfl, rfl⟩ <;> exact ⟨rfl, rfl⟩
  refine ⟨_, h, _, _, _, confirm, soleSubmission target.nonce root confirm.signer x, faithful, rfl,
    hpower, ?_, hrecalled, rfl, ?_, ?_⟩
  · -- Neither of the two later calls looks at its token.
    intro answer hmem
    have hmem := mem_ofCall.mp hmem
    simp [h, answeredCourse, relayCourse] at hmem
  · intro answer hmem
    have hmem := mem_ofCall.mp hmem
    simp [h, answeredCourse, relayCourse] at hmem
  · simp [h, answeredCourse, relayCourse]

/-- **A relayer that submits though it was cancelled** was answered by the cache. -/
theorem cancelled_iff_not_recalled_of_answered : ∃ (calls : Nat → StoreCall)
    (h : Interleaving fun n => (calls n).routine) (submission : Submission),
    Store.CacheFaithful h.course ∧ Cancelled (ofCall 2 h.course) ∧
      (2, ⟨.submit submission, .ok 0⟩) ∈ h.course ∧
      ∃ target records, (2, ⟨.recall target, some records⟩) ∈ h.course := by
  obtain ⟨calls, h, _, _, setup, _, submission, faithful, -, -, -, -, hcall, cancelled, hsubmit⟩ :=
    exists_answered
  have hrelay := (cancelled_iff_not_recalled h faithful 2 cancelled).2 setup hcall
  exact ⟨calls, h, submission, faithful, cancelled, hsubmit, hrelay.1 submission _ hsubmit⟩

/-- **A cancellation before the beginning is not always heeded**: a call for a quorum may succeed,
and a relayer may submit. -/
theorem not_always_cancelled :
    (¬ ∀ (calls : Nat → StoreCall) (h : Interleaving fun n => (calls n).routine),
      Store.CacheFaithful h.course → ∀ n, Cancelled (ofCall n h.course) →
      ∀ config call result, calls n = .quorum config call → 0 < call.valset.totalPower →
        Follows (call.routine config) (ofCall n h.course) result →
        result = .error .cancelled) ∧
    ¬ ∀ (calls : Nat → StoreCall) (h : Interleaving fun n => (calls n).routine),
      Store.CacheFaithful h.course → ∀ n, Cancelled (ofCall n h.course) →
      ∀ setup, calls n = .relay setup →
        ∀ submission answer, (n, ⟨.submit submission, answer⟩) ∉ h.course := by
  obtain ⟨calls, h, config, call, setup, confirm, submission, faithful, hquorum, power, cancelled₁,
    hresult, hrelay, cancelled₂, hsubmit⟩ := exists_answered
  constructor
  · intro claim
    cases claim calls h faithful 1 cancelled₁ config call _ hquorum power hresult
  · intro claim
    exact claim calls h faithful 2 cancelled₂ setup hrelay submission _ hsubmit

end Relayer

end Countersign
