import Countersign.Proofs.Orchestrator.Publishing
import Countersign.Proofs.Routine.Ignoring
import Countersign.Proofs.Store.Access

/-!
# What a run of an orchestrator writes

A run of `Orchestrator.process` writes at most two records: the valset before the nonce as the
latest one, and its own confirm for the attestation. This module says when it puts them, what it
leaves alone, and that the first of the two makes no difference to anything else
(`Orchestrator.framed`).

1. Every put of a run, also of one that fails or is dropped, is one of the two (`Orchestrator.Puts`,
   `Orchestrator.process_asks_put`). Before a confirm is put, a query has found none.
2. Replicas change under a key only if something is put there (`CausedBy.records_after`). What is
   put may reach any of them, whatever is answered.
3. A run that has put its confirm ends with it: as published, or with the failure of this very put
   (`Orchestrator.putsLast_process`). So any other end leaves all confirms as they were.
4. What comes of publishing the latest valset is thrown away
   (`Orchestrator.process_ignores_latest`).
-/

namespace Countersign

open Routine

/-! ### Records that a course puts -/

/-- A request that publishes a latest valset. These are the exchanges whose answers a run throws
away. -/
def Request.publishesLatest : Request → Bool
  | .put key _ _ => key == latestValsetKey
  | _ => false

/-- A request that puts nothing under keys of a sort. With `Conforms` this is a property of whole
routines, and `IsConfirmKey` is the sort of most use. -/
def Request.LeavesAlone (keys : String → Prop) (r : Request) : Prop :=
  ∀ key value limit, r = .put key value limit → ¬ keys key

/-- Whether a request is a put, under any key. -/
def Request.isPut : Request → Bool
  | .put _ _ _ => true
  | _ => false

/-- What is no put leaves all keys alone. -/
theorem Request.leavesAlone_of_isPut {r : Request} (h : r.isPut = false) (keys : String → Prop) :
    r.LeavesAlone keys := by
  rintro key value limit rfl
  cases h

/-- A request that puts a confirm is none that publishes a latest valset, as the key of the latest
valset is no confirm's. -/
theorem Request.publishesLatest_put_of_isConfirmKey {key : String} (hkey : IsConfirmKey key)
    (value : Bytes) (limit : Nat) : (Request.put key value limit).publishesLatest = false := by
  refine beq_eq_false_iff_ne.mpr fun heq => ?_
  subst heq
  exact not_isConfirmKey_latestValsetKey hkey

/-- A record that was put in a course, whatever was answered. A put that failed may still have
reached some of the replicas. -/
def PutIn (t : List Exchange) (key : String) (value : Bytes) : Prop :=
  ∃ limit answer, (⟨.put key value limit, answer⟩ : Exchange) ∈ t

/-- A routine that puts nothing under keys of a sort has none of them put in its courses. -/
theorem not_putIn_of_conforms {α : Type} {p : Routine α} {keys : String → Prop}
    (h : Conforms (Request.LeavesAlone keys) (fun _ => True) p) {t : List Exchange}
    (ht : Begins p t) {key : String} (hkey : keys key) (value : Bytes) : ¬ PutIn t key value := by
  rintro ⟨limit, answer, hmem⟩
  exact h.begins ht hmem key value limit rfl hkey

theorem putIn_append {t t' : List Exchange} {key : String} {value : Bytes} :
    PutIn (t ++ t') key value ↔ PutIn t key value ∨ PutIn t' key value := by
  constructor
  · rintro ⟨limit, answer, hmem⟩
    rcases List.mem_append.mp hmem with hmem | hmem
    · exact Or.inl ⟨limit, answer, hmem⟩
    · exact Or.inr ⟨limit, answer, hmem⟩
  · rintro (⟨limit, answer, hmem⟩ | ⟨limit, answer, hmem⟩)
    · exact ⟨limit, answer, List.mem_append_left _ hmem⟩
    · exact ⟨limit, answer, List.mem_append_right _ hmem⟩

/-- An exchange that is no put adds nothing to what was put. -/
theorem putIn_cons {e : Exchange} (he : ∀ key value limit, e.1 ≠ .put key value limit)
    {t : List Exchange} {key : String} {value : Bytes} :
    PutIn (e :: t) key value ↔ PutIn t key value := by
  constructor
  · rintro ⟨limit, answer, hmem⟩
    rcases List.mem_cons.mp hmem with heq | hmem
    · exact absurd (congrArg Sigma.fst heq).symm (he key value limit)
    · exact ⟨limit, answer, hmem⟩
  · rintro ⟨limit, answer, hmem⟩
    exact ⟨limit, answer, List.mem_cons_of_mem _ hmem⟩

theorem not_putIn_nil {key : String} {value : Bytes} : ¬ PutIn [] key value := by
  rintro ⟨_, _, ⟨⟩⟩

/-! ### What replicas keep -/

namespace Overlay

/-- The records of all replicas under a key, in their order. That they are the same afterwards is
what it means that a key is left alone. -/
def records (overlay : Overlay) (key : String) : List (Option Bytes) :=
  overlay.map (·.get? key)

/-- **Writes under other keys** change nothing under this one. The induction is on the writes, since
each of them may go to another replica. -/
theorem records_after {writes : List ReplicaWrite} {key : String}
    (h : ∀ w ∈ writes, w.key ≠ key) (overlay : Overlay) :
    (overlay.after writes).records key = overlay.records key := by
  induction writes generalizing overlay with
  | nil => rfl
  | cons w writes ih =>
    have hfirst : (overlay.write w).records key = overlay.records key := by
      refine List.ext_getElem? fun i => ?_
      rw [records, records, List.getElem?_map, List.getElem?_map, write, List.getElem?_modify]
      cases overlay[i]? with
      | none => rfl
      | some replica =>
        -- The replica that is written to keeps its record, too.
        have hkept := Replica.get?_putOne_of_ne (h w List.mem_cons_self).symm w.value replica
        simp only [Option.map_eq_map, Option.map_some]
        split
        · rw [hkept]
        · rfl
    have hafter : overlay.after (w :: writes) = (overlay.write w).after writes := rfl
    rw [hafter, ih (fun w' hw' => h w' (List.mem_cons_of_mem _ hw')), hfirst]

end Overlay

/-- Writes that a routine may cause along a course. What it puts may reach any of the replicas, any
number of times and in any order, whatever the put is answered, and also if the routine is dropped
before it is. -/
def CausedBy {α : Type} (p : Routine α) (t : List Exchange) (writes : List ReplicaWrite) : Prop :=
  ∀ w ∈ writes, ∃ before limit, before <+: t ∧ Asks p before (.put w.key w.value limit)

section CausedBy

variable {α : Type} {p : Routine α} {t : List Exchange} {writes : List ReplicaWrite}

/-- Nothing changes under a key where nothing is put. -/
theorem CausedBy.records_after (h : CausedBy p t writes) {key : String}
    (hkey : ∀ before value limit, before <+: t → ¬ Asks p before (.put key value limit))
    (overlay : Overlay) : (overlay.after writes).records key = overlay.records key := by
  refine Overlay.records_after (fun w hw heq => ?_) overlay
  obtain ⟨before, limit, hfront, hasks⟩ := h w hw
  rw [heq] at hasks
  exact hkey before w.value limit hfront hasks

/-- Without puts there are no writes. -/
theorem CausedBy.eq_nil (h : CausedBy p t writes)
    (hasks : ∀ before key value limit, before <+: t → ¬ Asks p before (.put key value limit)) :
    writes = [] := by
  refine List.eq_nil_iff_forall_not_mem.mpr fun w hw => ?_
  obtain ⟨before, limit, hfront, hput⟩ := h w hw
  exact hasks before w.key w.value limit hfront hput

/-- Along a whole course every put is answered, so what is asked for is among the exchanges. -/
theorem putIn_of_asks {a : α} (h : Follows p t a) {before : List Exchange} (hfront : before <+: t)
    {key : String} {value : Bytes} {limit : Nat} (hasks : Asks p before (.put key value limit)) :
    PutIn t key value := by
  obtain ⟨after, rfl⟩ := hfront
  obtain ⟨answer, rest, rfl⟩ := hasks.exists_answer h
  exact ⟨limit, answer, List.mem_append_right _ List.mem_cons_self⟩

end CausedBy

namespace Orchestrator

variable {setup : OrchestratorSetup} {nonce : UInt64} {attestation : Attestation} {prior : Valset}
  {digest : Word} {root : Option Word} {x : Vrs} {t t' : List Exchange} {key : String}
  {value : Bytes} {limit : Nat} {outcome : Except OrchestratorError ProcessOutcome}

/-! ### What is put -/

/-- A query for the own confirm that found nothing, as a part of a course. Which part it is does not
matter. -/
def FoundNothing (setup : OrchestratorSetup) (nonce : UInt64) (kind : AttestationKind)
    (t : List Exchange) : Prop :=
  ∃ before asked after, t = before ++ (asked ++ after) ∧
    Follows (Store.queryOne setup.store kind nonce setup.address) asked (.ok none)

/-- **What is behind a run that puts its confirm**: the query for it, what it was told of the
attestation, its signature, and no other put under the confirm's key. -/
structure ReadyToConfirm (setup : OrchestratorSetup) (nonce : UInt64) (attestation : Attestation)
    (t : List Exchange) (digest : Word) (root : Option Word) (x : Vrs) : Prop where
  nothing : FoundNothing setup nonce attestation.kind t
  told : DigestTold nonce t attestation digest root
  signed : ⟨.sign digest, .ok x⟩ ∈ t
  first : ∀ value, ¬ PutIn t (Store.confirmKey attestation.kind nonce setup.address) value

/-- It holds behind anything that puts no confirm. -/
theorem ReadyToConfirm.behind (h : ReadyToConfirm setup nonce attestation t digest root x)
    (before : List Exchange) (hbefore : ∀ key value, IsConfirmKey key → ¬ PutIn before key value) :
    ReadyToConfirm setup nonce attestation (before ++ t) digest root x where
  nothing := by
    obtain ⟨earlier, asked, after, rfl, hfollows⟩ := h.nothing
    exact ⟨before ++ earlier, asked, after, (List.append_assoc ..).symm, hfollows⟩
  told := h.told.mono (List.subset_append_right _ _)
  signed := List.mem_append_right _ h.signed
  first value hput := by
    rcases putIn_append.mp hput with hput | hput
    · exact hbefore _ value (Store.isConfirmKey_confirmKey _ _ _) hput
    · exact h.first value hput

/-- **What a run puts** next, once it was told the attestation and the valset before it. There is a
constructor for each of the two records, with what is known where it is put. -/
inductive Puts (setup : OrchestratorSetup) (nonce : UInt64) (attestation : Attestation)
    (prior : Valset) (t : List Exchange) : String → Bytes → Prop where
  | latest {text : String} (written : prior.encode? = some text)
      (first : ∀ key value, ¬ PutIn t key value) :
      Puts setup nonce attestation prior t latestValsetKey (Bytes.ofText text)
  | confirm {digest : Word} {root : Option Word} {x : Vrs}
      (ready : ReadyToConfirm setup nonce attestation t digest root x) :
      Puts setup nonce attestation prior t
        (Store.confirmKey attestation.kind nonce setup.address)
        (Bytes.ofText (confirmOf setup.address x root).encode)

/-- Queries put nothing, under whatever keys. -/
theorem conforms_queryOne_leavesAlone (keys : String → Prop) (kind : AttestationKind) :
    Conforms (Request.LeavesAlone keys) (fun _ => True)
      (Store.queryOne setup.store kind nonce setup.address) :=
  Store.conforms_queryOne (Request.leavesAlone_of_isPut rfl keys)

/-- Publishing the latest valset puts no confirm. -/
theorem conforms_putLatestValset_leavesAlone (config : StoreConfig) (valset : Valset) :
    Conforms (Request.LeavesAlone IsConfirmKey) (fun _ => True)
      (Store.putLatestValset config valset) := by
  refine Store.conforms_putLatestValset valset fun value key value' limit heq hkey => ?_
  cases heq
  exact not_isConfirmKey_latestValsetKey hkey

/-- Putting a record asks for one put, and asks for it first. -/
theorem putRecord_asks_put {config : StoreConfig} {key' : String} {value' : Bytes}
    (h : Asks (Store.putRecord config key' value') t (.put key value limit)) :
    t = [] ∧ key = key' ∧ value = value' := by
  unfold Store.putRecord at h
  split at h
  · exact absurd h not_asks_done
  rcases asks_perform_bind_iff.mp h with ⟨rfl, heq⟩ | ⟨answer, rest, rfl, h₁⟩
  · cases heq
    exact ⟨rfl, rfl, rfl⟩
  · cases answer <;> exact absurd h₁ not_asks_done

/-- Publishing a valset puts its encoding under the one key that there is for it. A valset that
cannot be encoded is not put. -/
theorem putLatestValset_asks_put {config : StoreConfig}
    (h : Asks (Store.putLatestValset config prior) t (.put key value limit)) :
    t = [] ∧ key = latestValsetKey ∧
      ∃ text, prior.encode? = some text ∧ value = Bytes.ofText text := by
  unfold Store.putLatestValset at h
  split at h
  · exact absurd h not_asks_done
  next text hwritten =>
    obtain ⟨rfl, rfl, rfl⟩ := putRecord_asks_put h
    exact ⟨rfl, rfl, text, hwritten, rfl⟩

/-- **Publishing a confirm** puts it right behind the signature, and puts nothing else. -/
theorem publish_asks_put
    (h : Asks (publish setup nonce digest root) t (.put key value limit)) :
    ∃ x, t = [⟨.sign digest, .ok x⟩] ∧
      key = Store.confirmKey (confirmOf setup.address x root).kind nonce setup.address ∧
      value = Bytes.ofText (confirmOf setup.address x root).encode := by
  rw [publish] at h
  rcases asks_perform_bind_iff.mp h with ⟨-, ⟨⟩⟩ | ⟨answer, rest, rfl, h₁⟩
  cases answer with
  | error e => exact absurd h₁ not_asks_done
  | ok x =>
    rcases asks_bind_iff.mp h₁ with hput | ⟨result, t₁, t₂, -, -, h₂⟩
    · rw [Store.putConfirm, signer_confirmOf] at hput
      obtain ⟨rfl, rfl, rfl⟩ := putRecord_asks_put hput
      exact ⟨x, rfl, rfl, rfl⟩
    · -- Behind the put there is only a note.
      cases result with
      | error e => exact absurd h₂ not_asks_done
      | ok u =>
        rcases asks_perform_bind_iff.mp h₂ with ⟨-, ⟨⟩⟩ | ⟨_, _, _, h₃⟩
        exact absurd h₃ not_asks_done

/-- Publishing puts the own confirm for what was told, if nothing was put before. -/
theorem puts_of_publish (hnothing : ∀ after, FoundNothing setup nonce attestation.kind (t ++ after))
    (htold : DigestTold nonce t attestation digest root) (hquiet : ∀ key value, ¬ PutIn t key value)
    (h : Asks (publish setup nonce digest root) t' (.put key value limit)) :
    ∃ digest root x, key = Store.confirmKey attestation.kind nonce setup.address ∧
      value = Bytes.ofText (confirmOf setup.address x root).encode ∧
      ReadyToConfirm setup nonce attestation (t ++ t') digest root x := by
  obtain ⟨x, rfl, rfl, rfl⟩ := publish_asks_put h
  rw [htold.kind_confirmOf setup.address x]
  refine ⟨digest, root, x, rfl, rfl, hnothing _, htold.mono (List.subset_append_left _ _),
    List.mem_append_right _ List.mem_cons_self, fun value hput => ?_⟩
  rcases putIn_append.mp hput with hput | hput
  · exact hquiet _ value hput
  · exact not_putIn_nil ((putIn_cons (by simp)).mp hput)

/-- **Signing puts one record**: the own confirm, when a query has found nothing. -/
theorem signUnlessStored_asks_put
    (h : Asks (signUnlessStored setup nonce attestation) t (.put key value limit)) :
    ∃ digest root x, key = Store.confirmKey attestation.kind nonce setup.address ∧
      value = Bytes.ofText (confirmOf setup.address x root).encode ∧
      ReadyToConfirm setup nonce attestation t digest root x := by
  unfold signUnlessStored at h
  -- The query puts nothing, so the put is behind it, and only if it has found nothing.
  rcases asks_bind_iff.mp h with hquery | ⟨stored, asked, rest, rfl, hquery, h₁⟩
  · have hnone := (conforms_queryOne_leavesAlone (fun _ => True) _).asks hquery
    exact absurd trivial (hnone key value limit rfl)
  have hquiet : ∀ key value, ¬ PutIn asked key value := fun key value =>
    not_putIn_of_conforms (conforms_queryOne_leavesAlone (fun _ => True) _) hquery.begins
      trivial value
  rcases stored with e | _ | confirm
  · exact absurd h₁ not_asks_done
  · have hnothing : ∀ after, FoundNothing setup nonce attestation.kind (asked ++ after) :=
      fun after => ⟨[], asked, after, rfl, hquery⟩
    cases attestation with
    | valset v => exact puts_of_publish hnothing (.valset v) hquiet h₁
    | dataCommitment c =>
      rcases (asks_perform_bind_iff (r := .source _)).mp h₁ with ⟨-, ⟨⟩⟩ | ⟨answer, rest, rfl, h₂⟩
      cases answer with
      | error e => exact absurd h₂ not_asks_done
      | ok root =>
        -- The root belongs to what was told before the digest is signed.
        rw [List.append_cons]
        refine puts_of_publish (fun after => ?_) (.dataCommitment c ?_)
          (fun key value hput => ?_) h₂
        · rw [List.append_assoc]
          exact hnothing _
        · exact List.mem_append_right _ List.mem_cons_self
        · rcases putIn_append.mp hput with hput | hput
          · exact hquiet _ _ hput
          · exact not_putIn_nil ((putIn_cons (by simp)).mp hput)
  · -- A confirm was found, so this run skips.
    rcases asks_perform_bind_iff.mp h₁ with ⟨-, ⟨⟩⟩ | ⟨_, _, _, h₂⟩
    exact absurd h₂ not_asks_done

/-- Skipping puts nothing; it is noted only. -/
theorem skip_asks_put {reason : SkipReason} : ¬ Asks (skip reason) t (.put key value limit) := by
  rw [skip, asks_perform_bind_iff]
  rintro (⟨-, ⟨⟩⟩ | ⟨_, _, _, h⟩)
  exact not_asks_done h

/-- **Everything that a run puts**: after the first nonce, once it was told that its address is a
member. The routine is followed from its beginning, and each of its early ends puts nothing. -/
theorem process_asks_put (h : Asks (process setup nonce) t (.put key value limit)) :
    nonce ≠ bootstrapNonce ∧ ∃ attestation prior, ToldFirst nonce attestation prior t ∧
      prior.contains setup.address = true ∧ Puts setup nonce attestation prior t key value := by
  rw [process] at h
  rcases (asks_perform_bind_iff (r := .source _)).mp h with ⟨-, ⟨⟩⟩ | ⟨answer, rest, rfl, h₁⟩
  -- Without an attestation, or at the first nonce, a run ends before any put.
  rcases answer with e | _ | attestation
  · exact absurd h₁ not_asks_done
  · exact absurd h₁ not_asks_done
  dsimp only at h₁
  split at h₁
  · exact absurd h₁ skip_asks_put
  next hfirst =>
  -- Both questions to the source come before anything is put.
  rcases (asks_perform_bind_iff (r := .source _)).mp h₁ with ⟨-, ⟨⟩⟩ | ⟨answer, rest, rfl, h₂⟩
  cases answer with
  | error e => exact absurd h₂ not_asks_done
  | ok prior =>
    dsimp only at h₂
    cases hmember : prior.contains setup.address with
    | false =>
      rw [hmember] at h₂
      exact absurd h₂ skip_asks_put
    | true =>
      rw [hmember] at h₂
      refine ⟨hfirst, attestation, prior, ⟨_, rfl⟩, hmember, ?_⟩
      -- The put is that of the latest valset, or it comes when this is over, however it ended.
      rcases asks_bind_iff.mp h₂ with hput | ⟨result, latest, signing, rfl, hlatest, h₃⟩
      · obtain ⟨rfl, rfl, text, hwritten, rfl⟩ := putLatestValset_asks_put hput
        refine .latest hwritten fun key value hput => ?_
        exact not_putIn_nil ((putIn_cons (by simp)).mp ((putIn_cons (by simp)).mp hput))
      · obtain ⟨digest, root, x, rfl, rfl, hready⟩ := signUnlessStored_asks_put h₃
        refine .confirm (hready.behind (_ :: _ :: latest) fun key value hkey hput => ?_)
        have hlate := (putIn_cons (by simp)).mp ((putIn_cons (by simp)).mp hput)
        exact not_putIn_of_conforms (conforms_putLatestValset_leavesAlone _ _) hlatest.begins hkey
          value hlate

/-! ### What ends with a confirm -/

/-- **How a course ends in which a confirm was put**: as published, or with the failure of this put,
behind which there is nothing. -/
inductive EndsWithPut : List Exchange → Except OrchestratorError ProcessOutcome → Prop where
  | published (t : List Exchange) (kind : AttestationKind) :
      EndsWithPut t (.ok (.published kind))
  | failed (before : List Exchange) {key : String} (hkey : IsConfirmKey key) (value : Bytes)
      (limit : Nat) (e : OverlayError) :
      EndsWithPut (before ++ [⟨.put key value limit, .error e⟩]) (.error (.store (.overlay e)))

theorem EndsWithPut.behind (h : EndsWithPut t outcome) (before : List Exchange) :
    EndsWithPut (before ++ t) outcome := by
  cases h with
  | published _ kind => exact .published _ kind
  | failed earlier hkey value limit e =>
    rw [← List.append_assoc]
    exact .failed _ hkey value limit e

/-- A routine with which a confirm is put last. The lemmas below follow the parts of `process` from
the end to the beginning. -/
def PutsLast (p : Routine (Except OrchestratorError ProcessOutcome)) : Prop :=
  ∀ {t outcome}, Follows p t outcome → ∀ {key value}, IsConfirmKey key → PutIn t key value →
    EndsWithPut t outcome

/-- A routine that puts no confirm has nothing to show. -/
theorem putsLast_of_conforms {p : Routine (Except OrchestratorError ProcessOutcome)}
    (h : Conforms (Request.LeavesAlone IsConfirmKey) (fun _ => True) p) : PutsLast p :=
  fun hfollows _ value hkey hput => absurd hput (not_putIn_of_conforms h hfollows.begins hkey value)

/-- What puts no confirm may come first. -/
theorem putsLast_bind {α : Type} {p : Routine α}
    {f : α → Routine (Except OrchestratorError ProcessOutcome)}
    (h : Conforms (Request.LeavesAlone IsConfirmKey) (fun _ => True) p)
    (hf : ∀ a, PutsLast (f a)) : PutsLast (p >>= f) := by
  intro t outcome hfollows key value hkey hput
  -- The confirm was put in the second part.
  obtain ⟨a, t₁, t₂, rfl, h₁, h₂⟩ := follows_bind_iff.mp hfollows
  rcases putIn_append.mp hput with hput | hput
  · exact absurd hput (not_putIn_of_conforms h h₁.begins hkey value)
  · exact (hf a h₂ hkey hput).behind t₁

theorem putsLast_done (a : Except OrchestratorError ProcessOutcome) : PutsLast (.done a) :=
  putsLast_of_conforms (conforms_done.mpr trivial)

/-- A request that is no put may come first. -/
theorem putsLast_perform_bind {r : Request}
    {f : r.Answer → Routine (Except OrchestratorError ProcessOutcome)}
    (hr : r.isPut = false) (hf : ∀ answer, PutsLast (f answer)) : PutsLast (r.perform >>= f) :=
  putsLast_bind (conforms_perform.mpr ⟨Request.leavesAlone_of_isPut hr _, fun _ => trivial⟩) hf

/-- Publishing ends with its put, or with the note that it succeeded. -/
theorem putsLast_publish (setup : OrchestratorSetup) (nonce : UInt64) (digest : Word)
    (root : Option Word) : PutsLast (publish setup nonce digest root) := by
  rw [publish]
  refine putsLast_perform_bind (r := .sign digest) rfl fun answer => ?_
  cases answer with
  | error e => exact putsLast_done _
  | ok x =>
    intro t outcome hfollows key value hkey hput
    obtain ⟨result, t₁, t₂, rfl, hrecord, h₂⟩ := follows_bind_iff.mp hfollows
    cases result with
    -- The put succeeded, and there is only the note behind it.
    | ok u =>
      obtain ⟨_, _, -, h₃⟩ := follows_perform_bind_iff.mp h₂
      obtain ⟨-, rfl⟩ := follows_done_iff.mp h₃
      exact .published _ _
    | error e =>
      obtain ⟨rfl, rfl⟩ := follows_done_iff.mp h₂
      rw [List.append_nil] at hput ⊢
      -- The put was answered with the failure, or not made at all.
      rw [Store.putConfirm, Store.putRecord] at hrecord
      split at hrecord
      · obtain ⟨rfl, -⟩ := follows_done_iff.mp hrecord
        exact absurd hput not_putIn_nil
      · obtain ⟨answer, rest, rfl, h₁⟩ := follows_perform_bind_iff.mp hrecord
        cases answer with
        | ok u => obtain ⟨-, ⟨⟩⟩ := follows_done_iff.mp h₁
        -- The one put of a confirm is the last exchange.
        | error failure =>
          obtain ⟨rfl, heq⟩ := follows_done_iff.mp h₁
          cases heq
          exact .failed [] (Store.isConfirmKey_confirmKey _ _ _) _ _ failure

theorem putsLast_skip (reason : SkipReason) : PutsLast (skip reason) :=
  putsLast_perform_bind (r := .note (.skipped reason)) rfl fun _ => putsLast_done _

theorem putsLast_signUnlessStored (setup : OrchestratorSetup) (nonce : UInt64)
    (attestation : Attestation) : PutsLast (signUnlessStored setup nonce attestation) := by
  unfold signUnlessStored
  refine putsLast_bind (conforms_queryOne_leavesAlone _ _) fun stored => ?_
  rcases stored with e | _ | confirm
  · exact putsLast_done _
  · cases attestation with
    | valset v => exact putsLast_publish _ _ _ _
    | dataCommitment c =>
      refine putsLast_perform_bind (r := .source _) rfl fun answer => ?_
      cases answer with
      | error e => exact putsLast_done _
      | ok root => exact putsLast_publish _ _ _ _
  · exact putsLast_skip .alreadySigned

/-- **A run that has put its confirm** ends with that. What comes before, the latest valset
included, puts no confirm. -/
theorem putsLast_process (setup : OrchestratorSetup) (nonce : UInt64) :
    PutsLast (process setup nonce) := by
  rw [process]
  refine putsLast_perform_bind (r := .source _) rfl fun answer => ?_
  rcases answer with e | _ | attestation
  · exact putsLast_done _
  · exact putsLast_done _
  dsimp only
  split
  · exact putsLast_skip .bootstrap
  refine putsLast_perform_bind (r := .source _) rfl fun answer => ?_
  cases answer with
  | error e => exact putsLast_done _
  | ok prior =>
    dsimp only
    split
    · exact putsLast_skip .notSigner
    · exact putsLast_bind (conforms_putLatestValset_leavesAlone _ _)
        fun _ => putsLast_signUnlessStored _ _ _

/-! ### What publishing the latest valset comes to -/

/-- The latest valset is put once at most, so that there is one answer to throw away. -/
theorem asksOnce_putLatestValset (config : StoreConfig) (valset : Valset) :
    AsksOnce (Store.putLatestValset config valset) := by
  unfold Store.putLatestValset
  split
  · exact nofun
  unfold Store.putRecord
  split
  · exact nofun
  · rintro r next ⟨⟩ answer
    cases answer <;> exact ⟨_, rfl⟩

/-- Publishing a confirm publishes no latest valset. -/
theorem conforms_publish_not_latest (setup : OrchestratorSetup) (nonce : UInt64) (digest : Word)
    (root : Option Word) :
    Conforms (fun r => r.publishesLatest = false) (fun _ => True)
      (publish setup nonce digest root) := by
  rw [publish]
  refine conforms_perform_bind.mpr ⟨rfl, fun answer => ?_⟩
  cases answer with
  | error e => trivial
  | ok x =>
    refine Conforms.bind (Store.conforms_putRecord ?_) fun result _ => ?_
    · exact Request.publishesLatest_put_of_isConfirmKey (Store.isConfirmKey_confirmKey _ _ _) _ _
    · cases result with
      | error e => trivial
      | ok u => exact conforms_perform_bind.mpr ⟨rfl, fun _ => trivial⟩

/-- Signing publishes no latest valset either. -/
theorem conforms_signUnlessStored_not_latest (setup : OrchestratorSetup) (nonce : UInt64)
    (attestation : Attestation) :
    Conforms (fun r => r.publishesLatest = false) (fun _ => True)
      (signUnlessStored setup nonce attestation) := by
  unfold signUnlessStored
  refine Conforms.bind (Store.conforms_queryOne rfl) fun stored _ => ?_
  rcases stored with e | _ | confirm
  · trivial
  · cases attestation with
    | valset v => exact conforms_publish_not_latest _ _ _ _
    | dataCommitment c =>
      refine (conforms_perform_bind (r := .source _)).mpr ⟨rfl, fun answer => ?_⟩
      cases answer with
      | error e => trivial
      | ok root => exact conforms_publish_not_latest _ _ _ _
  · exact conforms_perform_bind.mpr ⟨rfl, fun _ => trivial⟩

/-- **A run ignores what comes of publishing the latest valset.** In `process` its result is bound
and never looked at. -/
theorem process_ignores_latest (setup : OrchestratorSetup) (nonce : UInt64) :
    Ignores Request.publishesLatest (process setup nonce) := by
  have hskip : ∀ reason, Ignores Request.publishesLatest (skip reason) := fun reason =>
    ignores_perform_bind rfl fun _ => trivial
  rw [process]
  refine ignores_perform_bind (r := .source _) rfl fun answer => ?_
  rcases answer with e | _ | attestation
  · trivial
  · trivial
  dsimp only
  split
  · exact hskip .bootstrap
  refine ignores_perform_bind (r := .source _) rfl fun answer => ?_
  cases answer with
  | error e => trivial
  | ok prior =>
    dsimp only
    split
    · exact hskip .notSigner
    · -- The put is made once, and the rest does not make it again.
      exact ignores_bind_of_asksOnce (asksOnce_putLatestValset _ _)
        (conforms_signUnlessStored_not_latest _ _ _).ignores

/-- What is put of confirms is not among the ignored exchanges. -/
theorem putIn_others {t : List Exchange} (hkey : IsConfirmKey key) :
    PutIn (others Request.publishesLatest t) key value ↔ PutIn t key value := by
  have hother : ∀ limit, (!(Request.put key value limit).publishesLatest) = true := fun limit => by
    rw [Request.publishesLatest_put_of_isConfirmKey hkey, Bool.not_false]
  constructor
  · rintro ⟨limit, answer, hmem⟩
    exact ⟨limit, answer, (List.mem_filter.mp hmem).1⟩
  · rintro ⟨limit, answer, hmem⟩
    exact ⟨limit, answer, List.mem_filter.mpr ⟨hmem, hother limit⟩⟩

/-! ### All of it -/

/-- **There is nothing to sign**, as far as a run was told: it is the first nonce, the source has no
such attestation, or the address is no member. -/
inductive NothingToSign (setup : OrchestratorSetup) (nonce : UInt64) (t : List Exchange) :
    Prop where
  | bootstrap (first : nonce = bootstrapNonce)
  | missing {rest : List Exchange} (told : t = ⟨.source (.attestation nonce), .ok none⟩ :: rest)
  | notSigner {attestation : Attestation} {prior : Valset}
      (told : ToldFirst nonce attestation prior t)
      (noMember : prior.contains setup.address = false)

theorem ToldFirst.mono (h : ToldFirst nonce attestation prior t) (hfront : t <+: t') :
    ToldFirst nonce attestation prior t' := by
  obtain ⟨rest, rfl⟩ := h
  obtain ⟨more, rfl⟩ := hfront
  exact ⟨rest ++ more, rfl⟩

/-- **With nothing to sign, nothing is put**, neither the confirm nor the latest valset. -/
theorem NothingToSign.not_asks_put (h : NothingToSign setup nonce t') (hfront : t <+: t') :
    ¬ Asks (process setup nonce) t (.put key value limit) := by
  intro hasks
  obtain ⟨hfirst, attestation, prior, htold, hmember, -⟩ := process_asks_put hasks
  -- A run that puts something was told, so the whole course says the same of what was told.
  obtain ⟨rest, htold⟩ := htold.mono hfront
  cases h with
  | bootstrap first => exact hfirst first
  | missing told =>
    rw [told] at htold
    cases htold
  | notSigner told noMember =>
    obtain ⟨rest', told⟩ := told
    rw [told] at htold
    cases htold
    rw [hmember] at noMember
    cases noMember

/-- **An own confirm that may be put**: nothing was found under its key, and its signature is one of
the digest that was told. -/
structure Confirms (setup : OrchestratorSetup) (nonce : UInt64) (attestation : Attestation)
    (t : List Exchange) (confirm : Confirm) : Prop where
  kind : confirm.kind = attestation.kind
  signer : confirm.signer = setup.address
  nothing : FoundNothing setup nonce attestation.kind t
  verifies : ∃ digest root, DigestTold nonce t attestation digest root ∧
    verifyText digest confirm.signature setup.address = .ok ()

/-- **How a run ends early**: it skips, or it fails with something else than the put of a confirm.
In the second case the put, if there was one, was that of the latest valset. -/
inductive EndsEarly (t : List Exchange) : Except OrchestratorError ProcessOutcome → Prop where
  | skipped (reason : SkipReason) : EndsEarly t (.ok (.skipped reason))
  | failed (e : OrchestratorError)
      (early : ∀ before key value limit answer, t = before ++ [⟨.put key value limit, answer⟩] →
        ¬ IsConfirmKey key) : EndsEarly t (.error e)

/-- **What a run of an orchestrator writes.** Its puts are given by what it asks, and thus also
known of a run that fails or is dropped; what replicas hold afterwards, and what was answered, may
be anything. -/
structure Framed (setup : OrchestratorSetup) (nonce : UInt64) : Prop where
  /-- Only the valset before the nonce and the own confirm are put, and each of them once. -/
  puts : ∀ {t key value limit}, Asks (process setup nonce) t (.put key value limit) →
    nonce ≠ bootstrapNonce ∧ ∃ attestation prior, ToldFirst nonce attestation prior t ∧
      prior.contains setup.address = true ∧ Puts setup nonce attestation prior t key value
  /-- Under all other keys, replicas keep what they hold. -/
  frame : ∀ {t writes key}, CausedBy (process setup nonce) t writes → key ≠ latestValsetKey →
    (∀ attestation prior, ToldFirst nonce attestation prior t →
      key ≠ Store.confirmKey attestation.kind nonce setup.address) →
    ∀ overlay : Overlay, (overlay.after writes).records key = overlay.records key
  /-- Nothing is written when there is nothing to sign. -/
  silent : ∀ {t writes}, CausedBy (process setup nonce) t writes → NothingToSign setup nonce t →
    writes = []
  /-- A confirm is put for the attestation that was told, if no confirm was found. -/
  confirms : ∀ {t key value limit} {identity : Identity},
    Asks (process setup nonce) t (.put key value limit) → IsConfirmKey key →
    identity.address = setup.address → SignedBy identity t →
    ∃ attestation prior confirm, ToldFirst nonce attestation prior t ∧
      value = Bytes.ofText confirm.encode ∧ Confirms setup nonce attestation t confirm
  /-- A run that skips, or fails early, leaves all confirms as they are. -/
  unchanged : ∀ {t writes outcome}, Follows (process setup nonce) t outcome →
    CausedBy (process setup nonce) t writes → EndsEarly t outcome →
    ∀ key, IsConfirmKey key → ∀ overlay : Overlay,
      (overlay.after writes).records key = overlay.records key
  /-- Runs in which all is answered alike, except for publishing the latest valset, have the same
  outcome and put the same confirms. -/
  indifferent : ∀ {t t' outcome outcome' answers}, Follows (process setup nonce) t outcome →
    AnsweredBy Request.publishesLatest answers t → Follows (process setup nonce) t' outcome' →
    AnsweredBy Request.publishesLatest answers t' →
    outcome' = outcome ∧ ∀ key value, IsConfirmKey key → (PutIn t' key value ↔ PutIn t key value)
  /-- Publishing the latest valset may be answered in any other way. -/
  replaced : ∀ {before after value limit answer outcome},
    Follows (process setup nonce)
      (before ++ ⟨.put latestValsetKey value limit, answer⟩ :: after) outcome →
    ∀ answer', Follows (process setup nonce)
      (before ++ ⟨.put latestValsetKey value limit, answer'⟩ :: after) outcome

/-- **A run of an orchestrator** writes its own confirm and the valset before, and nothing else. -/
theorem framed (setup : OrchestratorSetup) (nonce : UInt64) : Framed setup nonce where
  puts := process_asks_put
  frame {t writes key} hwrites hlatest hother overlay := by
    refine hwrites.records_after (fun before value limit hfront hasks => ?_) overlay
    obtain ⟨-, attestation, prior, htold, -, hputs⟩ := process_asks_put hasks
    cases hputs with
    | latest written first => exact hlatest rfl
    | confirm ready => exact hother attestation prior (htold.mono hfront) rfl
  silent hwrites hnothing :=
    hwrites.eq_nil fun _ _ _ _ hfront => hnothing.not_asks_put hfront
  -- The digest that was signed is the one that was told, so the signature verifies.
  confirms {t key value limit identity} hasks hkey haddress hsigned := by
    obtain ⟨-, attestation, prior, htold, -, hputs⟩ := process_asks_put hasks
    cases hputs with
    | latest written first => exact absurd hkey not_isConfirmKey_latestValsetKey
    | @confirm digest root x ready =>
      refine ⟨attestation, prior, confirmOf setup.address x root, htold, rfl,
        ready.told.kind_confirmOf setup.address x, signer_confirmOf, ready.nothing, digest, root,
        ready.told, ?_⟩
      obtain ⟨hsign, hrecovers⟩ := hsigned digest (.ok x) ready.signed
      rw [signature_confirmOf, ← haddress]
      exact Identity.verifyText_of_sign hsign.symm hrecovers
  unchanged {t writes outcome} hfollows hwrites hearly key hkey overlay := by
    refine hwrites.records_after (fun before value limit hfront hasks => ?_) overlay
    -- With a confirm put, the course would end as published, or with the failure of this put.
    have hends := putsLast_process setup nonce hfollows hkey (putIn_of_asks hfollows hfront hasks)
    cases hearly with
    | skipped reason => cases hends
    | failed e early =>
      cases hends with
      | failed before hkey' value' limit' e => exact early _ _ _ _ _ rfl hkey'
  -- Two runs that differ in the answers to the ignored put are the same elsewhere.
  indifferent hfollows hanswers hfollows' hanswers' := by
    obtain ⟨houtcome, hothers⟩ := (process_ignores_latest setup nonce).unique hfollows hanswers
      hfollows' hanswers'
    refine ⟨houtcome, fun key value hkey => ?_⟩
    rw [← putIn_others hkey, hothers, putIn_others hkey]
  replaced hfollows :=
    (process_ignores_latest setup nonce).replace (beq_self_eq_true latestValsetKey) hfollows

/-- **The smallest key** signs the first commitment: its confirm is put, and verifies. -/
theorem framed_smallestKey :
    ∃ (setup : OrchestratorSetup) (t : List Exchange) (key : String) (value : Bytes) (limit : Nat)
      (attestation : Attestation) (confirm : Confirm),
      Asks (process setup 2) t (.put key value limit) ∧ IsConfirmKey key ∧
        value = Bytes.ofText confirm.encode ∧ Confirms setup 2 attestation t confirm := by
  obtain ⟨x, hsign⟩ := Identity.exists_sign_smallestKey
  have hrecovers := Identity.recovers_smallestKey
  -- Nothing else about the key and its signature is used, so nothing of it is computed.
  generalize Identity.ofKey Ecdsa.smallestKey = identity at hsign hrecovers
  let setup : OrchestratorSetup := ⟨identity.address, .standard, .standard, .standard⟩
  -- A run that publishes is known; it is cut where its confirm is put.
  obtain ⟨events, hsigned, -, hfollows, -⟩ :=
    exists_events_published setup rfl (by decide) ⟨2, 1, 2⟩ hsign hrecovers
  generalize AttestationKind.dataCommitment = kind at hfollows
  cases process_follows_ok hfollows with
  | settled told member settled =>
  cases settled with
  | published puts =>
  obtain ⟨before, after, hsplit⟩ := List.append_of_mem puts.put
  have hasks := (hsplit ▸ hfollows.begins).asks
  have hbefore : SignedBy identity before := fun digest answer hmem =>
    hsigned digest answer (hsplit ▸ List.mem_append_left _ hmem)
  obtain ⟨attestation, prior, confirm, -, hvalue, hconfirms⟩ :=
    (framed setup 2).confirms hasks (Store.isConfirmKey_confirmKey _ _ _) rfl hbefore
  exact ⟨setup, before, _, _, _, attestation, confirm, hasks, Store.isConfirmKey_confirmKey _ _ _,
    hvalue, hconfirms⟩

end Orchestrator

end Countersign
