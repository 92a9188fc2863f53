import Countersign.Proofs.Relayer.Questions
import Countersign.Proofs.Routine.Promises
import Countersign.Proofs.Store.Polling

/-!
# When a call tells of the cancellation

A relayer stops for good once a call ends with the store's `cancelled`. So this error must not come
of anything but the cancellation. It comes from one place, the polls for a quorum
(`Store.promises_poll`): a poll that finds the task cancelled, or a pause between two polls that the
cancellation ends. That the polls themselves are not used up before the deadline rests on the time
that goes on between them (`Store.Advances`), of which each takes an interval at least.

From there the error is passed on unchanged, and no other part of a call gives it
(`Relayer.promises_relayNext`). A call does not note its own failure either: that is left to the
turn of which it is a part.
-/

namespace Countersign

open Routine

variable {cancelAt : Option Nat} {timing : Timing} {now later : Nat}

/-- The task is cancelled by a time, its own moment included. A task that is never cancelled is
cancelled by no time. -/
def CancelledBy (cancelAt : Option Nat) (time : Nat) : Prop :=
  ∃ c ∈ cancelAt, c ≤ time

/-- Once cancelled, a task stays so. -/
theorem CancelledBy.mono (h : CancelledBy cancelAt now) (hle : now ≤ later) :
    CancelledBy cancelAt later := by
  obtain ⟨c, mem, hc⟩ := h
  exact ⟨c, mem, Nat.le_trans hc hle⟩

/-- A result that tells of the cancellation by an error comes after it. Of all other results nothing
is said. -/
def TellsTruly {ε α : Type} (cancelAt : Option Nat) (cancelled : ε) (result : Except ε α)
    (time : Nat) : Prop :=
  result = .error cancelled → CancelledBy cancelAt time

/-- The request that notes a failed call, by which it can be seen from outside that a call
failed. -/
def isFailureNote : Request → Bool
  | .note .relayFailed => true
  | _ => false

/-- A request that does not note a failed call. Calls make such requests only, so the note that a
turn makes is its own. -/
def NotesNoFailure (r : Request) : Prop := isFailureNote r = false

/-! ### Waiting for a quorum -/

namespace Store

variable {config : StoreConfig} {target : QuorumTarget} {valset : Valset} {deadline : Nat}

/-- Time goes on from poll to poll: there is a pause between two of them, or reading takes time.
With neither, polls could be used up at one moment, and what comes then is told as a
cancellation. -/
def Advances (timing : Timing) (config : StoreConfig) : Prop :=
  0 < config.pollInterval ∨ ∀ time keys limit answers later,
    timing time ⟨.getAll keys limit, answers⟩ later → time < later

/-- Settings that are in order have such a pause, so no assumption on the reading is needed for
them. -/
theorem Advances.of_check (h : config.check = .ok ()) : Advances timing config := by
  refine Or.inl (Nat.pos_of_ne_zero fun hzero => ?_)
  rw [StoreConfig.check, if_pos hzero] at h
  split at h <;> cases h

/-- **Polls are not used up** before the deadline, so polling gives `cancelled` only once the task
is. -/
theorem promises_poll (keeps : KeepsTime cancelAt timing) (advances : Advances timing config)
    {polls started : Nat} {known : Collection target valset.members} (hstarted : started ≤ now)
    (hpolls : deadline - (now - started) + max 1 config.pollInterval ≤
      polls * max 1 config.pollInterval) :
    Promises timing NotesNoFailure (TellsTruly cancelAt .cancelled)
      (poll config target valset deadline started polls known) now := by
  -- On the polls that are left. Each takes the time that is left down by an interval at least.
  induction polls generalizing now known with
  | zero => omega
  | succ polls ih =>
    rw [poll]
    refine promises_perform_bind.mpr ⟨rfl, fun seen time hseen => ?_⟩
    -- Not cancelled yet: the candidates are read, and then the clock.
    obtain ⟨rfl, ⟨rfl, -⟩ | ⟨rfl, c, mem, hc⟩⟩ := (keeps.isCancelled hseen).isCancelled_cases
    · rw [if_neg Bool.false_ne_true, fetchCandidates, bind_bind]
      refine promises_perform_bind.mpr ⟨rfl, fun answers fetched hread => ?_⟩
      have hgoes := keeps.forward hread
      rw [pure_eq_done, done_bind]
      dsimp only
      -- Enough power ends the polls with a quorum.
      split
      · exact promises_perform_bind.mpr ⟨rfl, fun _ _ _ => by rintro ⟨⟩⟩
      refine promises_perform_bind.mpr ⟨rfl, fun shown read hshown => ?_⟩
      obtain ⟨rfl, rfl⟩ := (keeps.now hshown).now_cases
      split
      · rintro ⟨⟩
      next hleft =>
      refine promises_perform_bind.mpr ⟨rfl, fun wait later hwait => ?_⟩
      obtain ⟨rfl, rfl, -⟩ | ⟨rfl, c, mem, rfl, -⟩ := (keeps.pause hwait).pause_cases
      · refine ih (by omega) ?_
        -- Either the deadline has come, or an interval has gone.
        have hleft' : read - started < deadline := Nat.lt_of_not_le hleft
        have hstep : 1 ≤ max 1 config.pollInterval := Nat.le_max_left _ _
        have hgone : read + min config.pollInterval (deadline - (read - started)) - started ≥
            deadline ∨ time + max 1 config.pollInterval ≤
              read + min config.pollInterval (deadline - (read - started)) := by
          rcases advances with hpause | htakes
          · omega
          · have htook := htakes _ _ _ _ _ hread
            omega
        rw [Nat.succ_mul] at hpolls
        have hspare : 0 < polls := by
          refine Nat.pos_of_ne_zero ?_
          rintro rfl
          omega
        have hpoll := Nat.le_mul_of_pos_left (max 1 config.pollInterval) hspare
        omega
      · exact fun _ => ⟨c, mem, Nat.le_max_right _ _⟩
    · rw [if_pos rfl]
      exact fun _ => ⟨c, mem, hc⟩

/-- **A call for a quorum** gives `cancelled` only once the task is. There are enough polls for the
whole time up to the deadline. -/
theorem promises_queryQuorum (keeps : KeepsTime cancelAt timing)
    (advances : Advances timing config) :
    Promises timing NotesNoFailure (TellsTruly cancelAt .cancelled)
      (queryQuorum config target valset deadline) now := by
  rw [queryQuorum]
  split
  · rintro ⟨⟩
  refine promises_perform_bind.mpr ⟨rfl, fun recalled time _ => ?_⟩
  cases recalled with
  | some records =>
    intro hresult
    rw [decodeQuorum] at hresult
    split at hresult <;> cases hresult
  | none =>
    refine promises_perform_bind.mpr ⟨rfl, fun shown started hshown => ?_⟩
    obtain ⟨rfl, rfl⟩ := (keeps.now hshown).now_cases
    refine promises_poll keeps advances (Nat.le_refl _) ?_
    -- There are more polls than intervals before the deadline.
    have hdiv := Nat.lt_div_mul_add (a := deadline) (b := max 1 config.pollInterval)
      (Nat.le_max_left _ _)
    rw [pollBound, Nat.add_mul]
    omega

end Store

namespace Relayer

variable {setup : RelayerSetup}

/-! ### One call -/

/-- A result that is no error of the store, and so none that tells of a cancellation. -/
def Unstored {α : Type} (result : Except RelayerError α) : Prop :=
  ∀ e, result ≠ .error (.store e)

/-- A search down the heights does not fail as the store does, whatever the answers. -/
theorem unstored_resolveFrom (step : Nat) (nonce : UInt64) (depth : Nat) (height : UInt64) :
    Conforms NotesNoFailure Unstored (History.resolveFrom step nonce depth height) := by
  induction depth generalizing height with
  | zero => rintro _ ⟨⟩
  | succ depth ih =>
    rw [History.resolveFrom]
    refine conforms_perform_bind.mpr ⟨rfl, fun answer => ?_⟩
    split
    · rintro _ ⟨⟩
    · split
      · rintro _ ⟨⟩
      · exact ih _

/-- A search for an attestation does not fail as the store does. It asks the source only. -/
theorem unstored_attestation (config : HistoryConfig) (nonce : UInt64) :
    Conforms NotesNoFailure Unstored (History.attestation config nonce) := by
  rw [History.attestation]
  refine conforms_perform_bind.mpr ⟨rfl, fun answer => ?_⟩
  split
  · rintro _ ⟨⟩
  · rintro _ ⟨⟩
  · refine conforms_perform_bind.mpr ⟨rfl, fun height => ?_⟩
    split
    · rintro _ ⟨⟩
    · exact unstored_resolveFrom _ _ _ _

/-- Nor does a search for a valset at several heights. -/
theorem unstored_searchValset (config : HistoryConfig) (nonce height : UInt64) (count : Nat)
    (candidate : UInt64) :
    Conforms NotesNoFailure Unstored
      (History.searchValset config nonce height count candidate) := by
  induction count generalizing candidate with
  | zero => rintro _ ⟨⟩
  | succ count ih =>
    rw [History.searchValset]
    refine (unstored_resolveFrom _ _ _ _).bind fun answer hanswer => ?_
    split
    · rintro _ ⟨⟩
    · exact ih _
    · exact ih _
    · intro e he
      cases he
      exact hanswer e rfl

/-- A search for the valset before a nonce does not fail as the store does. -/
theorem unstored_valsetBefore (config : HistoryConfig) (nonce : UInt64) :
    Conforms NotesNoFailure Unstored (History.valsetBefore config nonce) := by
  rw [History.valsetBefore]
  refine conforms_perform_bind.mpr ⟨rfl, fun answer => ?_⟩
  split
  · rintro _ ⟨⟩
  · refine conforms_perform_bind.mpr ⟨rfl, fun height => ?_⟩
    split
    · rintro _ ⟨⟩
    · exact unstored_searchValset _ _ _ _ _
  · rintro _ ⟨⟩

/-- **Waiting for a quorum and submitting** gives the store's `cancelled` only once the task is. The
time may go on behind the poll, while results are noted; that does not take the cancellation
back. -/
theorem promises_submitWithQuorum (keeps : KeepsTime cancelAt timing)
    (advances : Store.Advances timing setup.store) (target : QuorumTarget) (current : Valset)
    (submission : List Vrs → Submission) :
    Promises timing NotesNoFailure (TellsTruly cancelAt (.store .cancelled))
      (submitWithQuorum setup target current submission) now := by
  -- The quorum is waited for in front, and its failure is passed on.
  have hquorum : Promises timing NotesNoFailure (TellsTruly cancelAt (.store .cancelled))
      (quorum setup target current) now := by
    rw [quorum]
    refine promises_perform_bind.mpr ⟨rfl, fun shown time _ => ?_⟩
    refine (Store.promises_queryQuorum keeps advances).bind fun result ended hresult => ?_
    refine promises_perform_bind.mpr ⟨rfl, fun shown' looked hshown => ?_⟩
    refine promises_perform_bind.mpr ⟨rfl, fun _ noted hnoted => ?_⟩
    split
    · rintro ⟨⟩
    · rintro ⟨⟩
      exact (hresult rfl).mono (Nat.le_trans (keeps.forward hshown) (keeps.forward hnoted))
  rw [submitWithQuorum]
  refine hquorum.bind fun result ended hresult => ?_
  cases result with
  | error e =>
    rintro ⟨⟩
    exact hresult rfl
  -- What comes behind a quorum fails in other ways, if it fails.
  | ok confirms =>
    dsimp only
    split
    · rintro ⟨⟩
    · refine promises_perform_bind.mpr ⟨rfl, fun answer _ _ => ?_⟩
      cases answer <;> rintro ⟨⟩

/-- The same of a commit, of either kind of attestation. -/
theorem promises_commit (keeps : KeepsTime cancelAt timing)
    (advances : Store.Advances timing setup.store) (nonce : UInt64) (attestation : Attestation)
    (current : Valset) :
    Promises timing NotesNoFailure (TellsTruly cancelAt (.store .cancelled))
      (commit setup nonce attestation current) now := by
  cases attestation with
  | valset new => exact promises_submitWithQuorum keeps advances _ _ _
  | dataCommitment c =>
    rw [commit]
    refine promises_perform_bind.mpr ⟨rfl, fun answer _ _ => ?_⟩
    cases answer with
    | error e => rintro ⟨⟩
    | ok root => exact promises_submitWithQuorum keeps advances _ _ _

/-- The same of relaying a nonce: the searches before the commit do not fail as the store does. -/
theorem promises_relay (keeps : KeepsTime cancelAt timing)
    (advances : Store.Advances timing setup.store) (nonce : UInt64) :
    Promises timing NotesNoFailure (TellsTruly cancelAt (.store .cancelled))
      (relay setup nonce) now := by
  rw [relay]
  refine ((unstored_attestation _ _).promises _).bind fun found _ hfound => ?_
  cases found with
  -- A search that fails ends the call, and not with an error of the store.
  | error e =>
    rintro ⟨⟩
    exact absurd rfl (hfound _)
  | ok attestation =>
    refine ((unstored_valsetBefore _ _).promises _).bind fun prior _ hprior => ?_
    cases prior with
    | error e =>
      rintro ⟨⟩
      exact absurd rfl (hprior _)
    | ok current =>
      refine (promises_commit keeps advances _ _ _).bind fun committed _ hcommitted => ?_
      cases committed with
      | error e =>
        rintro ⟨⟩
        exact hcommitted rfl
      | ok transaction => exact promises_perform_bind.mpr ⟨rfl, fun _ _ _ => by rintro ⟨⟩⟩

/-- **A call gives the store's `cancelled` only once the task is**, and leaves it to the turn to
note that it failed. With this a worker that stops on the error stops for the right reason. -/
theorem promises_relayNext (keeps : KeepsTime cancelAt timing)
    (advances : Store.Advances timing setup.store) :
    Promises timing NotesNoFailure (TellsTruly cancelAt (.store .cancelled))
      (relayNext setup) now := by
  rw [relayNext]
  refine promises_perform_bind.mpr ⟨rfl, fun last _ _ => ?_⟩
  cases last with
  | error e => rintro ⟨⟩
  | ok last =>
    refine promises_perform_bind.mpr ⟨rfl, fun _ _ _ => ?_⟩
    refine promises_perform_bind.mpr ⟨rfl, fun latest _ _ => ?_⟩
    cases latest with
    | error e => rintro ⟨⟩
    | ok latest =>
      dsimp only
      split
      · rintro ⟨⟩
      · exact promises_relay keeps advances _

end Relayer

end Countersign
