import Countersign.Proofs.Relayer.Searching

/-!
# The valset before a nonce, found in the past

The valset before a nonce says who signs for it, and in which order their signatures stand. When the
source no longer knows it, `History.valsetBefore` takes the first valset that a search downwards
sees. With truthful answers this is a valset of the chain with a lower nonce
(`History.valsetBefore_isLast_iff`), but not always the last one.

The search passes over a nonce for two reasons: it was shown a data commitment, or it was shown
nothing at any of the heights. The first is right. The second says nothing about the chain: the
attestation may stand between two heights, below the lowest of them, or behind a query that failed.
So the answer is the last valset exactly if every valset of the chain above it that the search asked
for would have been seen, and there are chains and settings with an older answer
(`History.valsetBefore_not_isLast`).
-/

namespace Countersign

open Routine

/-! ### The attestations of a chain -/

/-- **The attestations that a chain has made**, by nonce. -/
structure AttestationChain where
  made : UInt64 → Option Attestation
  nonce_eq : ∀ {nonce : UInt64} {attestation : Attestation},
    made nonce = some attestation → attestation.nonce = nonce

namespace AttestationChain

variable (chain : AttestationChain)

/-- Archival answers that are true of a chain: an attestation that is shown for a nonce is the
chain's. Nothing need be shown, at any height. -/
def Truthful (t : List Exchange) : Prop :=
  ∀ nonce height attestation,
    ⟨.source (.attestationAt nonce height), .ok (some attestation)⟩ ∈ t →
      chain.made nonce = some attestation

/-- **The last valset of a chain before a nonce.** -/
structure IsLastValset (nonce : UInt64) (valset : Valset) : Prop where
  before : valset.nonce < nonce
  made : chain.made valset.nonce = some (.valset valset)
  last : ∀ n later, valset.nonce < n → n < nonce → chain.made n ≠ some (.valset later)

/-- A chain of the given attestations. -/
def ofList (attestations : List Attestation) : AttestationChain where
  made nonce := attestations.find? (·.nonce == nonce)
  nonce_eq := by
    intro nonce attestation h
    have hfound := List.find?_some h
    exact beq_iff_eq.mp hfound

end AttestationChain

namespace History

variable {config : HistoryConfig} {chain : AttestationChain} {nonce m : UInt64} {v : Valset}
  {t : List Exchange}

/-- **What the search among all candidates gives**: a valset that it was shown below the nonce, all
the nonces between being passed over. -/
theorem follows_candidates_ok {latest : UInt64}
    (h : Follows (searchValset config nonce latest (nonce.toNat - lowestCandidate config nonce)
      (nonce - 1)) t (.ok v)) :
    ∃ found height, found < nonce ∧
      ⟨.source (.attestationAt found height), .ok (some (.valset v))⟩ ∈ t ∧
      ∀ n, found < n → n < nonce → PassedOver n (searchHeights config latest) t := by
  by_cases hzero : nonce.toNat = 0
  · -- Without a nonce below there is no candidate, and no valset either.
    have hnone : nonce.toNat - lowestCandidate config nonce = 0 := by omega
    rw [hnone] at h
    obtain ⟨-, heq⟩ := follows_done_iff.mp h
    cases heq
  · have hpred := toNat_pred (Nat.pos_of_ne_zero hzero)
    have hcount : nonce.toNat - lowestCandidate config nonce ≤ (nonce - 1).toNat := by
      rw [hpred]
      unfold lowestCandidate
      omega
    obtain ⟨found, height, hle, -, hmem, hpassed⟩ := follows_searchValset_ok hcount h
    -- The nonces up to the one below are the nonces below.
    have hbelow : ∀ n : UInt64, n ≤ nonce - 1 ↔ n < nonce := by
      intro n
      rw [UInt64.le_iff_toNat_le, UInt64.lt_iff_toNat_lt, hpred]
      omega
    refine ⟨found, height, (hbelow found).mp hle, hmem, ?_⟩
    intro n hn hlt
    exact hpassed n hn ((hbelow n).mpr hlt)

/-- **What a search downwards gives** once the source no longer knows the valset: one that it was
shown, all the nonces above it being passed over. -/
theorem follows_valsetBefore_pruned
    (h : Follows (valsetBefore config nonce) t (.ok v))
    (pruned : ⟨.source (.valsetBefore nonce), .error (.valsetNotFound m)⟩ ∈ t) :
    ∃ latest found height, ⟨.source .latestHeight, .ok latest⟩ ∈ t ∧ found < nonce ∧
      ⟨.source (.attestationAt found height), .ok (some (.valset v))⟩ ∈ t ∧
      ∀ n, found < n → n < nonce → PassedOver n (searchHeights config latest) t := by
  rw [valsetBefore] at h
  obtain ⟨answer, t₁, rfl, h₁⟩ :=
    (follows_perform_bind_iff (r := .source (.valsetBefore nonce))).mp h
  cases answer with
  | ok live =>
    -- A valset that is known live is the answer, with nothing asked behind it.
    obtain ⟨rfl, -⟩ := follows_done_iff.mp h₁
    have heq := List.mem_singleton.mp pruned
    simp at heq
  | error e =>
    cases e with
    -- A failure of any other kind is the result, so nothing is searched for.
    | transport reason | attestation error | malformed reason =>
      obtain ⟨-, heq⟩ := follows_done_iff.mp h₁
      cases heq
    | valsetNotFound k =>
      obtain ⟨answer, t₂, rfl, h₂⟩ := (follows_perform_bind_iff (r := .source .latestHeight)).mp h₁
      cases answer with
      | error e =>
        obtain ⟨-, heq⟩ := follows_done_iff.mp h₂
        cases heq
      | ok latest =>
        -- The candidates are tried from the nonce downwards.
        obtain ⟨found, height, hbefore, hmem, hpassed⟩ := follows_candidates_ok h₂
        have hsub : t₂ ⊆ ⟨.source (.valsetBefore nonce), .error (.valsetNotFound k)⟩ ::
            ⟨.source .latestHeight, .ok latest⟩ :: t₂ :=
          fun e he => List.mem_cons_of_mem _ (List.mem_cons_of_mem _ he)
        refine ⟨latest, found, height, List.mem_cons_of_mem _ List.mem_cons_self, hbefore,
          hsub hmem, ?_⟩
        intro n hn hlt
        exact (hpassed n hn hlt).mono hsub

/-- **The valset found in the past** is a valset of the chain before the nonce. It is the last one
exactly if none of the chain's valsets between the two stayed unseen at all heights of the search;
the other nonces between are commitments, or stayed unseen. -/
theorem valsetBefore_isLast_iff (truthful : chain.Truthful t)
    (h : Follows (valsetBefore config nonce) t (.ok v))
    (pruned : ⟨.source (.valsetBefore nonce), .error (.valsetNotFound m)⟩ ∈ t) :
    ∃ latest, ⟨.source .latestHeight, .ok latest⟩ ∈ t ∧
      v.nonce < nonce ∧ chain.made v.nonce = some (.valset v) ∧
      (∀ n, v.nonce < n → n < nonce → (∃ c, chain.made n = some (.dataCommitment c)) ∨
        Unseen n (searchHeights config latest) t) ∧
      (chain.IsLastValset nonce v ↔ ∀ n later, v.nonce < n → n < nonce →
        chain.made n = some (.valset later) → ¬ Unseen n (searchHeights config latest) t) := by
  obtain ⟨latest, found, height, hlatest, hbefore, hmem, hpassed⟩ :=
    follows_valsetBefore_pruned h pruned
  -- What was shown is the chain's, so the search's nonces and the chain's are the same.
  have hmade := truthful found height _ hmem
  obtain rfl : v.nonce = found := chain.nonce_eq hmade
  -- A nonce was passed over because it is a commitment, or because nobody showed it.
  have hbetween : ∀ n, v.nonce < n → n < nonce →
      (∃ c, chain.made n = some (.dataCommitment c)) ∨
        Unseen n (searchHeights config latest) t := by
    intro n hn hlt
    cases hpassed n hn hlt with
    | commitment height c hmem => exact Or.inl ⟨c, truthful n height _ hmem⟩
    | unseen hunseen => exact Or.inr hunseen
  refine ⟨latest, hlatest, hbefore, hmade, hbetween, ?_⟩
  constructor
  · intro hlast n later hn hlt hlater
    exact absurd hlater (hlast.last n later hn hlt)
  · intro hseen
    refine ⟨hbefore, hmade, ?_⟩
    intro n later hn hlt hlater
    rcases hbetween n hn hlt with ⟨c, hc⟩ | hunseen
    · rw [hc] at hlater
      cases hlater
    · exact hseen n later hn hlt hlater hunseen

/-! ### Runs of the search -/

/-- A valset without members, since a search looks only at its nonce and its kind. -/
def bareValset (nonce : UInt64) : Valset :=
  ⟨nonce, [], 1000, .epoch⟩

/-- A search that sees everything it asks for: the commitment at the latest height, and the valset
at the next one, the query at the latest having failed. -/
def seeingCourse : List Exchange :=
  [⟨.source (.valsetBefore 4), .error (.valsetNotFound 4)⟩, ⟨.source .latestHeight, .ok 500⟩,
    ⟨.source (.attestationAt 3 500), .ok (some (.dataCommitment ⟨3, 1, 10⟩))⟩,
    ⟨.source (.attestationAt 2 500), .error (.transport "timed out")⟩,
    ⟨.source (.attestationAt 2 400), .ok (some (.valset (bareValset 2)))⟩]

/-- **The last valset**, found behind a commitment and a query that failed. The failed query does no
harm, because the next height is asked as well. -/
theorem valsetBefore_isLast_of_seen :
    ∃ (chain : AttestationChain) (config : HistoryConfig) (v : Valset),
      chain.Truthful seeingCourse ∧ Follows (valsetBefore config 4) seeingCourse (.ok v) ∧
        chain.IsLastValset 4 v := by
  let chain : AttestationChain := .ofList
    [.valset (bareValset 1), .valset (bareValset 2), .dataCommitment ⟨3, 1, 10⟩]
  let config : HistoryConfig := ⟨100, 10, 10⟩
  have truthful : chain.Truthful seeingCourse := by
    intro nonce height attestation hmem
    simp [seeingCourse] at hmem
    rcases hmem with ⟨⟨rfl, -⟩, rfl⟩ | ⟨⟨rfl, -⟩, rfl⟩ <;> rfl
  have hfollows : Follows (valsetBefore config 4) seeingCourse (.ok (bareValset 2)) := by
    rw [valsetBefore]
    refine .perform_bind (r := .source (.valsetBefore 4)) ?_
    refine .perform_bind (r := .source .latestHeight) ?_
    refine .perform_bind (r := .source (.attestationAt 3 500)) ?_
    refine .perform_bind (r := .source (.attestationAt 2 500)) ?_
    refine .perform_bind (r := .source (.attestationAt 2 400)) ?_
    exact .done _
  obtain ⟨latest, -, -, -, -, hiff⟩ :=
    valsetBefore_isLast_iff truthful hfollows List.mem_cons_self
  refine ⟨chain, config, bareValset 2, truthful, hfollows, hiff.mpr ?_⟩
  -- The only nonce between is that of the commitment.
  intro n later hn hlt hlater
  have hthree : n = 3 := by
    rw [UInt64.lt_iff_toNat_lt] at hn hlt
    change 2 < n.toNat at hn
    change n.toNat < 4 at hlt
    apply UInt64.toNat_inj.mp
    show n.toNat = 3
    omega
  rw [hthree] at hlater
  cases hlater

/-- A search that overlooks a valset: at the only height that the standard settings let it ask at,
the source shows the valset of the nonce below and not the last one. -/
def overlookingCourse : List Exchange :=
  [⟨.source (.valsetBefore 3), .error (.valsetNotFound 3)⟩, ⟨.source .latestHeight, .ok 500⟩,
    ⟨.source (.attestationAt 2 500), .ok none⟩,
    ⟨.source (.attestationAt 1 500), .ok (some (.valset (bareValset 1)))⟩]

/-- **An older valset than the last one** may be found, with all answers true. -/
theorem valsetBefore_not_isLast :
    ∃ chain : AttestationChain, chain.Truthful overlookingCourse ∧
      ⟨.source (.valsetBefore 3), .error (.valsetNotFound 3)⟩ ∈ overlookingCourse ∧
      Follows (valsetBefore .standard 3) overlookingCourse (.ok (bareValset 1)) ∧
      ¬ chain.IsLastValset 3 (bareValset 1) := by
  let chain : AttestationChain := .ofList [.valset (bareValset 1), .valset (bareValset 2)]
  refine ⟨chain, ?_, List.mem_cons_self, ?_, ?_⟩
  · intro nonce height attestation hmem
    simp [overlookingCourse] at hmem
    obtain ⟨⟨rfl, -⟩, rfl⟩ := hmem
    rfl
  · rw [valsetBefore]
    refine .perform_bind (r := .source (.valsetBefore 3)) ?_
    refine .perform_bind (r := .source .latestHeight) ?_
    refine .perform_bind (r := .source (.attestationAt 2 500)) ?_
    refine .perform_bind (r := .source (.attestationAt 1 500)) ?_
    exact .done _
  · intro hlast
    have hmade : chain.made 2 = some (.valset (bareValset 2)) := rfl
    exact hlast.last 2 (bareValset 2) (by decide) (by decide) hmade

end History

end Countersign
