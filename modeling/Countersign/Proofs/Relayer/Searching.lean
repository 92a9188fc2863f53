import Countersign.Proofs.Routine.Course
import Countersign.Relayer.History

/-!
# Searching the past

A search asks for one attestation at one height after the other, downwards, until an answer shows it
(`History.Searched`). Which heights these are is known beforehand (`History.heightsFrom`); how far
the search gets is up to the answers. The courses of `History.resolveFrom` are exactly such searches
(`History.follows_resolveFrom_iff`).

The search for a valset makes one such search for each nonce, downwards. It goes on below a nonce
of which it found a data commitment, and below one that it did not see at all
(`History.PassedOver`); all the nonces above its result are of these two kinds
(`History.follows_searchValset_ok`).
-/

namespace Countersign.History

open Routine

/-! ### One attestation -/

/-- The attestation that an answer shows, if it shows one. A height without the attestation and a
height that cannot be asked look alike. -/
def shown : Except SourceError (Option Attestation) → Option Attestation
  | .ok found => found
  | .error _ => none

/-- The heights at which a search asks as long as it finds nothing: downwards by steps, as many as
the depth allows, and none below zero. -/
def heightsFrom (step : Nat) : (depth : Nat) → (height : UInt64) → List UInt64
  | 0, _ => []
  | depth + 1, height =>
    height ::
      if height.toNat < step then []
      else heightsFrom step depth (UInt64.ofNat (height.toNat - step))

/-- **A search for an attestation** at heights, in their order, with its exchanges and its result.
It ends with the first answer that shows the attestation, or with the last height. -/
inductive Searched (nonce : UInt64) :
    List UInt64 → List Exchange → Except RelayerError Attestation → Prop where
  | nowhere : Searched nonce [] [] (.error (.attestationNotFound nonce))
  | found {height : UInt64} {heights : List UInt64} (attestation : Attestation) :
      Searched nonce (height :: heights)
        [⟨.source (.attestationAt nonce height), .ok (some attestation)⟩] (.ok attestation)
  | missed {height : UInt64} {heights : List UInt64} {rest : List Exchange}
      {result : Except RelayerError Attestation}
      (answer : Except SourceError (Option Attestation)) :
      shown answer = none → Searched nonce heights rest result →
      Searched nonce (height :: heights) (⟨.source (.attestationAt nonce height), answer⟩ :: rest)
        result

variable {nonce : UInt64} {heights : List UInt64} {t : List Exchange}

/-- **What a search does**, for all answers. A search from a height is a search at the heights from
there on. -/
theorem follows_resolveFrom_iff {step depth : Nat} {height : UInt64}
    {result : Except RelayerError Attestation} :
    Follows (resolveFrom step nonce depth height) t result ↔
      Searched nonce (heightsFrom step depth height) t result := by
  -- On the number of heights that are left, as the search itself.
  induction depth generalizing height t with
  | zero =>
    rw [resolveFrom, heightsFrom]
    constructor
    · intro h
      obtain ⟨rfl, rfl⟩ := follows_done_iff.mp h
      exact .nowhere
    · rintro ⟨⟩
      exact .done _
  | succ depth ih =>
    rw [resolveFrom, heightsFrom]
    -- Below the height there is nothing any more, or the rest of the search.
    have below : ∀ rest, Follows (if height.toNat < step then
          (return .error (.attestationNotFound nonce))
        else resolveFrom step nonce depth (UInt64.ofNat (height.toNat - step))) rest result ↔
        Searched nonce (if height.toNat < step then []
          else heightsFrom step depth (UInt64.ofNat (height.toNat - step))) rest result := by
      intro rest
      by_cases hlow : height.toNat < step
      · rw [if_pos hlow, if_pos hlow]
        constructor
        · intro h
          obtain ⟨rfl, rfl⟩ := follows_done_iff.mp h
          exact .nowhere
        · rintro ⟨⟩
          exact .done _
      · rw [if_neg hlow, if_neg hlow]
        exact ih
    constructor
    · intro h
      -- An attestation ends the search, and any other answer leads on below.
      obtain ⟨answer, rest, rfl, h₁⟩ :=
        (follows_perform_bind_iff (r := .source (.attestationAt nonce height))).mp h
      rcases answer with e | _ | attestation
      · exact .missed (.error e) rfl ((below rest).mp h₁)
      · exact .missed (.ok none) rfl ((below rest).mp h₁)
      · obtain ⟨rfl, rfl⟩ := follows_done_iff.mp h₁
        exact .found attestation
    · intro h
      cases h with
      | found attestation =>
        exact .perform_bind (r := .source (.attestationAt nonce height)) (.done _)
      | missed answer hmissed hrest =>
        refine .perform_bind (r := .source (.attestationAt nonce height)) ?_
        rcases answer with e | _ | attestation
        · exact (below _).mpr hrest
        · exact (below _).mpr hrest
        · cases hmissed

/-- What a search finds, it was shown at one of the heights. -/
theorem Searched.exists_shown {attestation : Attestation}
    (h : Searched nonce heights t (.ok attestation)) :
    ∃ height ∈ heights,
      ⟨.source (.attestationAt nonce height), .ok (some attestation)⟩ ∈ t := by
  generalize hresult : Except.ok attestation = result at h
  induction h with
  | nowhere => cases hresult
  | @found height _ a =>
    obtain rfl := Except.ok.inj hresult
    exact ⟨height, List.mem_cons_self, List.mem_cons_self⟩
  | missed answer _ _ ih =>
    obtain ⟨height, hheight, hmem⟩ := ih hresult
    exact ⟨height, List.mem_cons_of_mem _ hheight, List.mem_cons_of_mem _ hmem⟩

/-- A nonce that is shown at none of the heights, though it was asked for at each. An answer that
failed counts as one that does not show it. -/
def Unseen (nonce : UInt64) (heights : List UInt64) (t : List Exchange) : Prop :=
  ∀ height ∈ heights, ∃ answer, shown answer = none ∧
    ⟨.source (.attestationAt nonce height), answer⟩ ∈ t

/-- What stands in some exchanges stands in more of them. -/
theorem Unseen.mono {t' : List Exchange} (h : Unseen nonce heights t) (hsub : t ⊆ t') :
    Unseen nonce heights t' := by
  intro height hheight
  obtain ⟨answer, hanswer, hmem⟩ := h height hheight
  exact ⟨answer, hanswer, hsub hmem⟩

/-- **A search that fails** asked at all heights, and saw nothing. The error does not tell whether
the source knew nothing or did not answer. -/
theorem Searched.unseen {error : RelayerError} (h : Searched nonce heights t (.error error)) :
    error = .attestationNotFound nonce ∧ Unseen nonce heights t := by
  generalize hresult : Except.error error = result at h
  induction h with
  | nowhere =>
    refine ⟨Except.error.inj hresult, ?_⟩
    intro height hheight
    cases hheight
  | found a => cases hresult
  | missed answer hmissed _ ih =>
    obtain ⟨herror, hunseen⟩ := ih hresult
    refine ⟨herror, ?_⟩
    intro height hheight
    rcases List.mem_cons.mp hheight with rfl | hheight
    · exact ⟨answer, hmissed, List.mem_cons_self⟩
    · exact hunseen.mono (List.subset_cons_self _ _) height hheight

/-! ### The valset before a nonce -/

/-- The heights that a search from the latest one asks at. They are the same for every nonce. -/
def searchHeights (config : HistoryConfig) (latest : UInt64) : List UInt64 :=
  heightsFrom config.step config.maxDepth latest

/-- **A nonce below which the search for a valset goes on**: a commitment, which is known not to be
a valset, or one that was not seen, of which nothing is known. -/
inductive PassedOver (nonce : UInt64) (heights : List UInt64) (t : List Exchange) : Prop where
  | commitment (height : UInt64) (commitment : DataCommitment) :
      ⟨.source (.attestationAt nonce height), .ok (some (.dataCommitment commitment))⟩ ∈ t →
      PassedOver nonce heights t
  | unseen : Unseen nonce heights t → PassedOver nonce heights t

theorem PassedOver.mono {t' : List Exchange} (h : PassedOver nonce heights t) (hsub : t ⊆ t') :
    PassedOver nonce heights t' := by
  cases h with
  | commitment height c hmem => exact .commitment height c (hsub hmem)
  | unseen h => exact .unseen (h.mono hsub)

/-- The nonce below a nonce, if there is one. There is no nonce below zero, where the subtraction
would come round. -/
theorem toNat_pred {candidate : UInt64} (hpos : 0 < candidate.toNat) :
    (candidate - 1).toNat = candidate.toNat - 1 := by
  have hone : (1 : UInt64) ≤ candidate := by
    rw [UInt64.le_iff_toNat_le]
    exact hpos
  exact UInt64.toNat_sub_of_le _ _ hone

/-- **The valset that a search gives** was shown to it, and all the nonces above it, up to the one
at which the search began, were passed over. Whether these included a valset cannot be read off its
course. -/
theorem follows_searchValset_ok {config : HistoryConfig} {latest candidate : UInt64} {count : Nat}
    {v : Valset} (hcount : count ≤ candidate.toNat)
    (h : Follows (searchValset config nonce latest count candidate) t (.ok v)) :
    ∃ found height, found ≤ candidate ∧ candidate.toNat < found.toNat + count ∧
      ⟨.source (.attestationAt found height), .ok (some (.valset v))⟩ ∈ t ∧
      ∀ n, found < n → n ≤ candidate → PassedOver n (searchHeights config latest) t := by
  -- On the number of nonces that are left.
  induction count generalizing candidate t with
  | zero =>
    obtain ⟨-, heq⟩ := follows_done_iff.mp h
    cases heq
  | succ count ih =>
    rw [searchValset] at h
    obtain ⟨result, t₁, t₂, rfl, hresolve, h₁⟩ := follows_bind_iff.mp h
    have hsearched : Searched candidate (searchHeights config latest) t₁ result :=
      follows_resolveFrom_iff.mp hresolve
    -- If it is passed over, the search goes on below it, and so do the nonces passed over.
    have goesOn : PassedOver candidate (searchHeights config latest) t₁ →
        Follows (searchValset config nonce latest count (candidate - 1)) t₂ (.ok v) →
        ∃ found height, found ≤ candidate ∧ candidate.toNat < found.toNat + (count + 1) ∧
          ⟨.source (.attestationAt found height), .ok (some (.valset v))⟩ ∈ t₁ ++ t₂ ∧
          ∀ n, found < n → n ≤ candidate →
            PassedOver n (searchHeights config latest) (t₁ ++ t₂) := by
      intro hpassed hrest
      have hpred := toNat_pred (Nat.lt_of_lt_of_le (Nat.succ_pos count) hcount)
      obtain ⟨found, height, hle, hlow, hmem, habove⟩ := ih (by omega) hrest
      rw [UInt64.le_iff_toNat_le, hpred] at hle
      refine ⟨found, height, ?_, by omega, List.mem_append_right _ hmem, ?_⟩
      · rw [UInt64.le_iff_toNat_le]
        omega
      · intro n hn hnle
        by_cases heq : n = candidate
        · rw [heq]
          exact hpassed.mono (List.subset_append_left _ _)
        · have hne : n.toNat ≠ candidate.toNat := fun h => heq (UInt64.toNat_inj.mp h)
          rw [UInt64.le_iff_toNat_le] at hnle
          refine (habove n hn ?_).mono (List.subset_append_right _ _)
          rw [UInt64.le_iff_toNat_le]
          omega
    -- Not seen at any height, or a valset, or a commitment.
    rcases result with e | (found | c)
    · obtain ⟨rfl, hunseen⟩ := hsearched.unseen
      exact goesOn (.unseen hunseen) h₁
    · -- A valset ends the search.
      obtain ⟨rfl, heq⟩ := follows_done_iff.mp h₁
      obtain rfl := Except.ok.inj heq
      obtain ⟨height, -, hmem⟩ := hsearched.exists_shown
      refine ⟨candidate, height, UInt64.le_refl _, by omega, List.mem_append_left _ hmem, ?_⟩
      intro n hn hnle
      exact absurd (UInt64.lt_of_lt_of_le hn hnle) (UInt64.lt_irrefl _)
    · obtain ⟨height, -, hmem⟩ := hsearched.exists_shown
      exact goesOn (.commitment height c hmem) h₁

end Countersign.History
