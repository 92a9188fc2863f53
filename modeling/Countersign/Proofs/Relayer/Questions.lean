import Countersign.Proofs.Routine.Counting
import Countersign.Relayer.Relay

/-!
# What a relayer's searches ask

Before a relayer commits, it looks for an attestation and for the valset before it, some heights
back if it must. These searches ask the source and nobody else (`Relayer.conforms_attestation`,
`Relayer.conforms_valsetBefore`), so they remember no quorum and submit nothing
(`Relayer.not_asks_effect`).
-/

namespace Countersign.Relayer

open Routine

/-! ### Requests that change something -/

/-- A request by which a relayer changes its surroundings: it remembers a quorum or submits. The
other requests may be made any number of times. -/
def isEffect : Request → Bool
  | .remember _ _ => true
  | .submit _ => true
  | _ => false

/-- A submission to the chain. -/
def isSubmission : Request → Bool
  | .submit _ => true
  | _ => false

/-- A question to the source, which has no effect on it. -/
def isQuestion : Request → Bool
  | .source _ => true
  | _ => false

/-- A search down the heights asks the source only, whatever it is answered. -/
theorem conforms_resolveFrom (step : Nat) (nonce : UInt64) (depth : Nat) (height : UInt64) :
    Conforms (fun r => isQuestion r = true) (fun _ => True)
      (History.resolveFrom step nonce depth height) := by
  -- On the number of steps back that are left: each asks the source once.
  induction depth generalizing height with
  | zero => trivial
  | succ depth ih =>
    rw [History.resolveFrom]
    refine conforms_perform_bind.mpr ⟨rfl, fun answer => ?_⟩
    split
    · trivial
    · split
      · trivial
      · exact ih _

/-- Finding an attestation takes questions to the source only. -/
theorem conforms_attestation (config : HistoryConfig) (nonce : UInt64) :
    Conforms (fun r => isQuestion r = true) (fun _ => True)
      (History.attestation config nonce) := by
  rw [History.attestation]
  refine conforms_perform_bind.mpr ⟨rfl, fun answer => ?_⟩
  split
  · trivial
  · trivial
  · refine conforms_perform_bind.mpr ⟨rfl, fun height => ?_⟩
    split
    · trivial
    · exact conforms_resolveFrom _ _ _ _

/-- A search down the nonces asks the source only. It is one search after the other. -/
theorem conforms_searchValset (config : HistoryConfig) (nonce height : UInt64) (count : Nat)
    (candidate : UInt64) :
    Conforms (fun r => isQuestion r = true) (fun _ => True)
      (History.searchValset config nonce height count candidate) := by
  -- On the number of candidates that are left, each of which is resolved on its own.
  induction count generalizing candidate with
  | zero => trivial
  | succ count ih =>
    rw [History.searchValset]
    refine (conforms_resolveFrom _ _ _ _).bind fun answer _ => ?_
    split
    · trivial
    · exact ih _
    · exact ih _
    · trivial

/-- Finding the valset before a nonce takes questions to the source only. -/
theorem conforms_valsetBefore (config : HistoryConfig) (nonce : UInt64) :
    Conforms (fun r => isQuestion r = true) (fun _ => True)
      (History.valsetBefore config nonce) := by
  rw [History.valsetBefore]
  refine conforms_perform_bind.mpr ⟨rfl, fun answer => ?_⟩
  split
  · trivial
  · refine conforms_perform_bind.mpr ⟨rfl, fun height => ?_⟩
    split
    · trivial
    · exact conforms_searchValset _ _ _ _ _
  · trivial

/-- What only asks the source submits nothing, in none of its courses. -/
theorem asksAtMost_zero_of_isQuestion {α : Type} {p : Routine α}
    (h : Conforms (fun r => isQuestion r = true) (fun _ => True) p) :
    AsksAtMost isSubmission 0 p := by
  refine (h.mono (fun r hr => ?_) fun _ ha => ha).asksAtMost_zero
  cases r <;> first | rfl | cases hr

/-- What only asks the source changes nothing, however far it got. -/
theorem not_asks_effect {α : Type} {p : Routine α} {t : List Exchange} {r : Request}
    (h : Conforms (fun r => isQuestion r = true) (fun _ => True) p) (hr : isEffect r = true) :
    ¬ Asks p t r := by
  intro hasks
  have hquestion := h.asks hasks
  cases r <;> simp [isQuestion, isEffect] at hquestion hr

end Countersign.Relayer
