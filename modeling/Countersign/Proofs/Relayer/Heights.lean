import Countersign.Proofs.Relayer.Searching

/-!
# The heights of a search

A search for an attestation goes down in equal steps. The height after `i` steps is the highest one
minus `i` times the step (`History.heightAt`), and the search may go there if `i` is less than its
depth and the difference is not below zero (`History.InReach`). So the heights of a search are known
one by one (`History.getElem?_heightsFrom`), with the two ends at the right places.

With this a search is told without its recursion (`History.SearchesDown`): it asks at the heights
after 0, 1, … steps, all answers but the last show nothing, and the last one either shows the
attestation or was given at the last height in reach. It follows that the first height in reach at
which the source shows the attestation decides, whatever the source says at the others
(`History.SearchesDown.exists_firstShown_or`).
-/

namespace Countersign.History

open Routine

variable {step depth i j : Nat} {highest height nonce : UInt64} {heights : List UInt64}
  {t : List Exchange} {result : Except RelayerError Attestation} {config : HistoryConfig}

/-! ### Steps down -/

/-- The height after some steps down. The subtraction stops at zero, which is out of reach then. -/
def heightAt (step : Nat) (highest : UInt64) (i : Nat) : UInt64 :=
  UInt64.ofNat (highest.toNat - i * step)

/-- As many steps down as a search may take: fewer than its depth, and none below zero. -/
def InReach (step depth : Nat) (highest : UInt64) (i : Nat) : Prop :=
  i < depth ∧ i * step ≤ highest.toNat

/-- Fewer steps are in reach, too. -/
theorem InReach.mono (h : InReach step depth highest i) (hle : j ≤ i) :
    InReach step depth highest j :=
  ⟨Nat.lt_of_le_of_lt hle h.1, Nat.le_trans (Nat.mul_le_mul_right step hle) h.2⟩

/-- A height is not greater than the highest one, so nothing wraps around. -/
theorem toNat_heightAt (step : Nat) (highest : UInt64) (i : Nat) :
    (heightAt step highest i).toNat = highest.toNat - i * step := by
  have hlt := highest.toNat_lt
  rw [heightAt, UInt64.toNat_ofNat', Nat.mod_eq_of_lt (by omega)]

theorem heightAt_zero (step : Nat) (highest : UInt64) : heightAt step highest 0 = highest := by
  apply UInt64.toNat_inj.mp
  rw [toNat_heightAt, Nat.zero_mul, Nat.sub_zero]

/-- Within reach the difference is not cut off at zero. -/
theorem InReach.toNat_heightAt_add (h : InReach step depth highest i) :
    (heightAt step highest i).toNat + i * step = highest.toNat := by
  rw [toNat_heightAt]
  exact Nat.sub_add_cancel h.2

/-- Within reach each height comes once, if the step is not zero. -/
theorem InReach.eq_of_heightAt (hstep : 0 < step) (hi : InReach step depth highest i)
    (hj : InReach step depth highest j) (h : heightAt step highest i = heightAt step highest j) :
    i = j := by
  have hadd := hi.toNat_heightAt_add
  have hadd' := hj.toNat_heightAt_add
  rw [h] at hadd
  exact Nat.eq_of_mul_eq_mul_right hstep (Nat.add_left_cancel (hadd.trans hadd'.symm))

/-- One step down, and then some more, which is how the recursion goes. -/
theorem heightAt_below (step : Nat) (height : UInt64) (i : Nat) :
    heightAt step (UInt64.ofNat (height.toNat - step)) i = heightAt step height (i + 1) := by
  have hbelow := toNat_heightAt step height 1
  rw [heightAt, Nat.one_mul] at hbelow
  apply UInt64.toNat_inj.mp
  rw [toNat_heightAt, toNat_heightAt, hbelow, Nat.succ_mul]
  omega

/-- What is in reach behind one step is in reach from there with a depth that is one less. -/
theorem inReach_succ_iff :
    InReach step (depth + 1) height (i + 1) ↔
      step ≤ height.toNat ∧ InReach step depth (UInt64.ofNat (height.toNat - step)) i := by
  have hbelow := toNat_heightAt step height 1
  rw [heightAt, Nat.one_mul] at hbelow
  rw [InReach, InReach, hbelow, Nat.succ_mul]
  omega

/-- **The heights of a search**, one by one. This replaces the recursion of `heightsFrom` in all
that follows. -/
theorem getElem?_heightsFrom {found : UInt64} :
    (heightsFrom step depth height)[i]? = some found ↔
      InReach step depth height i ∧ found = heightAt step height i := by
  -- On the depth, as the heights themselves.
  induction depth generalizing height i with
  | zero =>
    constructor
    · intro h
      cases h
    · intro h
      exact absurd h.1.1 (Nat.not_lt_zero i)
  | succ depth ih =>
    rw [heightsFrom]
    cases i with
    | zero =>
      have hreach : InReach step (depth + 1) height 0 := by
        refine ⟨Nat.succ_pos depth, ?_⟩
        rw [Nat.zero_mul]
        exact Nat.zero_le _
      rw [List.getElem?_cons_zero, Option.some.injEq, heightAt_zero, and_iff_right hreach, eq_comm]
    | succ i =>
      rw [List.getElem?_cons_succ, inReach_succ_iff, ← heightAt_below]
      -- The next height is below zero, so the search ends; or it goes on from there.
      by_cases hlow : height.toNat < step
      · rw [if_pos hlow]
        constructor
        · intro h
          cases h
        · intro h
          exact absurd h.1.1 (Nat.not_le.mpr hlow)
      · rw [if_neg hlow, ih, and_iff_right (Nat.not_lt.mp hlow)]

/-- There are as many heights as steps in reach. -/
theorem lt_length_heightsFrom_iff :
    i < (heightsFrom step depth height).length ↔ InReach step depth height i := by
  constructor
  · intro hlt
    exact (getElem?_heightsFrom.mp (List.getElem?_eq_getElem hlt)).1
  · intro h
    obtain ⟨hlt, -⟩ := List.getElem?_eq_some_iff.mp (getElem?_heightsFrom.mpr ⟨h, rfl⟩)
    exact hlt

/-! ### Searches without recursion -/

/-- What a source may answer when it is asked for an attestation at a height. -/
abbrev HeightAnswer := Except SourceError (Option Attestation)

/-- A question for an attestation at a height, with its answer. -/
def lookup (nonce height : UInt64) (answer : HeightAnswer) : Exchange :=
  ⟨.source (.attestationAt nonce height), answer⟩

theorem lookup_inj {height' : UInt64} {answer answer' : HeightAnswer} :
    lookup nonce height answer = lookup nonce height' answer' ↔
      height = height' ∧ answer = answer' := by
  constructor
  · intro h
    cases h
    exact ⟨rfl, rfl⟩
  · rintro ⟨rfl, rfl⟩
    rfl

/-- **A search along heights** comes upon the attestation behind heights where it missed it, or
misses it at all of them. -/
theorem searched_iff :
    Searched nonce heights t result ↔
      (∃ (missed : List HeightAnswer) (attestation : Attestation),
        (∀ answer ∈ missed, shown answer = none) ∧ missed.length < heights.length ∧
          t = List.zipWith (lookup nonce) heights (missed ++ [.ok (some attestation)]) ∧
          result = .ok attestation) ∨
      ∃ missed : List HeightAnswer,
        (∀ answer ∈ missed, shown answer = none) ∧ missed.length = heights.length ∧
          t = List.zipWith (lookup nonce) heights missed ∧
          result = .error (.attestationNotFound nonce) := by
  constructor
  · intro h
    -- Each height that missed the attestation stands in front of those behind it.
    induction h with
    | nowhere => exact .inr ⟨[], nofun, rfl, rfl, rfl⟩
    | @found _ heights attestation =>
      refine .inl ⟨[], attestation, nofun, Nat.succ_pos _, ?_, rfl⟩
      rw [List.nil_append, List.zipWith_cons_cons, List.zipWith_nil_right]
      rfl
    | missed answer hmissed _ ih =>
      rcases ih with ⟨missed, attestation, hall, hlt, rfl, rfl⟩ | ⟨missed, hall, heq, rfl, rfl⟩
      · exact .inl ⟨answer :: missed, attestation, List.forall_mem_cons.mpr ⟨hmissed, hall⟩,
          Nat.succ_lt_succ hlt, rfl, rfl⟩
      · exact .inr ⟨answer :: missed, List.forall_mem_cons.mpr ⟨hmissed, hall⟩,
          congrArg Nat.succ heq, rfl, rfl⟩
  · -- Conversely, the answers are taken one by one along the heights.
    rintro (⟨missed, attestation, hall, hlt, rfl, rfl⟩ | ⟨missed, hall, heq, rfl, rfl⟩)
    · induction heights generalizing missed with
      | nil => cases hlt
      | cons height heights ih =>
        cases missed with
        | nil =>
          rw [List.nil_append, List.zipWith_cons_cons, List.zipWith_nil_right]
          exact .found attestation
        | cons answer missed =>
          obtain ⟨hmissed, hall⟩ := List.forall_mem_cons.mp hall
          exact .missed answer hmissed (ih missed hall (Nat.lt_of_succ_lt_succ hlt))
    · induction heights generalizing missed with
      | nil => exact .nowhere
      | cons height heights ih =>
        cases missed with
        | nil => cases heq
        | cons answer missed =>
          obtain ⟨hmissed, hall⟩ := List.forall_mem_cons.mp hall
          exact .missed answer hmissed (ih missed hall (Nat.succ.inj heq))

/-- Questions after 0, 1, … steps down, with their answers. -/
def asking (step : Nat) (nonce highest : UInt64) (answers : List HeightAnswer) : List Exchange :=
  answers.mapIdx fun i answer => lookup nonce (heightAt step highest i) answer

/-- The questions of a search along its heights are those after 0, 1, … steps. -/
theorem zipWith_heightsFrom {answers : List HeightAnswer}
    (h : answers.length ≤ (heightsFrom step depth highest).length) :
    List.zipWith (lookup nonce) (heightsFrom step depth highest) answers =
      asking step nonce highest answers := by
  apply List.ext_getElem?
  intro i
  rw [asking, List.getElem?_mapIdx, List.getElem?_zipWith]
  cases hanswer : answers[i]? with
  | none => cases (heightsFrom step depth highest)[i]? <;> rfl
  | some answer =>
    obtain ⟨hlt, -⟩ := List.getElem?_eq_some_iff.mp hanswer
    have hreach := lt_length_heightsFrom_iff.mp (Nat.lt_of_lt_of_le hlt h)
    rw [getElem?_heightsFrom.mpr ⟨hreach, rfl⟩]
    rfl

/-- **A bounded search downwards**, told without recursion: by the answers that it got, and where it
ended. -/
inductive SearchesDown (config : HistoryConfig) (nonce highest : UInt64) :
    List Exchange → Except RelayerError Attestation → Prop
  /-- It ends at the first answer that shows the attestation. -/
  | found {missed : List HeightAnswer} {attestation : Attestation}
      (hmissed : ∀ answer ∈ missed, shown answer = none)
      (hreach : InReach config.step config.maxDepth highest missed.length) :
      SearchesDown config nonce highest
        (asking config.step nonce highest (missed ++ [.ok (some attestation)])) (.ok attestation)
  /-- If no answer does, it ends where the next step would not be in reach. -/
  | exhausted {missed : List HeightAnswer} (hmissed : ∀ answer ∈ missed, shown answer = none)
      (hreach : ∀ i < missed.length, InReach config.step config.maxDepth highest i)
      (hend : ¬ InReach config.step config.maxDepth highest missed.length) :
      SearchesDown config nonce highest (asking config.step nonce highest missed)
        (.error (.attestationNotFound nonce))

/-- **The courses of a search** are these. Both directions are needed, since the first height that
shows the attestation is to decide. -/
theorem follows_resolve_iff :
    Follows (resolve config nonce highest) t result ↔
      SearchesDown config nonce highest t result := by
  show Follows (resolveFrom config.step nonce config.maxDepth highest) t result ↔ _
  -- The search is one along its heights, and these are known one by one.
  rw [follows_resolveFrom_iff, searched_iff]
  constructor
  · rintro (⟨missed, attestation, hmissed, hlt, rfl, rfl⟩ | ⟨missed, hmissed, heq, rfl, rfl⟩)
    · rw [zipWith_heightsFrom (by rw [List.length_append]; exact hlt)]
      exact .found hmissed (lt_length_heightsFrom_iff.mp hlt)
    · rw [zipWith_heightsFrom (Nat.le_of_eq heq)]
      refine .exhausted hmissed (fun i hi => ?_) fun hreach => ?_
      · exact lt_length_heightsFrom_iff.mp (Nat.lt_of_lt_of_eq hi heq)
      · exact absurd heq (Nat.ne_of_lt (lt_length_heightsFrom_iff.mpr hreach))
  · intro h
    cases h with
    | @found missed attestation hmissed hreach =>
      have hlt := lt_length_heightsFrom_iff.mpr hreach
      refine .inl ⟨missed, attestation, hmissed, hlt, ?_, rfl⟩
      rw [zipWith_heightsFrom (by rw [List.length_append]; exact hlt)]
    | @exhausted missed hmissed hreach hend =>
      have hle := Nat.not_lt.mp (mt lt_length_heightsFrom_iff.mp hend)
      -- It asked at all heights: there are no more of them, and none was left out.
      have hge : missed.length ≤ (heightsFrom config.step config.maxDepth highest).length := by
        refine Nat.not_lt.mp fun hlt => ?_
        exact absurd (lt_length_heightsFrom_iff.mpr (hreach _ hlt)) (Nat.lt_irrefl _)
      refine .inr ⟨missed, hmissed, Nat.le_antisymm hge hle, ?_, rfl⟩
      rw [zipWith_heightsFrom hge]

/-- All questions of a search are in reach. -/
theorem SearchesDown.exists_asking (h : SearchesDown config nonce highest t result) :
    ∃ answers, t = asking config.step nonce highest answers ∧
      ∀ i < answers.length, InReach config.step config.maxDepth highest i := by
  cases h with
  | found hmissed hreach =>
    refine ⟨_, rfl, fun i hi => hreach.mono ?_⟩
    rw [List.length_append] at hi
    exact Nat.le_of_lt_succ hi
  | exhausted hmissed hreach hend => exact ⟨_, rfl, hreach⟩

/-- No height is asked twice, so the questions of a search are different ones. -/
theorem SearchesDown.nodup (hstep : 0 < config.step)
    (h : SearchesDown config nonce highest t result) : (t.map Sigma.fst).Nodup := by
  obtain ⟨answers, rfl, hreach⟩ := h.exists_asking
  refine List.pairwise_iff_getElem.mpr fun i j hi hj hlt hsame => ?_
  simp only [asking, List.getElem_map, List.getElem_mapIdx] at hsame
  simp only [asking, List.length_map, List.length_mapIdx] at hi hj
  have hheight : heightAt config.step highest i = heightAt config.step highest j := by
    injection hsame with hquery
    injection hquery
  exact absurd ((hreach i hi).eq_of_heightAt hstep (hreach j hj) hheight) (Nat.ne_of_lt hlt)

/-! ### What the source shows -/

/-- A search in which the source answers each height in a given way, at whatever time it is
asked. -/
def AnsweredAt (nonce : UInt64) (answers : UInt64 → HeightAnswer) (t : List Exchange) : Prop :=
  ∀ height answer, lookup nonce height answer ∈ t → answer = answers height

/-- **The first height in reach** at which an attestation is shown. -/
structure FirstShown (config : HistoryConfig) (highest : UInt64) (answers : UInt64 → HeightAnswer)
    (i : Nat) (attestation : Attestation) : Prop where
  reach : InReach config.step config.maxDepth highest i
  shows : answers (heightAt config.step highest i) = .ok (some attestation)
  first : ∀ j < i, shown (answers (heightAt config.step highest j)) = none

variable {answers : UInt64 → HeightAnswer}

/-- There is one first height, and one attestation that is shown there. -/
theorem FirstShown.unique {a b : Attestation} (hi : FirstShown config highest answers i a)
    (hj : FirstShown config highest answers j b) : a = b := by
  have hnot : ∀ {i j a b}, FirstShown config highest answers i a →
      FirstShown config highest answers j b → ¬ i < j := by
    intro i j a b hi hj hlt
    have hnone := hj.first i hlt
    rw [hi.shows] at hnone
    cases hnone
  obtain rfl : i = j := Nat.le_antisymm (Nat.not_lt.mp (hnot hj hi)) (Nat.not_lt.mp (hnot hi hj))
  have h := hi.shows.symm.trans hj.shows
  exact Option.some.inj (Except.ok.inj h)

/-- **Some search there is** for all answers. The induction is on the heights that are left. -/
theorem exists_searched (nonce : UInt64) (answers : UInt64 → HeightAnswer)
    (heights : List UInt64) :
    ∃ t result, Searched nonce heights t result ∧ AnsweredAt nonce answers t := by
  induction heights with
  | nil => exact ⟨[], _, .nowhere, nofun⟩
  | cons height heights ih =>
    obtain ⟨rest, result, hsearched, hanswered⟩ := ih
    -- If the attestation is missed here, the rest of the search follows.
    have goesOn : shown (answers height) = none →
        ∃ t result, Searched nonce (height :: heights) t result ∧ AnsweredAt nonce answers t := by
      intro hmissed
      refine ⟨_, result, .missed (answers height) hmissed hsearched, ?_⟩
      intro height' answer hmem
      rcases List.mem_cons.mp hmem with heq | hmem
      · obtain ⟨rfl, rfl⟩ := lookup_inj.mp heq
        rfl
      · exact hanswered height' answer hmem
    rcases hanswer : answers height with e | _ | attestation
    · exact goesOn (by rw [hanswer]; rfl)
    · exact goesOn (by rw [hanswer]; rfl)
    · refine ⟨_, _, .found attestation, ?_⟩
      intro height' answer hmem
      obtain ⟨rfl, rfl⟩ := lookup_inj.mp (List.mem_singleton.mp hmem)
      exact hanswer.symm

/-- The answer after some steps is the one that the source gives at that height. -/
theorem AnsweredAt.eq_of_getElem? {given : List HeightAnswer} {answer : HeightAnswer}
    (h : AnsweredAt nonce answers (asking step nonce highest given))
    (hi : given[i]? = some answer) :
    answer = answers (heightAt step highest i) := by
  refine h _ _ (List.mem_of_getElem? (i := i) ?_)
  rw [asking, List.getElem?_mapIdx, hi]
  rfl

/-- **The first height that shows the attestation decides**, and if none in reach does, it is not
found. -/
theorem SearchesDown.exists_firstShown_or (h : SearchesDown config nonce highest t result)
    (hanswered : AnsweredAt nonce answers t) :
    (∃ i attestation, FirstShown config highest answers i attestation ∧
      result = .ok attestation) ∨
    (∀ i, InReach config.step config.maxDepth highest i →
      shown (answers (heightAt config.step highest i)) = none) ∧
      result = .error (.attestationNotFound nonce) := by
  cases h with
  | @found missed attestation hmissed hreach =>
    refine .inl ⟨missed.length, attestation, ⟨hreach, ?_, fun j hj => ?_⟩, rfl⟩
    · exact (hanswered.eq_of_getElem? List.getElem?_concat_length).symm
    · have hgiven : (missed ++ [.ok (some attestation)])[j]? = some missed[j] := by
        rw [List.getElem?_append_left hj, List.getElem?_eq_getElem hj]
      rw [← hanswered.eq_of_getElem? hgiven]
      exact hmissed _ (List.getElem_mem hj)
  | @exhausted missed hmissed hreach hend =>
    refine .inr ⟨fun i hi => ?_, rfl⟩
    have hlt : i < missed.length := Nat.not_le.mp fun hle => hend (hi.mono hle)
    rw [← hanswered.eq_of_getElem? (List.getElem?_eq_getElem hlt)]
    exact hmissed _ (List.getElem_mem hlt)

/-- **A search for an attestation is a bounded search downwards.**

* Whatever the source answers, the search asks at the heights after 0, 1, … steps down from the
  highest one, as long as these are fewer than its depth and do not lead below zero. It gives the
  attestation that is the first to be shown, and says that there is none if all heights in reach
  have been asked. A failure to answer is like an answer without the attestation.
* No height is asked twice.
* A height in reach is the highest one minus the steps, with nothing cut off.
* For any answers of the source to the heights there is a search. It gives an attestation exactly if
  this is shown at the first height in reach that shows one, and fails exactly if none does. -/
theorem resolve_searches_down (config : HistoryConfig) (nonce highest : UInt64)
    (hstep : 0 < config.step) :
    (∀ t result, Follows (resolve config nonce highest) t result ↔
      SearchesDown config nonce highest t result) ∧
    (∀ t result, Follows (resolve config nonce highest) t result → (t.map Sigma.fst).Nodup) ∧
    (∀ i, InReach config.step config.maxDepth highest i →
      (heightAt config.step highest i).toNat + i * config.step = highest.toNat) ∧
    ∀ answers : UInt64 → HeightAnswer,
      (∃ t result, Follows (resolve config nonce highest) t result ∧
        AnsweredAt nonce answers t) ∧
      ∀ t result, Follows (resolve config nonce highest) t result →
        AnsweredAt nonce answers t →
        (∀ attestation, result = .ok attestation ↔
          ∃ i, FirstShown config highest answers i attestation) ∧
        (result = .error (.attestationNotFound nonce) ↔
          ∀ i, InReach config.step config.maxDepth highest i →
            shown (answers (heightAt config.step highest i)) = none) := by
  refine ⟨fun t result => follows_resolve_iff, fun t result h => ?_,
    fun i hreach => hreach.toNat_heightAt_add, fun answers => ⟨?_, fun t result h hanswered => ?_⟩⟩
  · exact (follows_resolve_iff.mp h).nodup hstep
  · -- There is a search for these answers, since one may be made of them height by height.
    obtain ⟨t, result, hsearched, hanswered⟩ :=
      exists_searched nonce answers (heightsFrom config.step config.maxDepth highest)
    exact ⟨t, result, follows_resolveFrom_iff.mpr hsearched, hanswered⟩
  · -- The first height that shows the attestation decides, and the two results exclude each other.
    rcases (follows_resolve_iff.mp h).exists_firstShown_or hanswered with
      ⟨i, found, hfirst, rfl⟩ | ⟨hnone, rfl⟩
    · refine ⟨fun attestation => ⟨fun heq => ?_, fun ⟨j, hfirst'⟩ => ?_⟩, nofun, fun hnone => ?_⟩
      · obtain rfl := Except.ok.inj heq
        exact ⟨i, hfirst⟩
      · rw [hfirst.unique hfirst']
      · have hshown := hnone i hfirst.reach
        rw [hfirst.shows] at hshown
        cases hshown
    · refine ⟨fun attestation => ⟨nofun, fun ⟨i, hfirst⟩ => ?_⟩, fun _ => hnone, fun _ => rfl⟩
      have hshown := hnone i hfirst.reach
      rw [hfirst.shows] at hshown
      cases hshown

/-- A source that keeps an attestation for some heights only, and cannot be asked at the greatest
ones. -/
def archivedAt (attestation : Attestation) (height : UInt64) : HeightAnswer :=
  if 600 ≤ height.toNat then .error (.transport "timed out")
  else if 100 ≤ height.toNat ∧ height.toNat ≤ 300 then .ok (some attestation)
  else .ok none

/-- **The same source searched to two depths**: the attestation is four steps down, which is in
reach of the one search and behind the end of the other. -/
theorem resolve_searches_down_of_archived :
    ∃ t t', Follows (resolve ⟨100, 10, 10⟩ 2 650) t (.ok (.dataCommitment ⟨2, 1, 10⟩)) ∧
      Follows (resolve ⟨100, 3, 10⟩ 2 650) t' (.error (.attestationNotFound 2)) := by
  let attestation : Attestation := .dataCommitment ⟨2, 1, 10⟩
  have hmissed : ∀ j < 4, shown (archivedAt attestation (heightAt 100 650 j)) = none := by
    decide
  have hfirst : FirstShown ⟨100, 10, 10⟩ 650 (archivedAt attestation) 4 attestation :=
    ⟨⟨by decide, by decide⟩, rfl, hmissed⟩
  obtain ⟨-, -, -, hdeep⟩ := resolve_searches_down ⟨100, 10, 10⟩ 2 650 (by decide)
  obtain ⟨-, -, -, hshallow⟩ := resolve_searches_down ⟨100, 3, 10⟩ 2 650 (by decide)
  obtain ⟨⟨t, result, hfollows, hanswered⟩, hfound⟩ := hdeep (archivedAt attestation)
  obtain ⟨⟨t', result', hfollows', hanswered'⟩, hlost⟩ := hshallow (archivedAt attestation)
  obtain rfl := ((hfound t result hfollows hanswered).1 attestation).mpr ⟨4, hfirst⟩
  obtain rfl := (hlost t' result' hfollows' hanswered').2.mpr fun i hreach =>
    hmissed i (Nat.lt_of_lt_of_le hreach.1 (by decide))
  exact ⟨t, t', hfollows, hfollows'⟩

end Countersign.History
