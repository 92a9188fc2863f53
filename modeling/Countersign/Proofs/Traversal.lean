import Mathlib.Data.List.Forall2

/-!
# Lists read one by one

What is read of a list, element by element, goes along with the list (`List.Forall₂`): it succeeds
exactly if every element is read (`mapM_eq_some_iff`, `mapM_eq_ok_iff`), and fails exactly if one of
them is not (`exists_mapM_eq_error_iff`), for the reason that the first of these gives
(`mapM_eq_error_iff`). Whatever two elements have in pairs is then the same for what was read of
them (`pairwise_iff_of_forall₂`).

A look-up by a key finds the first element that has it (`IsFirstWith`), so it depends on nothing but
the elements with this key, and their order among themselves (`find?_eq_of_filter_eq`).
-/

namespace Countersign

variable {α β ε : Type} {as : List α} {bs : List β}

theorem mapM_eq_some_iff {f : α → Option β} :
    as.mapM f = some bs ↔ List.Forall₂ (fun a b => f a = some b) as bs := by
  induction as generalizing bs with
  | nil => simp [eq_comm]
  | cons a as ih =>
    rw [List.mapM_cons, List.forall₂_cons_left_iff]
    constructor
    · intro h
      obtain ⟨b, hb, h⟩ := Option.bind_eq_some_iff.mp h
      obtain ⟨bs', hbs, h⟩ := Option.bind_eq_some_iff.mp h
      exact ⟨b, bs', hb, ih.mp hbs, (Option.some.inj h).symm⟩
    · rintro ⟨b, bs', hb, hbs, rfl⟩
      rw [hb, ih.mpr hbs]
      rfl

theorem mapM_eq_ok_iff {f : α → Except ε β} :
    as.mapM f = .ok bs ↔ List.Forall₂ (fun a b => f a = .ok b) as bs := by
  -- On the list, of which both sides take the elements in order.
  induction as generalizing bs with
  | nil =>
    rw [List.mapM_nil, List.forall₂_nil_left_iff]
    exact ⟨fun h => (Except.ok.inj h).symm, fun h => h ▸ rfl⟩
  | cons a as ih =>
    rw [List.mapM_cons, List.forall₂_cons_left_iff]
    constructor
    · intro h
      cases ha : f a with
      | error e =>
        rw [ha] at h
        cases h
      | ok b =>
        cases has : as.mapM f with
        | error e =>
          rw [ha, has] at h
          cases h
        | ok bs' =>
          rw [ha, has] at h
          exact ⟨b, bs', rfl, ih.mp has, (Except.ok.inj h).symm⟩
    · rintro ⟨b, bs', hb, hbs, rfl⟩
      rw [hb, ih.mpr hbs]
      rfl

/-- A list cannot be read exactly if one of its elements cannot. -/
theorem exists_mapM_eq_error_iff {f : α → Except ε β} :
    (∃ e, as.mapM f = .error e) ↔ ∃ a ∈ as, ∃ e, f a = .error e := by
  induction as with
  | nil =>
    rw [List.mapM_nil]
    exact ⟨nofun, nofun⟩
  | cons a as ih =>
    rw [List.mapM_cons, List.exists_mem_cons_iff, ← ih]
    cases f a with
    | error e => exact ⟨fun _ => Or.inl ⟨e, rfl⟩, fun _ => ⟨e, rfl⟩⟩
    | ok b =>
      cases as.mapM f with
      | error e => exact ⟨fun _ => Or.inr ⟨e, rfl⟩, fun _ => ⟨e, rfl⟩⟩
      | ok bs => exact ⟨nofun, fun h => h.elim nofun nofun⟩

theorem mapM_cons_eq_error_iff {f : α → Except ε β} {a : α} {e : ε} :
    (a :: as).mapM f = .error e ↔
      f a = .error e ∨ (∃ b, f a = .ok b) ∧ as.mapM f = .error e := by
  rw [List.mapM_cons]
  cases f a with
  | error e' => simp [bind, Except.bind]
  | ok b =>
    cases as.mapM f with
    | error e' => simp [bind, Except.bind]
    | ok bs => simp [bind, Except.bind, pure, Except.pure]

/-- **A list is not read for the reason of the first element** that is not. -/
theorem mapM_eq_error_iff {f : α → Except ε β} {e : ε} :
    as.mapM f = .error e ↔ ∃ front a rest, as = front ++ a :: rest ∧
      (∀ a' ∈ front, ∃ b, f a' = .ok b) ∧ f a = .error e := by
  induction as with
  | nil => simp [pure, Except.pure]
  | cons a as ih =>
    rw [mapM_cons_eq_error_iff, ih]
    constructor
    · rintro (ha | ⟨ha, front, a', rest, rfl, hfront, ha'⟩)
      · exact ⟨[], a, as, rfl, by simp, ha⟩
      · exact ⟨a :: front, a', rest, rfl, List.forall_mem_cons.mpr ⟨ha, hfront⟩, ha'⟩
    · rintro ⟨_ | ⟨_, front⟩, a', rest, hsplit, hfront, ha'⟩
      · obtain ⟨rfl, -⟩ := List.cons.inj hsplit
        exact .inl ha'
      · obtain ⟨rfl, rfl⟩ := List.cons.inj hsplit
        obtain ⟨ha, hfront⟩ := List.forall_mem_cons.mp hfront
        exact .inr ⟨ha, front, a', rest, rfl, hfront, ha'⟩

/-- What is read of each element is all that matters. -/
theorem mapM_congr {f g : α → Except ε β} (h : ∀ a ∈ as, f a = g a) : as.mapM f = as.mapM g := by
  induction as with
  | nil => rfl
  | cons a as ih =>
    obtain ⟨ha, has⟩ := List.forall_mem_cons.mp h
    rw [List.mapM_cons, List.mapM_cons, ha, ih has]

/-- What holds in pairs of one list holds so of another one that goes along with it. -/
theorem pairwise_iff_of_forall₂ {r : α → β → Prop} {p : α → α → Prop} {q : β → β → Prop}
    (hpq : ∀ {a b a' b'}, r a b → r a' b' → (p a a' ↔ q b b')) (h : List.Forall₂ r as bs) :
    as.Pairwise p ↔ bs.Pairwise q := by
  induction h with
  | nil => exact iff_of_true .nil .nil
  | @cons a b as bs hab hrest ih =>
    -- The first elements stand to all later ones as these stand to each other.
    have hfirst : (∀ a' ∈ as, p a a') ↔ ∀ b' ∈ bs, q b b' := by
      clear ih
      induction hrest with
      | nil => simp
      | cons hab' _ ih => rw [List.forall_mem_cons, List.forall_mem_cons, ih, hpq hab hab']
    rw [List.pairwise_cons, List.pairwise_cons, ih, hfirst]

/-! ### The first element with a key -/

section Keys

variable {κ : Type} {key : α → κ} {k : κ} {a b : α} {as' : List α}

/-- The first element with a key: no element before it has the key. -/
def IsFirstWith (key : α → κ) (k : κ) (as : List α) (a : α) : Prop :=
  ∃ front rest, as = front ++ a :: rest ∧ key a = k ∧ ∀ b ∈ front, key b ≠ k

theorem IsFirstWith.mem (h : IsFirstWith key k as a) : a ∈ as := by
  obtain ⟨front, rest, rfl, -, -⟩ := h
  exact List.mem_append_right front List.mem_cons_self

theorem IsFirstWith.key_eq (h : IsFirstWith key k as a) : key a = k := by
  obtain ⟨-, -, -, hkey, -⟩ := h
  exact hkey

variable [DecidableEq κ]

theorem find?_eq_some_iff_isFirstWith :
    as.find? (key · == k) = some a ↔ IsFirstWith key k as a := by
  rw [List.find?_eq_some_iff_append, beq_iff_eq]
  constructor
  · rintro ⟨hkey, front, rest, hsplit, hfront⟩
    exact ⟨front, rest, hsplit, hkey, fun b hb => by simpa using hfront b hb⟩
  · rintro ⟨front, rest, hsplit, hkey, hfront⟩
    exact ⟨hkey, front, rest, hsplit, fun b hb => by simpa using hfront b hb⟩

theorem find?_eq_none_iff_forall_ne : as.find? (key · == k) = none ↔ ∀ a ∈ as, key a ≠ k := by
  simp [List.find?_eq_none]

theorem IsFirstWith.unique (h : IsFirstWith key k as a) (h' : IsFirstWith key k as b) : a = b :=
  Option.some.inj ((find?_eq_some_iff_isFirstWith.mpr h).symm.trans
    (find?_eq_some_iff_isFirstWith.mpr h'))

/-- Only the elements with a key count when it is looked up. -/
theorem find?_eq_of_filter_eq (h : as.filter (key · == k) = as'.filter (key · == k)) :
    as.find? (key · == k) = as'.find? (key · == k) := by
  rw [← List.head?_filter, h, List.head?_filter]

/-- **In a list with different keys** the elements with one key do not depend on the order. -/
theorem filter_eq_of_perm (h : as.Perm as') (distinct : (as.map key).Nodup) (k : κ) :
    as.filter (key · == k) = as'.filter (key · == k) := by
  have hperm : (as.filter (key · == k)).Perm (as'.filter (key · == k)) := h.filter _
  have hnodup : ((as.filter (key · == k)).map key).Nodup :=
    distinct.sublist (List.filter_sublist.map key)
  have hkeys : ∀ a ∈ as.filter (key · == k), key a = k := fun a ha => by
    simpa using (List.mem_filter.mp ha).2
  -- There is one such element at most.
  match hfilter : as.filter (key · == k) with
  | [] =>
    rw [hfilter] at hperm
    exact hperm.nil_eq
  | [a] =>
    rw [hfilter] at hperm
    exact List.singleton_perm.mp hperm
  | a :: b :: rest =>
    rw [hfilter] at hnodup hkeys
    have hsame : key a = key b := (hkeys a (by simp)).trans (hkeys b (by simp)).symm
    exact absurd (List.mem_cons.mpr (.inl hsame)) (List.nodup_cons.mp hnodup).1

end Keys

end Countersign
