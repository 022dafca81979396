import Mathlib.Data.Finset.Card
import Mathlib.Logic.Relation

/-! # Everything that depends on something

Rows name what they depend on. A pass over the rows adds each one that depends
on what is already affected, and passes are made until one adds nothing. What
comes out is what depends, step by step, on what the passes began with
(`mem_spread_iff`). -/
namespace RlmGraph.Lib.Dependents

variable {κ : Type} [DecidableEq κ]

/-- A row by its key, with the keys it depends on. -/
abbrev Row (κ : Type) := κ × List κ

def Depends (row : Row κ) (affected : List κ) : Prop := ∃ d ∈ row.2, d ∈ affected

instance (row : Row κ) (affected : List κ) : Decidable (Depends row affected) :=
  inferInstanceAs (Decidable (∃ d ∈ row.2, d ∈ affected))

/-- One pass over the rows. -/
def pass : List (Row κ) → List κ → List κ
  | [], affected => affected
  | row :: rows, affected =>
    pass rows (if row.1 ∉ affected ∧ Depends row affected then affected ++ [row.1] else affected)

/-- A pass only adds, and what it adds are rows that were not affected. -/
theorem pass_eq_append (rows : List (Row κ)) (affected : List κ) :
    ∃ new, pass rows affected = affected ++ new ∧ ∀ k ∈ new, k ∉ affected ∧ k ∈ rows.map (·.1) := by
  induction rows generalizing affected with
  | nil => exact ⟨[], (List.append_nil _).symm, fun k hk => by cases hk⟩
  | cons row rows ih =>
    rw [pass]
    split
    · rename_i hadds
      obtain ⟨new, hnew, hrows⟩ := ih (affected ++ [row.1])
      refine ⟨row.1 :: new, by rw [hnew, List.append_assoc, List.singleton_append], ?_⟩
      intro k hk
      rcases List.mem_cons.mp hk with rfl | hk
      · exact ⟨hadds.1, List.mem_cons_self⟩
      · obtain ⟨hout, hrow⟩ := hrows k hk
        exact ⟨fun hin => hout (List.mem_append_left _ hin), List.mem_cons_of_mem _ hrow⟩
    · obtain ⟨new, hnew, hrows⟩ := ih affected
      exact ⟨new, hnew, fun k hk => ⟨(hrows k hk).1, List.mem_cons_of_mem _ (hrows k hk).2⟩⟩

theorem subset_pass (rows : List (Row κ)) (affected : List κ) : affected ⊆ pass rows affected := by
  obtain ⟨new, hnew, -⟩ := pass_eq_append rows affected
  rw [hnew]
  exact List.subset_append_left _ _

/-- A pass that adds nothing has found nothing to add. -/
theorem closed_of_pass {rows : List (Row κ)} {affected : List κ}
    (h : (pass rows affected).length = affected.length) :
    ∀ row ∈ rows, Depends row affected → row.1 ∈ affected := by
  induction rows with
  | nil => intro row hrow; cases hrow
  | cons first rows ih =>
    rw [pass] at h
    split at h
    · obtain ⟨new, hnew, -⟩ := pass_eq_append rows (affected ++ [first.1])
      rw [hnew] at h
      simp only [List.length_append, List.length_cons] at h
      omega
    · rename_i hnot
      intro row hrow hdepends
      rcases List.mem_cons.mp hrow with rfl | hrow
      · by_contra hout
        exact hnot ⟨hout, hdepends⟩
      · exact ih h row hrow hdepends

/-- What is not affected yet. -/
def rest (rows : List (Row κ)) (affected : List κ) : Finset κ :=
  (rows.map (·.1)).toFinset \ affected.toFinset

theorem rest_pass_lt {rows : List (Row κ)} {affected : List κ}
    (h : (pass rows affected).length ≠ affected.length) :
    (rest rows (pass rows affected)).card < (rest rows affected).card := by
  obtain ⟨new, hnew, hrows⟩ := pass_eq_append rows affected
  obtain ⟨k, hk⟩ : ∃ k, k ∈ new := by
    cases new with
    | nil =>
      rw [hnew, List.append_nil] at h
      exact absurd rfl h
    | cons k new => exact ⟨k, List.mem_cons_self⟩
  obtain ⟨hout, hrow⟩ := hrows k hk
  refine Finset.card_lt_card (Finset.ssubset_iff_of_subset ?_ |>.mpr ⟨k, ?_, ?_⟩)
  · refine Finset.sdiff_subset_sdiff (Finset.Subset.refl _) ?_
    intro x hx
    exact List.mem_toFinset.mpr (subset_pass rows affected (List.mem_toFinset.mp hx))
  · simp only [rest, Finset.mem_sdiff, List.mem_toFinset]
    exact ⟨hrow, hout⟩
  · simp only [rest, Finset.mem_sdiff, List.mem_toFinset, not_and, not_not]
    intro _
    rw [hnew]
    exact List.mem_append_right _ hk

/-- Passes until one adds nothing. -/
def spread (rows : List (Row κ)) (affected : List κ) : List κ :=
  if (pass rows affected).length = affected.length then affected
  else spread rows (pass rows affected)
termination_by (rest rows affected).card
decreasing_by exact rest_pass_lt (by assumption)

theorem subset_spread (rows : List (Row κ)) (affected : List κ) :
    affected ⊆ spread rows affected := by
  induction affected using spread.induct rows with
  | case1 affected h =>
    rw [spread, if_pos h]
    exact List.Subset.refl _
  | case2 affected h ih =>
    rw [spread, if_neg h]
    exact List.Subset.trans (subset_pass rows affected) ih

/-- **What depends on something affected is affected.** -/
theorem spread_closed (rows : List (Row κ)) (affected : List κ) :
    ∀ row ∈ rows, Depends row (spread rows affected) → row.1 ∈ spread rows affected := by
  induction affected using spread.induct rows with
  | case1 affected h =>
    rw [spread, if_pos h]
    exact closed_of_pass h
  | case2 affected h ih =>
    rw [spread, if_neg h]
    exact ih

/-- `b` depends on `a`. -/
def On (rows : List (Row κ)) (a b : κ) : Prop := ∃ row ∈ rows, row.1 = b ∧ a ∈ row.2

theorem pass_reached {rows all : List (Row κ)} {affected : List κ} {P : κ → Prop}
    (hsub : rows ⊆ all) (hstep : ∀ a b, P a → On all a b → P b) (h : ∀ k ∈ affected, P k) :
    ∀ k ∈ pass rows affected, P k := by
  induction rows generalizing affected with
  | nil => exact h
  | cons row rows ih =>
    obtain ⟨hrow, hrows⟩ := List.cons_subset.mp hsub
    rw [pass]
    split
    · rename_i hadds
      refine ih hrows (List.forall_mem_append.mpr ⟨h, List.forall_mem_singleton.mpr ?_⟩)
      obtain ⟨d, hd, hin⟩ := hadds.2
      exact hstep d row.1 (h d hin) ⟨row, hrow, rfl, hd⟩
    · exact ih hrows h

theorem spread_reached {rows : List (Row κ)} {affected : List κ} {P : κ → Prop}
    (hstep : ∀ a b, P a → On rows a b → P b) (h : ∀ k ∈ affected, P k) :
    ∀ k ∈ spread rows affected, P k := by
  induction affected using spread.induct rows with
  | case1 affected hsame =>
    rw [spread, if_pos hsame]
    exact h
  | case2 affected hmore ih =>
    rw [spread, if_neg hmore]
    exact ih (pass_reached (List.Subset.refl rows) hstep h)

/-- **What is affected in the end** is what depends, step by step, on what was
affected in the beginning. -/
theorem mem_spread_iff {rows : List (Row κ)} {affected : List κ} {k : κ} :
    k ∈ spread rows affected ↔ ∃ a ∈ affected, Relation.ReflTransGen (On rows) a k := by
  constructor
  · intro hk
    refine spread_reached (P := fun k => ∃ a ∈ affected, Relation.ReflTransGen (On rows) a k) ?_ ?_ k hk
    · rintro a b ⟨first, hfirst, hleads⟩ hon
      exact ⟨first, hfirst, hleads.tail hon⟩
    · intro k hk
      exact ⟨k, hk, .refl⟩
  · rintro ⟨a, ha, hleads⟩
    induction hleads with
    | refl => exact subset_spread rows affected ha
    | tail _ hon ih =>
      obtain ⟨row, hrow, rfl, hmem⟩ := hon
      exact spread_closed rows affected row hrow ⟨_, hmem, ih⟩

end RlmGraph.Lib.Dependents
