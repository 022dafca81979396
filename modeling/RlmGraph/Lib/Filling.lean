import Mathlib.Algebra.GroupWithZero.Nat
import Mathlib.Data.List.Basic

/-! # Filling a list up to a limit

A loop goes through candidates once and takes what each offers if there is room.
It adds up the sizes of what it takes from the size of an empty list on, without
the separators between them. The list as a whole keeps the limit if and only if
no separator decides: nothing is offered that there is room for without them
only (`fill_within_iff`). -/
namespace RlmGraph.Lib.Filling

structure Filler (κ π : Type) where
  /-- What a candidate offers beside what is taken. -/
  offer : List π → κ → Option π
  /-- Whether the loop ends with what is taken. -/
  full : List π → Bool
  size : π → Nat

variable {κ π : Type}

namespace Filler

/-- The loop over the candidates, with the size that is used. -/
def fill (filler : Filler κ π) (limit : Nat) : List κ → Nat → List π → List π
  | [], _, taken => taken
  | candidate :: rest, used, taken =>
    match filler.offer taken candidate with
    | none => fill filler limit rest used taken
    | some offered =>
      let size := filler.size offered
      if limit < used + size then fill filler limit rest used taken
      else if filler.full (taken ++ [offered]) then taken ++ [offered]
      else fill filler limit rest (used + size) (taken ++ [offered])

/-- What the loop adds up: two brackets and the items. -/
def used (filler : Filler κ π) (taken : List π) : Nat := 2 + (taken.map filler.size).sum

/-- The size of a list, with the separators between its items. -/
def listSize (filler : Filler κ π) (taken : List π) : Nat := filler.used taken + (taken.length - 1)

/-- The offers to a loop that takes what the list itself has room for, each with
what is taken by then. -/
def weighed (filler : Filler κ π) (limit : Nat) : List κ → List π → List (List π × π)
  | [], _ => []
  | candidate :: rest, taken =>
    match filler.offer taken candidate with
    | none => weighed filler limit rest taken
    | some offered =>
      (taken, offered) ::
        if limit < filler.listSize (taken ++ [offered]) then weighed filler limit rest taken
        else if filler.full (taken ++ [offered]) then []
        else weighed filler limit rest (taken ++ [offered])

/-- No separator decides. -/
def SeparatorsFit (filler : Filler κ π) (limit : Nat) (candidates : List κ) : Prop :=
  ∀ item ∈ filler.weighed limit candidates [],
    filler.used item.1 + filler.size item.2 ≤ limit → filler.listSize (item.1 ++ [item.2]) ≤ limit

variable {filler : Filler κ π} {limit : Nat} {candidates rest : List κ} {candidate : κ}
  {taken : List π} {offered : π}

@[simp] theorem used_nil : filler.used [] = 2 := rfl

@[simp] theorem used_concat : filler.used (taken ++ [offered]) = filler.used taken + filler.size offered := by
  simp [used, Nat.add_assoc]

theorem listSize_concat :
    filler.listSize (taken ++ [offered]) = filler.used taken + filler.size offered + taken.length := by
  simp [listSize]

theorem listSize_le_concat : filler.listSize taken ≤ filler.listSize (taken ++ [offered]) := by
  rw [listSize_concat, listSize]
  omega

theorem fill_skip (h : filler.offer taken candidate = none) :
    filler.fill limit (candidate :: rest) (filler.used taken) taken =
      filler.fill limit rest (filler.used taken) taken := by
  rw [fill, h]

theorem fill_over (h : filler.offer taken candidate = some offered)
    (hover : limit < filler.used taken + filler.size offered) :
    filler.fill limit (candidate :: rest) (filler.used taken) taken =
      filler.fill limit rest (filler.used taken) taken := by
  rw [fill, h]
  exact if_pos hover

theorem fill_full (h : filler.offer taken candidate = some offered)
    (hroom : filler.used taken + filler.size offered ≤ limit)
    (hfull : filler.full (taken ++ [offered]) = true) :
    filler.fill limit (candidate :: rest) (filler.used taken) taken = taken ++ [offered] := by
  rw [fill, h]
  exact (if_neg (Nat.not_lt.mpr hroom)).trans (if_pos hfull)

theorem fill_take (h : filler.offer taken candidate = some offered)
    (hroom : filler.used taken + filler.size offered ≤ limit)
    (hfull : ¬filler.full (taken ++ [offered]) = true) :
    filler.fill limit (candidate :: rest) (filler.used taken) taken =
      filler.fill limit rest (filler.used (taken ++ [offered])) (taken ++ [offered]) := by
  rw [fill, h, used_concat]
  exact (if_neg (Nat.not_lt.mpr hroom)).trans (if_neg hfull)

/-- The loop gives nothing back. -/
theorem listSize_le_fill : filler.listSize taken ≤
    filler.listSize (filler.fill limit candidates (filler.used taken) taken) := by
  induction candidates generalizing taken with
  | nil => exact Nat.le_refl _
  | cons candidate rest ih =>
    cases hoffer : filler.offer taken candidate with
    | none =>
      rw [fill_skip hoffer]
      exact ih
    | some offered =>
      by_cases hover : limit < filler.used taken + filler.size offered
      · rw [fill_over hoffer hover]
        exact ih
      · by_cases hfull : filler.full (taken ++ [offered]) = true
        · rw [fill_full hoffer (Nat.not_lt.mp hover) hfull]
          exact listSize_le_concat
        · rw [fill_take hoffer (Nat.not_lt.mp hover) hfull]
          exact Nat.le_trans listSize_le_concat ih

/-- From a list within the limit on, the loop stays there if no separator decides. -/
theorem fill_within_iff_of_le (h : filler.listSize taken ≤ limit) :
    filler.listSize (filler.fill limit candidates (filler.used taken) taken) ≤ limit ↔
      ∀ item ∈ filler.weighed limit candidates taken,
        filler.used item.1 + filler.size item.2 ≤ limit →
          filler.listSize (item.1 ++ [item.2]) ≤ limit := by
  induction candidates generalizing taken with
  | nil => exact iff_of_true h fun _ hitem => nomatch hitem
  | cons candidate rest ih =>
    cases hoffer : filler.offer taken candidate with
    | none =>
      rw [fill_skip hoffer, weighed, hoffer]
      exact ih h
    | some offered =>
      rw [weighed, hoffer]
      dsimp only
      rw [List.forall_mem_cons]
      by_cases hlist : filler.listSize (taken ++ [offered]) ≤ limit
      · have hroom : filler.used taken + filler.size offered ≤ limit := by
          rw [listSize_concat] at hlist
          omega
        rw [if_neg (Nat.not_lt.mpr hlist)]
        by_cases hfull : filler.full (taken ++ [offered]) = true
        · rw [fill_full hoffer hroom hfull, if_pos hfull]
          exact iff_of_true hlist ⟨fun _ => hlist, fun _ hitem => nomatch hitem⟩
        · rw [fill_take hoffer hroom hfull, if_neg hfull, ih hlist]
          exact ⟨fun hrest => ⟨fun _ => hlist, hrest⟩, fun hall => hall.2⟩
      · rw [if_pos (Nat.not_le.mp hlist)]
        by_cases hroom : filler.used taken + filler.size offered ≤ limit
        · -- The loop takes what the list has no room for.
          refine iff_of_false (fun hwithin => hlist (Nat.le_trans ?_ hwithin)) fun hall => hlist (hall.1 hroom)
          by_cases hfull : filler.full (taken ++ [offered]) = true
          · simp only [fill_full hoffer hroom hfull, Nat.le_refl]
          · rw [fill_take hoffer hroom hfull]
            exact listSize_le_fill
        · rw [fill_over hoffer (Nat.not_le.mp hroom), ih h]
          exact ⟨fun hrest => ⟨fun hfits => absurd hfits hroom, hrest⟩, fun hall => hall.2⟩

/-- **The list keeps the limit if the empty one does and no separator decides.** -/
theorem fill_within_iff : filler.listSize (filler.fill limit candidates 2 []) ≤ limit ↔
    2 ≤ limit ∧ filler.SeparatorsFit limit candidates := by
  by_cases hempty : 2 ≤ limit
  · have hnil : filler.listSize [] ≤ limit := hempty
    exact (fill_within_iff_of_le hnil).trans (and_iff_right hempty).symm
  · have hgrows : 2 ≤ filler.listSize (filler.fill limit candidates 2 []) := by
      simp only [listSize, used]
      omega
    exact iff_of_false (fun h => hempty (Nat.le_trans hgrows h)) fun h => hempty h.1

end Filler

end RlmGraph.Lib.Filling
