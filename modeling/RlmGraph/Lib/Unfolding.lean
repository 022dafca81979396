import RlmGraph.Lib.Search

/-! # Unfolding a graph to a depth

A traversal that follows every edge to a depth meets the nodes of the unfolding,
each before what it leads to. One that stops at a node it has met before stops
in the unfolding of a graph without cycles as well, wherever two ways lead to
one node (`sweep_again_iff`). -/
namespace RlmGraph.Lib.Unfolding
open RlmGraph.Lib.Search

variable {ν ε : Type} {next : ν → List ν} {fault : ν → Option ε} {met vs ws : List ν} {v w : ν}

/-- The nodes that are met within so many steps, each before those it leads to. -/
def unfolding (next : ν → List ν) : Nat → ν → List ν
  | 0, v => [v]
  | n + 1, v => v :: (next v).flatMap (unfolding next n)

/-- A walk from its first step. -/
theorem walk_cons {n : Nat} {u v w : ν} (hnext : v ∈ next u) (hwalk : Walk next n v w) :
    Walk next (n + 1) u w := by
  induction hwalk with
  | nil => exact (Walk.nil u).snoc hnext
  | snoc _ hlast ih => exact (ih hnext).snoc hlast

theorem walk_succ_iff {n : Nat} {u w : ν} :
    Walk next (n + 1) u w ↔ ∃ v ∈ next u, Walk next n v w := by
  constructor
  · intro h
    generalize hm : n + 1 = m at h
    induction h generalizing n with
    | nil => cases hm
    | @snoc k u v w hwalk hlast ih =>
      obtain rfl := Nat.succ.inj hm
      cases n with
      | zero =>
        cases hwalk
        exact ⟨w, hlast, .nil w⟩
      | succ n =>
        obtain ⟨first, hfirst, hrest⟩ := ih rfl
        exact ⟨first, hfirst, hrest.snoc hlast⟩
  · exact fun ⟨v, hnext, hwalk⟩ => walk_cons hnext hwalk

/-- The nodes of the unfolding are those within the depth. -/
theorem mem_unfolding_iff {n : Nat} : w ∈ unfolding next n v ↔ Within next [v] n w := by
  induction n generalizing v with
  | zero => rw [within_zero, unfolding]
  | succ n ih =>
    rw [unfolding, List.mem_cons, List.mem_flatMap]
    constructor
    · rintro (rfl | ⟨u, hu, hmem⟩)
      · exact ⟨w, List.mem_singleton.mpr rfl, 0, Nat.zero_le _, .nil w⟩
      · obtain ⟨seed, hseed, m, hm, hwalk⟩ := ih.mp hmem
        rw [List.mem_singleton.mp hseed] at hwalk
        exact ⟨v, List.mem_singleton.mpr rfl, m + 1, Nat.succ_le_succ hm, walk_cons hu hwalk⟩
    · rintro ⟨seed, hseed, m, hm, hwalk⟩
      rw [List.mem_singleton.mp hseed] at hwalk
      cases m with
      | zero =>
        cases hwalk
        exact .inl rfl
      | succ m =>
        obtain ⟨u, hu, hrest⟩ := walk_succ_iff.mp hwalk
        exact .inr ⟨u, hu, ih.mpr ⟨u, List.mem_singleton.mpr rfl, m, Nat.le_of_succ_le_succ hm, hrest⟩⟩

/-! ## Sweeping the nodes -/

/-- Why a sweep stops: a node it has met, or a fault. -/
inductive Stop (ν ε : Type) where
  | again (v : ν)
  | fault (e : ε)

section
variable [DecidableEq ν]

/-- The nodes one after the other, with those met before. -/
def sweep (fault : ν → Option ε) : List ν → List ν → Except (Stop ν ε) (List ν)
  | met, [] => .ok met
  | met, v :: vs =>
    if v ∈ met then .error (.again v)
    else match fault v with
      | some e => .error (.fault e)
      | none => sweep fault (met ++ [v]) vs

@[simp] theorem sweep_nil : sweep fault met [] = .ok met := rfl

theorem sweep_again (h : v ∈ met) : sweep fault met (v :: vs) = .error (.again v) := if_pos h

theorem sweep_fault {e : ε} (h : v ∉ met) (hfault : fault v = some e) :
    sweep fault met (v :: vs) = .error (.fault e) := by
  rw [sweep, if_neg h, hfault]

theorem sweep_cons (h : v ∉ met) (hfault : fault v = none) :
    sweep fault met (v :: vs) = sweep fault (met ++ [v]) vs := by
  rw [sweep, if_neg h, hfault]

theorem sweep_append : sweep fault met (vs ++ ws) =
    (sweep fault met vs).bind fun met => sweep fault met ws := by
  induction vs generalizing met with
  | nil => rfl
  | cons v vs ih =>
    rw [List.cons_append, sweep, sweep]
    split
    · rfl
    · split
      · rfl
      · exact ih

/-- A sweep that ends has met every node, none of them twice. -/
theorem sweep_ok (hmet : met.Nodup) (hfault : ∀ v ∈ vs, fault v = none) (hvs : (met ++ vs).Nodup) :
    sweep fault met vs = .ok (met ++ vs) := by
  induction vs generalizing met with
  | nil => rw [sweep_nil, List.append_nil]
  | cons v vs ih =>
    have hnew : v ∉ met := fun hold =>
      (List.nodup_append.mp hvs).2.2 v hold v List.mem_cons_self rfl
    have hassoc : met ++ v :: vs = met ++ [v] ++ vs := by simp
    rw [hassoc] at hvs ⊢
    rw [sweep_cons hnew (hfault v List.mem_cons_self)]
    exact ih (List.nodup_append.mp hvs).1 (fun w hw => hfault w (List.mem_cons_of_mem v hw)) hvs

/-- A fault that stops a sweep is that of a node. -/
theorem exists_fault_of_sweep {e : ε} (h : sweep fault met vs = .error (.fault e)) :
    ∃ v ∈ vs, fault v = some e := by
  induction vs generalizing met with
  | nil => cases h
  | cons v vs ih =>
    by_cases hold : v ∈ met
    · rw [sweep_again hold] at h
      cases h
    · cases hfault : fault v with
      | some e' =>
        rw [sweep_fault hold hfault] at h
        cases h
        exact ⟨v, List.mem_cons_self, hfault⟩
      | none =>
        rw [sweep_cons hold hfault] at h
        obtain ⟨w, hw, he⟩ := ih h
        exact ⟨w, List.mem_cons_of_mem v hw, he⟩

/-- **A sweep meets a node again if the nodes before the first fault repeat one.** -/
theorem sweep_again_iff (hmet : met.Nodup) (hsound : ∀ v ∈ met, fault v = none) :
    (∃ v, sweep fault met vs = .error (.again v)) ↔
      ¬(met ++ vs.takeWhile fun v => (fault v).isNone).Nodup := by
  induction vs generalizing met with
  | nil => simp [hmet]
  | cons v vs ih =>
    by_cases hold : v ∈ met
    · refine iff_of_true ⟨v, sweep_again hold⟩ fun hnodup => ?_
      rw [List.takeWhile_cons_of_pos (by simp [hsound v hold])] at hnodup
      exact (List.nodup_append.mp hnodup).2.2 v hold v List.mem_cons_self rfl
    · cases hfault : fault v with
      | some e =>
        refine iff_of_false ?_ ?_
        · rintro ⟨w, hw⟩
          rw [sweep_fault hold hfault] at hw
          cases hw
        · rw [List.takeWhile_cons_of_neg (by simp [hfault]), List.append_nil]
          exact not_not_intro hmet
      | none =>
        have hnodup : (met ++ [v]).Nodup :=
          List.nodup_append'.mpr ⟨hmet, List.nodup_singleton v, by simpa using hold⟩
        have hnext := ih hnodup fun w hw => by
          obtain hw | hw := List.mem_append.mp hw
          · exact hsound w hw
          · rw [List.mem_singleton.mp hw, hfault]
        rw [sweep_cons hold hfault, hnext, List.takeWhile_cons_of_pos (by simp [hfault]),
          List.append_assoc, List.singleton_append]

end

end RlmGraph.Lib.Unfolding
