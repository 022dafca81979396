import Mathlib.Data.List.Induction
import Mathlib.Logic.Function.Basic

/-! # Load, change, save

Parties share a value. Each loads it, works on what it loaded, and saves what
it holds with a change. A save replaces the whole value, so it undoes what
others have saved since the load. If nobody else saves between a load and a
save, the value is what the changes make of it one after the other
(`value_of_apart`). -/
namespace RlmGraph.Lib.Updates

variable {ι C V : Type}

/-- What a party does with the shared value. -/
inductive Access (ι C : Type) where
  | load (who : ι)
  | save (who : ι) (change : C)

/-- The value, and what each party holds of it. -/
structure Shared (ι V : Type) where
  value : V
  held : ι → Option V

/-- Nobody holds anything. -/
def Shared.start (value : V) : Shared ι V := ⟨value, fun _ => none⟩

/-- A party saves what it holds, changed, and holds it then; a party that holds
nothing changes the value in place. -/
def Shared.next [DecidableEq ι] (apply : C → V → V) (shared : Shared ι V) :
    Access ι C → Shared ι V
  | .load who => ⟨shared.value, Function.update shared.held who (some shared.value)⟩
  | .save who change =>
    let value := apply change ((shared.held who).getD shared.value)
    ⟨value, Function.update shared.held who ((shared.held who).map fun _ => value)⟩

def Shared.after [DecidableEq ι] (apply : C → V → V) (shared : Shared ι V)
    (accesses : List (Access ι C)) : Shared ι V :=
  accesses.foldl (Shared.next apply) shared

theorem Shared.after_append [DecidableEq ι] (apply : C → V → V) (shared : Shared ι V)
    (accesses more : List (Access ι C)) :
    shared.after apply (accesses ++ more) = (shared.after apply accesses).after apply more :=
  List.foldl_append

/-- The changes that are saved, in their order. -/
def saved (accesses : List (Access ι C)) : List C :=
  accesses.filterMap fun
    | .load _ => none
    | .save _ change => some change

/-- The value with the changes made one after the other. -/
def inOrder (apply : C → V → V) (changes : List C) (value : V) : V :=
  changes.foldl (fun value change => apply change value) value

/-- Nobody saves between the load and a save of another. -/
def Apart (accesses : List (Access ι C)) : Prop :=
  ∀ who other between change,
    List.Sublist [.load who, .save other between, .save who change] accesses → other = who

theorem Apart.of_append {accesses more : List (Access ι C)} (h : Apart (accesses ++ more)) :
    Apart accesses :=
  fun who other between change hsub =>
    h who other between change (hsub.trans (List.sublist_append_left accesses more))

section
variable [DecidableEq ι] {apply : C → V → V} {value : V} {accesses : List (Access ι C)}
  {shared : Shared ι V}

/-- What is known after some accesses: a copy that is not the value any more was
loaded before somebody else saved. -/
structure Tracked (apply : C → V → V) (value : V) (accesses : List (Access ι C))
    (shared : Shared ι V) : Prop where
  value : shared.value = inOrder apply (saved accesses) value
  loaded : ∀ who v, shared.held who = some v → .load who ∈ accesses
  current : ∀ who v, shared.held who = some v → v = shared.value ∨
    ∃ other change, other ≠ who ∧ List.Sublist [.load who, .save other change] accesses

theorem tracked_load {who : ι} (h : Tracked apply value accesses shared) :
    Tracked apply value (accesses ++ [.load who]) (shared.next apply (.load who)) := by
  have hother : ∀ x v, x ≠ who → (shared.next apply (.load who)).held x = some v →
      shared.held x = some v := by
    intro x v hne hx
    simpa [Shared.next, hne] using hx
  refine ⟨?_, fun x v hx => ?_, fun x v hx => ?_⟩
  · simp [Shared.next, saved, h.value]
  · by_cases hwho : x = who
    · simp [hwho]
    · exact List.mem_append_left _ (h.loaded x v (hother x v hwho hx))
  · by_cases hwho : x = who
    · subst hwho
      exact Or.inl (by simpa [Shared.next, eq_comm] using hx)
    · rcases h.current x v (hother x v hwho hx) with hv | ⟨other, change, hne, hsub⟩
      · exact Or.inl hv
      · exact Or.inr ⟨other, change, hne, hsub.trans (List.sublist_append_left _ _)⟩

theorem tracked_save {who : ι} {change : C} (h : Tracked apply value accesses shared)
    (hapart : Apart (accesses ++ [.save who change])) :
    Tracked apply value (accesses ++ [.save who change]) (shared.next apply (.save who change)) := by
  have hcopy : (shared.held who).getD shared.value = shared.value := by
    cases hheld : shared.held who with
    | none => rfl
    | some v =>
      rcases h.current who v hheld with hv | ⟨other, between, hne, hsub⟩
      · exact hv
      · exact absurd (hapart who other between change (hsub.append (List.Sublist.refl _))) hne
  have hother : ∀ x v, x ≠ who → (shared.next apply (.save who change)).held x = some v →
      shared.held x = some v := by
    intro x v hne hx
    simpa [Shared.next, hne] using hx
  have hself : ∀ v, (shared.next apply (.save who change)).held who = some v →
      (∃ w, shared.held who = some w) ∧ v = (shared.next apply (.save who change)).value := by
    intro v hx
    simp only [Shared.next, Function.update_self, Option.map_eq_some_iff] at hx
    obtain ⟨w, hw, hv⟩ := hx
    exact ⟨⟨w, hw⟩, hv.symm⟩
  refine ⟨?_, fun x v hx => ?_, fun x v hx => ?_⟩
  · show apply change ((shared.held who).getD shared.value) = _
    rw [hcopy, h.value]
    simp [saved, inOrder]
  · refine List.mem_append_left _ ?_
    by_cases hwho : x = who
    · subst hwho
      obtain ⟨⟨w, hw⟩, -⟩ := hself v hx
      exact h.loaded x w hw
    · exact h.loaded x v (hother x v hwho hx)
  · by_cases hwho : x = who
    · subst hwho
      exact Or.inl (hself v hx).2
    · have hload := h.loaded x v (hother x v hwho hx)
      exact Or.inr ⟨who, change, Ne.symm hwho,
        (List.singleton_sublist.mpr hload).append (List.Sublist.refl [Access.save who change])⟩

theorem tracked_after (hapart : Apart accesses) :
    Tracked apply value accesses ((Shared.start value).after apply accesses) := by
  induction accesses using List.reverseRecOn with
  | nil =>
    refine ⟨rfl, ?_, ?_⟩
    · intro who v h
      cases h
    · intro who v h
      cases h
  | append_singleton accesses access ih =>
    have hbefore := ih hapart.of_append
    rw [Shared.after_append]
    cases access with
    | load who => exact tracked_load hbefore
    | save who change => exact tracked_save hbefore hapart

/-- **No change is lost** when the parties keep apart. -/
theorem value_of_apart (hapart : Apart accesses) :
    ((Shared.start value).after apply accesses).value = inOrder apply (saved accesses) value :=
  (tracked_after hapart).value

end
end RlmGraph.Lib.Updates
