import Mathlib.Data.List.Forall2

/-! # Results and exceptions

Inversion of computations that return a result or raise. -/
namespace RlmGraph.Lib.Results

variable {ε α β : Type}

theorem bind_ok {x : Except ε α} {f : α → Except ε β} {b : β} (h : x >>= f = .ok b) :
    ∃ a, x = .ok a ∧ f a = .ok b := by
  cases x with
  | error e => cases h
  | ok a => exact ⟨a, rfl, h⟩

theorem bind_error {x : Except ε α} {f : α → Except ε β} {e : ε} (h : x >>= f = .error e) :
    x = .error e ∨ ∃ a, x = .ok a ∧ f a = .error e := by
  cases x with
  | error e' =>
    cases h
    exact .inl rfl
  | ok a => exact .inr ⟨a, rfl, h⟩

/-- A guard in front of a result. -/
theorem ite_throw_ok {c : Prop} [Decidable c] {e : ε} {x : Except ε α} {a : α}
    (h : (if c then throw e else x) = .ok a) : ¬c ∧ x = .ok a := by
  by_cases hc : c
  · rw [if_pos hc] at h
    cases h
  · exact ⟨hc, by rwa [if_neg hc] at h⟩

/-- A guard in front of a block that goes on. -/
theorem ite_throw_bind_ok {c : Prop} [Decidable c] {e : ε} {f : β → Except ε α} {x : Except ε α}
    {a : α} (h : (if c then throw e >>= f else x) = .ok a) : ¬c ∧ x = .ok a :=
  ite_throw_ok (e := e) h

/-- A mapped list, result by result. -/
theorem mapM_ok {f : α → Except ε β} {xs : List α} {ys : List β} (h : xs.mapM f = .ok ys) :
    List.Forall₂ (fun x y => f x = .ok y) xs ys := by
  induction xs generalizing ys with
  | nil => cases h; exact .nil
  | cons x xs ih =>
    rw [List.mapM_cons] at h
    obtain ⟨y, hy, h⟩ := bind_ok h
    obtain ⟨rest, hrest, h⟩ := bind_ok h
    cases h
    exact .cons hy (ih hrest)

/-- A list without an element that raises is mapped. -/
theorem exists_mapM_ok {f : α → Except ε β} {xs : List α} (h : ∀ x ∈ xs, ∃ y, f x = .ok y) :
    ∃ ys, xs.mapM f = .ok ys := by
  induction xs with
  | nil => exact ⟨[], rfl⟩
  | cons x xs ih =>
    obtain ⟨⟨y, hy⟩, hrest⟩ := List.forall_mem_cons.mp h
    obtain ⟨ys, hys⟩ := ih hrest
    refine ⟨y :: ys, ?_⟩
    rw [List.mapM_cons, hy, hys]
    rfl

/-- Every result has its source. -/
theorem mem_of_forall₂ {R : α → β → Prop} {xs : List α} {ys : List β} (h : List.Forall₂ R xs ys)
    {y : β} (hy : y ∈ ys) : ∃ x ∈ xs, R x y := by
  induction h with
  | nil => cases hy
  | @cons x y' xs ys hxy _ ih =>
    cases hy with
    | head => exact ⟨x, List.mem_cons_self, hxy⟩
    | tail _ hy =>
      obtain ⟨x', hx', hR⟩ := ih hy
      exact ⟨x', List.mem_cons_of_mem x hx', hR⟩

/-- Every source stands beside its result. -/
theorem exists_zip_of_forall₂ {R : α → β → Prop} {xs : List α} {ys : List β} (h : List.Forall₂ R xs ys)
    {x : α} (hx : x ∈ xs) : ∃ y, (x, y) ∈ xs.zip ys := by
  induction h with
  | nil => cases hx
  | @cons x' y xs ys _ _ ih =>
    cases hx with
    | head => exact ⟨y, List.mem_cons_self⟩
    | tail _ hx =>
      obtain ⟨y', hy'⟩ := ih hx
      exact ⟨y', List.mem_cons_of_mem _ hy'⟩

/-- Every result stands beside its source. -/
theorem exists_zip_of_mem_forall₂ {R : α → β → Prop} {xs : List α} {ys : List β}
    (h : List.Forall₂ R xs ys) {y : β} (hy : y ∈ ys) : ∃ x, (x, y) ∈ xs.zip ys := by
  induction h with
  | nil => cases hy
  | @cons x y' xs ys _ _ ih =>
    cases hy with
    | head => exact ⟨x, List.mem_cons_self⟩
    | tail _ hy =>
      obtain ⟨x', hx'⟩ := ih hy
      exact ⟨x', List.mem_cons_of_mem _ hx'⟩

/-- Every source has its result. -/
theorem exists_of_forall₂ {R : α → β → Prop} {xs : List α} {ys : List β} (h : List.Forall₂ R xs ys)
    {x : α} (hx : x ∈ xs) : ∃ y ∈ ys, R x y := by
  induction h with
  | nil => cases hx
  | @cons x' y xs ys hxy _ ih =>
    cases hx with
    | head => exact ⟨y, List.mem_cons_self, hxy⟩
    | tail _ hx =>
      obtain ⟨y', hy', hR⟩ := ih hx
      exact ⟨y', List.mem_cons_of_mem y hy', hR⟩

end RlmGraph.Lib.Results
