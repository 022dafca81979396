import Mathlib.Data.List.Basic
import Mathlib.Data.List.Infix

/-! # Logs

A log is only appended to. Each of its entries was appended by an event of the
run, to the log that held the entries before it (`entry_appended`). -/
namespace RlmGraph.Lib.Logs

variable {σ ε α : Type} {step : σ → ε → σ} {log : σ → List α}

/-- The event appends at most one entry, and one that `P` holds of. -/
def Appends (log : σ → List α) (step : σ → ε → σ) (P : σ → ε → α → Prop) : Prop :=
  ∀ s e, log (step s e) = log s ∨ ∃ a, log (step s e) = log s ++ [a] ∧ P s e a

theorem log_prefix {P : σ → ε → α → Prop} (h : Appends log step P) (s : σ) (events : List ε) :
    log s <+: log (events.foldl step s) := by
  induction events generalizing s with
  | nil => exact List.prefix_refl _
  | cons e events ih =>
    refine List.IsPrefix.trans ?_ (ih (step s e))
    rcases h s e with heq | ⟨a, heq, -⟩
    · rw [heq]
    · exact ⟨[a], heq.symm⟩

/-- **Where an entry comes from.** -/
theorem entry_appended {P : σ → ε → α → Prop} (h : Appends log step P) {s : σ} {events : List ε}
    (hs : log s = []) {i : Nat} {a : α} (hi : (log (events.foldl step s))[i]? = some a) :
    ∃ before e, before ++ [e] <+: events ∧
      log (before.foldl step s) = (log (events.foldl step s)).take i ∧
      (log (before.foldl step s)).length = i ∧ P (before.foldl step s) e a := by
  induction events using List.reverseRecOn with
  | nil =>
    rw [List.foldl_nil, hs] at hi
    cases hi
  | append_singleton events e ih =>
    rw [List.foldl_append] at hi ⊢
    rcases h (events.foldl step s) e with heq | ⟨b, heq, hb⟩
    · simp only [List.foldl_cons, List.foldl_nil, heq] at hi ⊢
      obtain ⟨before, e', hprefix, hrest⟩ := ih hi
      exact ⟨before, e', hprefix.trans (List.prefix_append _ _), hrest⟩
    · simp only [List.foldl_cons, List.foldl_nil, heq] at hi ⊢
      rcases Nat.lt_trichotomy i (log (events.foldl step s)).length with hlt | heq' | hgt
      · rw [List.getElem?_append_left hlt] at hi
        rw [List.take_append_of_le_length (Nat.le_of_lt hlt)]
        obtain ⟨before, e', hprefix, hrest⟩ := ih hi
        exact ⟨before, e', hprefix.trans (List.prefix_append _ _), hrest⟩
      · rw [heq', List.getElem?_concat_length] at hi
        obtain rfl := Option.some.inj hi
        refine ⟨events, e, List.prefix_refl _, ?_, heq'.symm, hb⟩
        rw [heq', List.take_left]
      · rw [List.getElem?_eq_none (by rw [List.length_append, List.length_singleton]; omega)] at hi
        cases hi

end RlmGraph.Lib.Logs
