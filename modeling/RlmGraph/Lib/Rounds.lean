/-! # Rounds until nothing changes

A round visits keys one after the other, and a visit says whether it changed
something. Rounds are made until one reports no change. The rules give what
holds after the last round: what every visit keeps, and what a visit without a
report leaves behind at each key. -/
namespace RlmGraph.Lib.Rounds

variable {σ κ : Type}

/-- The visits of one round, with the flag `changed`. -/
def sweep (visit : σ → κ → σ × Bool) : List κ → σ → σ × Bool
  | [], s => (s, false)
  | k :: keys, s =>
    let next := sweep visit keys (visit s k).1
    (next.1, (visit s k).2 || next.2)

/-- `while changed`: the state after a round that reports no change. -/
def whileChanged (round : σ → σ × Bool) : Nat → σ → Option σ
  | 0, _ => none
  | fuel + 1, s => if (round s).2 then whileChanged round fuel (round s).1 else some (round s).1

/-! ## One round -/

section
variable {visit : σ → κ → σ × Bool} {P : σ → Prop} {μ : σ → Nat}

theorem sweep_keeps (hvisit : ∀ s k, P s → P (visit s k).1) :
    ∀ (keys : List κ) (s : σ), P s → P (sweep visit keys s).1 := by
  intro keys
  induction keys with
  | nil => exact fun s h => h
  | cons k keys ih => exact fun s h => ih (visit s k).1 (hvisit s k h)

/-- What only shrinks does not grow in a round. -/
theorem sweep_le (hkeep : ∀ s k, P s → P (visit s k).1)
    (hle : ∀ s k, P s → μ (visit s k).1 ≤ μ s) :
    ∀ (keys : List κ) (s : σ), P s → μ (sweep visit keys s).1 ≤ μ s := by
  intro keys
  induction keys with
  | nil => exact fun s _ => Nat.le_refl _
  | cons k keys ih =>
    intro s h
    exact Nat.le_trans (ih (visit s k).1 (hkeep s k h)) (hle s k h)

/-- A round that reports a change has shrunk something. -/
theorem sweep_lt (hkeep : ∀ s k, P s → P (visit s k).1)
    (hle : ∀ s k, P s → μ (visit s k).1 ≤ μ s)
    (hlt : ∀ s k, P s → (visit s k).2 = true → μ (visit s k).1 < μ s) :
    ∀ (keys : List κ) (s : σ), P s → (sweep visit keys s).2 = true →
      μ (sweep visit keys s).1 < μ s := by
  intro keys
  induction keys with
  | nil =>
    intro s _ h
    cases h
  | cons k keys ih =>
    intro s hs hchanged
    have hrest := sweep_le hkeep hle keys (visit s k).1 (hkeep s k hs)
    rcases Bool.or_eq_true_iff.mp hchanged with h | h
    · exact Nat.lt_of_le_of_lt hrest (hlt s k hs h)
    · exact Nat.lt_of_lt_of_le (ih (visit s k).1 (hkeep s k hs) h) (hle s k hs)

/-- After a round without a report each key is as its visit left it, where
visits without a report disturb nothing of it. -/
theorem sweep_quiet {R : κ → σ → Prop} (hkeep : ∀ s k, P s → P (visit s k).1)
    (hvisit : ∀ s k, P s → (visit s k).2 = false → R k (visit s k).1)
    (hothers : ∀ s k k', P s → R k s → (visit s k').2 = false → R k (visit s k').1) :
    ∀ (keys : List κ) (s : σ), P s → (sweep visit keys s).2 = false →
      (∀ k, R k s → R k (sweep visit keys s).1) ∧ ∀ k ∈ keys, R k (sweep visit keys s).1 := by
  intro keys
  induction keys with
  | nil => exact fun s _ _ => ⟨fun k h => h, fun k hk => by cases hk⟩
  | cons k keys ih =>
    intro s hs hquiet
    obtain ⟨hfirst, hrest⟩ := Bool.or_eq_false_iff.mp hquiet
    obtain ⟨hstays, hlater⟩ := ih (visit s k).1 (hkeep s k hs) hrest
    refine ⟨fun j hj => hstays j (hothers s j k hs hj hfirst), ?_⟩
    intro j hj
    rcases List.mem_cons.mp hj with rfl | hj
    · exact hstays j (hvisit s j hs hfirst)
    · exact hlater j hj

end

/-! ## All rounds -/

section
variable {f : σ → σ × Bool} {P : σ → Prop} {μ : σ → Nat} {s t : σ}

/-- What rounds keep holds before the last round, which reports no change. -/
theorem whileChanged_spec (hkeep : ∀ s, P s → P (f s).1) {fuel : Nat} (hs : P s)
    (h : whileChanged f fuel s = some t) : ∃ r, P r ∧ f r = (t, false) := by
  induction fuel generalizing s with
  | zero => cases h
  | succ fuel ih =>
    rw [whileChanged] at h
    split at h
    · exact ih (hkeep s hs) h
    · rename_i hlast
      refine ⟨s, hs, Prod.ext (Option.some.inj h) ?_⟩
      simpa using hlast

/-- **The rounds end**: each that reports a change shrinks a number. -/
theorem whileChanged_returns (hkeep : ∀ s, P s → P (f s).1)
    (hlt : ∀ s, P s → (f s).2 = true → μ (f s).1 < μ s) (hs : P s) :
    ∃ t, ∀ fuel, μ s < fuel → whileChanged f fuel s = some t := by
  induction hn : μ s using Nat.strongRecOn generalizing s with
  | ind n ih =>
    by_cases hchanged : (f s).2 = true
    · obtain ⟨t, ht⟩ := ih _ (hn ▸ hlt s hs hchanged) (hkeep s hs) rfl
      refine ⟨t, fun fuel hfuel => ?_⟩
      obtain ⟨fuel, rfl⟩ : ∃ f, fuel = f + 1 := ⟨fuel - 1, by omega⟩
      rw [whileChanged, if_pos hchanged]
      have hless := hlt s hs hchanged
      exact ht fuel (by omega)
    · refine ⟨(f s).1, fun fuel hfuel => ?_⟩
      obtain ⟨fuel, rfl⟩ : ∃ f, fuel = f + 1 := ⟨fuel - 1, by omega⟩
      rw [whileChanged, if_neg hchanged]

end

end RlmGraph.Lib.Rounds
