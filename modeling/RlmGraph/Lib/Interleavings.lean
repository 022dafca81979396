import Mathlib.Data.List.Basic

/-! # Interleaved parties

A run is a list of events from a state. An event belongs to a party, and a
party sees a part of the state. If events of the others leave that part alone,
and own events act on it as they act on the whole, then what a party sees after
a run is what its own events make of it (`alone`). -/
namespace RlmGraph.Lib.Interleavings

variable {σ ε : Type} {P : σ → ε → Prop} {I : σ → Prop} {step : σ → ε → σ}

/-- Each step of the run finds the state as `P` wants it. -/
def Along (P : σ → ε → Prop) (step : σ → ε → σ) : σ → List ε → Prop
  | _, [] => True
  | s, e :: events => P s e ∧ Along P step (step s e) events

/-- `P` holds along a run iff it holds after each part of it, of the event that
comes next. -/
theorem along_iff {s : σ} {events : List ε} :
    Along P step s events ↔
      ∀ before e rest, events = before ++ e :: rest → P (before.foldl step s) e := by
  induction events generalizing s with
  | nil => simp [Along]
  | cons e events ih =>
    simp only [Along, ih]
    constructor
    · rintro ⟨he, h⟩ before e' rest heq
      cases before with
      | nil =>
        obtain ⟨rfl, -⟩ := List.cons.inj heq
        exact he
      | cons first before =>
        obtain ⟨rfl, htail⟩ := List.cons.inj heq
        exact h before e' rest htail
    · intro h
      refine ⟨h [] e events rfl, fun before e' rest heq => ?_⟩
      exact h (e :: before) e' rest (by rw [heq, List.cons_append])

theorem along_append {s : σ} {events more : List ε} :
    Along P step s (events ++ more) ↔
      Along P step s events ∧ Along P step (events.foldl step s) more := by
  induction events generalizing s with
  | nil => simp [Along]
  | cons e events ih =>
    rw [List.cons_append, Along, Along, ih, and_assoc]
    rfl

theorem Along.and {Q : σ → ε → Prop} {s : σ} {events : List ε} (hP : Along P step s events)
    (hQ : Along Q step s events) : Along (fun s e => P s e ∧ Q s e) step s events := by
  induction events generalizing s with
  | nil => trivial
  | cons e events ih => exact ⟨⟨hP.1, hQ.1⟩, ih hP.2 hQ.2⟩

/-- What a step keeps where it finds `P`, a run keeps that finds `P` all along. -/
theorem Along.keeps {s : σ} {events : List ε} (h : Along P step s events)
    (hstep : ∀ s e, I s → P s e → I (step s e)) (hs : I s) : I (events.foldl step s) := by
  induction events generalizing s with
  | nil => exact hs
  | cons e events ih => exact ih h.2 (hstep s e hs h.1)

/-- What each step keeps, each run keeps. -/
theorem keeps {s : σ} (events : List ε) (hstep : ∀ s e, I s → I (step s e)) (hs : I s) :
    I (events.foldl step s) := by
  induction events generalizing s with
  | nil => exact hs
  | cons e events ih => exact ih (hstep s e hs)

/-- What a party sees after an interleaved run is what it sees after its own
events alone. -/
theorem Along.alone {s : σ} {events : List ε} (own : ε → Bool) (view : σ → σ)
    (h : Along P step s events) (hstep : ∀ s e, I s → P s e → I (step s e))
    (hown : ∀ s e, I s → P s e → own e = true → view (step s e) = step (view s) e)
    (hother : ∀ s e, I s → P s e → own e = false → view (step s e) = view s) (hs : I s) :
    view (events.foldl step s) = (events.filter own).foldl step (view s) := by
  induction events generalizing s with
  | nil => rfl
  | cons e events ih =>
    rw [List.foldl_cons, ih h.2 (hstep s e hs h.1)]
    cases he : own e with
    | true => rw [List.filter_cons_of_pos he, List.foldl_cons, hown s e hs h.1 he]
    | false => rw [List.filter_cons_of_neg (by simp [he]), hother s e hs h.1 he]

end RlmGraph.Lib.Interleavings
