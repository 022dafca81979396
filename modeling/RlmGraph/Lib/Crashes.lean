import RlmGraph.Lib.Programs

/-! # Programs that are stopped

A process may end between any two operations of a program, and what it has done
by then stays. An invariant that the operations keep, where they meet their
assertion, holds of what a program leaves wherever it is stopped (`wp_leave`),
and the operations performed by then have met their assertion (`wp_performed`). -/
namespace RlmGraph.Lib.Programs

variable {Op : Type} {Reply : Op → Type} {S α : Type}

/-- The state that is left, by a complete execution or by one that is stopped
after some operations. -/
def Prog.leave (sem : Meaning Op Reply S) (stop : Option Nat) (p : Prog Op Reply α) (s : S) : S :=
  match stop with
  | none => (p.exec sem s).2
  | some n => p.after sem n s

/-- The operations performed, each with the state it finds. -/
def Prog.performed (sem : Meaning Op Reply S) (stop : Option Nat) (p : Prog Op Reply α) (s : S) :
    List (Op × S) :=
  match stop with
  | none => p.steps sem s
  | some n => (p.steps sem s).take n

section
variable {G : Op → S → Prop} {sem : Meaning Op Reply S} {p : Prog Op Reply α}
  {Q : α → S → Prop} {I : S → Prop} {s : S}

theorem wp_leave (hI : ∀ o s, G o s → I s → I (sem o s).2) (h : p.wp (guarded G sem) Q s)
    (hs : I s) (stop : Option Nat) : I (p.leave sem stop s) := by
  cases stop with
  | none =>
    induction p generalizing s with
    | done a => exact hs
    | op o next ih => exact ih _ h.2 (hI o s h.1 hs)
  | some n =>
    change I (p.after sem n s)
    induction n generalizing p s with
    | zero => exact hs
    | succ n ih =>
      cases p with
      | done a => exact hs
      | op o next => exact ih h.2 (hI o s h.1 hs)

theorem wp_performed (h : p.wp (guarded G sem) Q s) (stop : Option Nat) :
    ∀ x ∈ p.performed sem stop s, G x.1 x.2 := by
  intro x hx
  cases stop with
  | none => exact wp_steps h x hx
  | some n => exact wp_steps h x (List.mem_of_mem_take hx)

end
end RlmGraph.Lib.Programs
