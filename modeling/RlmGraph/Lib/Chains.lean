import Mathlib.Logic.Function.Basic
import Mathlib.Logic.Relation

/-! # Chains of a partial function

Where every element has at most one next element, a chain goes on from each
element. When all chains end there is no cycle (`Ends.acyclic`), and a new link
keeps this exactly when it does not lead back to where it starts
(`ends_update_iff`). -/
namespace RlmGraph.Lib.Chains
open Relation

variable {α : Type*} {next : α → Option α} {a b c x y : α}

def Next (next : α → Option α) (a b : α) : Prop := next a = some b

/-- The chain from `a` comes to `b`. -/
def Leads (next : α → Option α) : α → α → Prop := ReflTransGen (Next next)

/-- Every chain comes to an element without a next one. -/
def Ends (next : α → Option α) : Prop := ∀ a, ∃ e, Leads next a e ∧ next e = none

def Acyclic (next : α → Option α) : Prop := ∀ a, ¬ TransGen (Next next) a a

theorem Leads.eq_of_end (h : Leads next a b) (hend : next a = none) : b = a := by
  rcases h.cases_head with heq | ⟨c, hnext, -⟩
  · exact heq.symm
  · rw [Next, hend] at hnext
    cases hnext

/-- There is no way back into a chain that ends. -/
theorem Leads.acyclic (h : Leads next a b) (hend : next b = none) :
    ¬ TransGen (Next next) a a := by
  induction h using ReflTransGen.head_induction_on with
  | refl =>
    intro hcycle
    obtain ⟨c, hnext, -⟩ := TransGen.head'_iff.mp hcycle
    rw [Next, hend] at hnext
    cases hnext
  | head hnext _ ih =>
    intro hcycle
    obtain ⟨c, hnext', hback⟩ := TransGen.head'_iff.mp hcycle
    obtain rfl := Option.some.inj (hnext.symm.trans hnext')
    exact ih (TransGen.tail' hback hnext)

theorem Ends.acyclic (h : Ends next) : Acyclic next := by
  intro a
  obtain ⟨e, hlead, hend⟩ := h a
  exact hlead.acyclic hend

section
variable [DecidableEq α]

theorem Leads.update (h : Leads next x y) (ha : next a = none) :
    Leads (Function.update next a (some b)) x y := by
  refine ReflTransGen.mono (fun u v hnext => ?_) x y h
  have hne : u ≠ a := by
    rintro rfl
    rw [Next, ha] at hnext
    cases hnext
  rw [Next, Function.update_of_ne hne]
  exact hnext

/-- A link whose end does not lead back to its start keeps the chains ending. -/
theorem Ends.update (h : Ends next) (ha : next a = none) (hb : ¬ Leads next b a) :
    Ends (Function.update next a (some b)) := by
  have hend : ∀ e, next e = none → e ≠ a → Function.update next a (some b) e = none :=
    fun e he hne => by rw [Function.update_of_ne hne, he]
  intro x
  obtain ⟨e, hlead, he⟩ := h x
  by_cases hne : e = a
  · subst hne
    obtain ⟨e', hlead', he'⟩ := h b
    have hnext : Next (Function.update next e (some b)) e b := Function.update_self ..
    refine ⟨e', ((hlead.update ha).tail hnext).trans (hlead'.update ha), hend e' he' ?_⟩
    rintro rfl
    exact hb hlead'
  · exact ⟨e, hlead.update ha, hend e he hne⟩

/-- A link that leads back to its start closes a cycle. -/
theorem cycle_of_leads (ha : next a = none) (hb : Leads next b a) :
    TransGen (Next (Function.update next a (some b))) a a :=
  TransGen.head' (Function.update_self ..) (hb.update ha)

theorem ends_update_iff (h : Ends next) (ha : next a = none) :
    Ends (Function.update next a (some b)) ↔ ¬ Leads next b a := by
  constructor
  · intro hends hlead
    exact hends.acyclic a (cycle_of_leads ha hlead)
  · exact h.update ha

end

end RlmGraph.Lib.Chains
