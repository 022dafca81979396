import Mathlib.Logic.Function.Basic
import Mathlib.Data.List.Basic

/-! # Interleaved hash chains

A log holds the rows of several chains, one chain for each key, in one table.
Every row carries its place in the chain of its key, the digest of the row
before it and its own digest. `Chained` says that each key's rows form a chain
from place 1; appending at the tip keeps it (`Chained.append`), and a single
pass over the log with one remembered tip for each key sees every row at its
own place (`scan_eq_nil`). Nothing is assumed about the digests. -/
namespace RlmGraph.Lib.HashChain

/-- How a row is read as a link of a chain. -/
structure Link (κ ρ δ : Type) where
  key : ρ → κ
  sequence : ρ → Nat
  previous : ρ → Option δ
  digest : ρ → δ

/-- A place in a chain: the number and the digest of the last row, if any. -/
abbrev Tip (δ : Type) := Option (Nat × δ)

variable {κ ρ δ : Type} (link : Link κ ρ δ)

def nextSequence (tip : Tip δ) : Nat := tip.elim 1 (·.1 + 1)

def tipDigest (tip : Tip δ) : Option δ := tip.map (·.2)

def Link.tipOf (r : ρ) : Tip δ := some (link.sequence r, link.digest r)

/-- The row continues the chain at a tip. -/
structure Continues (tip : Tip δ) (r : ρ) : Prop where
  sequence : link.sequence r = nextSequence tip
  previous : link.previous r = tipDigest tip

def Linked (tip : Tip δ) : List ρ → Prop
  | [] => True
  | r :: rows => Continues link tip r ∧ Linked (link.tipOf r) rows

/-- The tip after the rows of one chain. -/
def endTip (tip : Tip δ) (rows : List ρ) : Tip δ := rows.foldl (fun _ r => link.tipOf r) tip

/-! ## One chain -/

variable {link}

theorem linked_append {tip : Tip δ} {rows : List ρ} {r : ρ} :
    Linked link tip (rows ++ [r]) ↔
      Linked link tip rows ∧ Continues link (endTip link tip rows) r := by
  induction rows generalizing tip with
  | nil => simp [Linked, endTip]
  | cons q rows ih => simp [Linked, endTip, ih, and_assoc]

/-- **The places of a chain are contiguous.** -/
theorem Linked.sequences {tip : Tip δ} {rows : List ρ} (h : Linked link tip rows) :
    rows.map link.sequence = List.range' (nextSequence tip) rows.length := by
  induction rows generalizing tip with
  | nil => rfl
  | cons r rows ih =>
    obtain ⟨hr, hrows⟩ := h
    rw [List.map_cons, List.length_cons, List.range'_succ, ih hrows, hr.sequence]
    simp [nextSequence, Link.tipOf, hr.sequence]

/-- The places grow along a chain. -/
theorem Linked.pairwise {tip : Tip δ} {rows : List ρ} (h : Linked link tip rows) :
    rows.Pairwise fun a b => link.sequence a < link.sequence b := by
  have hpair : (rows.map link.sequence).Pairwise (· < ·) := by
    rw [h.sequences]; exact List.pairwise_lt_range'
  exact List.pairwise_map.mp hpair

theorem endTip_eq_getLast? (tip : Tip δ) (rows : List ρ) :
    endTip link tip rows = rows.getLast?.elim tip link.tipOf := by
  induction rows generalizing tip with
  | nil => rfl
  | cons r rows ih =>
    rw [endTip, List.foldl_cons, ← endTip, ih, List.getLast?_cons]
    cases rows.getLast? <;> rfl

/-- The place after the last row. -/
theorem nextSequence_endTip {tip : Tip δ} {rows : List ρ} (h : Linked link tip rows) :
    nextSequence (endTip link tip rows) = nextSequence tip + rows.length := by
  induction rows generalizing tip with
  | nil => rfl
  | cons r rows ih =>
    obtain ⟨hr, hrows⟩ := h
    have hnext : nextSequence (link.tipOf r) = nextSequence tip + 1 := by
      rw [← hr.sequence]
      rfl
    show nextSequence (endTip link (link.tipOf r) rows) = _
    rw [ih hrows, hnext, List.length_cons]
    omega

/-! ## The log -/

variable [DecidableEq κ]

def chainOf (link : Link κ ρ δ) (k : κ) (rows : List ρ) : List ρ := rows.filter (link.key · = k)

/-- Each key's rows form a chain from the first place. -/
def Chained (link : Link κ ρ δ) (rows : List ρ) : Prop := ∀ k, Linked link none (chainOf link k rows)

theorem chainOf_cons (k : κ) (r : ρ) (rows : List ρ) :
    chainOf link k (r :: rows) =
      if link.key r = k then r :: chainOf link k rows else chainOf link k rows := by
  unfold chainOf
  rw [List.filter_cons]
  split <;> simp_all

theorem chainOf_append (k : κ) (rows : List ρ) (r : ρ) :
    chainOf link k (rows ++ [r]) =
      if link.key r = k then chainOf link k rows ++ [r] else chainOf link k rows := by
  unfold chainOf
  rw [List.filter_append]
  split <;> simp_all

/-- **Appending at the tip of its own chain keeps every chain.** -/
theorem Chained.append {rows : List ρ} {r : ρ} (h : Chained link rows)
    (hr : Continues link (endTip link none (chainOf link (link.key r) rows)) r) :
    Chained link (rows ++ [r]) := by
  intro k
  rw [chainOf_append]
  split
  · rename_i hk
    subst hk
    exact linked_append.mpr ⟨h _, hr⟩
  · exact h k

/-- Sorting by key and place leaves every chain as it is. -/
theorem chainOf_sorted {rows : List ρ} {le : ρ → ρ → Bool}
    (htrans : ∀ a b c, le a b = true → le b c = true → le a c = true)
    (htotal : ∀ a b, (le a b || le b a) = true)
    (hle : ∀ a b, link.key a = link.key b → link.sequence a < link.sequence b → le a b = true)
    (h : Chained link rows) (k : κ) :
    chainOf link k (rows.mergeSort le) = chainOf link k rows := by
  have hsorted : (chainOf link k rows).Pairwise (le · ·) := by
    refine (h k).pairwise.imp_of_mem fun {a b} ha hb hlt => hle a b ?_ hlt
    have hka : link.key a = k := by simpa using (List.mem_filter.mp ha).2
    have hkb : link.key b = k := by simpa using (List.mem_filter.mp hb).2
    rw [hka, hkb]
  have hsub : (chainOf link k rows).Sublist (rows.mergeSort le) :=
    List.sublist_mergeSort htrans htotal hsorted List.filter_sublist
  have hfil : (chainOf link k rows).Sublist (chainOf link k (rows.mergeSort le)) := by
    have := hsub.filter (link.key · = k)
    simp only [chainOf, List.filter_filter, Bool.and_self] at this
    exact this
  refine (hfil.eq_of_length ?_).symm
  exact ((List.mergeSort_perm rows le).filter _).length_eq.symm

/-! ## One pass over the log -/

/-- Reading the log once: `check` sees the row and the tip of its chain, gives
what it found wrong, and says whether the row's place is to be remembered. -/
def scan {ε : Type} (link : Link κ ρ δ) (check : Tip δ → ρ → List ε × Bool) (tips : κ → Tip δ) :
    List ρ → List ε
  | [] => []
  | r :: rows =>
    (check (tips (link.key r)) r).1 ++ scan link check
      (if (check (tips (link.key r)) r).2 then Function.update tips (link.key r) (link.tipOf r)
        else tips) rows

/-- **A pass over chained rows finds nothing**, when the check of a row that
continues its chain finds nothing. -/
theorem scan_eq_nil {ε : Type} {check : Tip δ → ρ → List ε × Bool} {rows : List ρ} {tips : κ → Tip δ}
    (hchain : ∀ k, Linked link (tips k) (chainOf link k rows))
    (hcheck : ∀ r ∈ rows, ∀ tip, Continues link tip r → check tip r = ([], true)) :
    scan link check tips rows = [] := by
  induction rows generalizing tips with
  | nil => rfl
  | cons r rows ih =>
    have hr : Continues link (tips (link.key r)) r := by
      have := hchain (link.key r)
      rw [chainOf_cons, if_pos rfl] at this
      exact this.1
    have hrow := hcheck r (List.mem_cons_self ..) _ hr
    rw [scan, hrow]
    refine ih (fun k => ?_) fun q hq => hcheck q (List.mem_cons_of_mem _ hq)
    have hk := hchain k
    by_cases he : link.key r = k
    · subst he
      rw [chainOf_cons, if_pos rfl] at hk
      simpa using hk.2
    · rw [chainOf_cons, if_neg he] at hk
      simpa [Function.update, Ne.symm he] using hk

end RlmGraph.Lib.HashChain
