import Mathlib.Data.List.SplitBy
import Mathlib.Data.List.TakeDrop

/-! # Two ways to cut a text into lines

`List.splitBy r` cuts a list between two neighbours that `r` does not relate. A
range of lines denotes a region of the text (`region`). If one way of cutting
cuts wherever another does, a range denotes the same region under both exactly
if no line up to its end is cut further (`region_eq_iff`). -/
namespace RlmGraph.Lib.Lines

variable {α : Type} {r s : α → α → Bool} {text : List α}

/-! ## A finer cut -/

theorem splitBy_flatten_of_isChain (hfiner : ∀ x y, s x y = true → r x y = true)
    {lines : List (List α)}
    (h : lines.IsChain fun a b => ∃ ha hb, r (a.getLast ha) (b.head hb) = false) :
    lines.flatten.splitBy s = lines.flatMap (List.splitBy s) := by
  induction lines with
  | nil => rfl
  | cons line lines ih =>
    rw [List.flatten_cons, List.flatMap_cons, List.splitBy_append, ih h.tail]
    intro x hx y hy
    cases lines with
    | nil => simp at hy
    | cons next lines =>
      obtain ⟨hline, hnext, hcut⟩ := (List.isChain_cons_cons.mp h).1
      have hlast : line.getLast hline = x := List.getLast_of_mem_getLast? hx
      have hhead : next.head hnext = y := by
        rw [List.flatten_cons, List.head?_append_of_ne_nil _ hnext] at hy
        exact List.head_of_mem_head? hy
      rw [hlast, hhead] at hcut
      cases hfine : s x y with
      | false => rfl
      | true => rw [hfiner x y hfine] at hcut; cases hcut

/-- The finer cut cuts every line of the coarser one. -/
theorem splitBy_eq_flatMap (hfiner : ∀ x y, s x y = true → r x y = true) (text : List α) :
    text.splitBy s = (text.splitBy r).flatMap (List.splitBy s) := by
  rw [← splitBy_flatten_of_isChain hfiner (List.isChain_getLast_head_splitBy r text),
    List.flatten_splitBy]

theorem length_splitBy_eq_one_iff {line : List α} (hline : line ≠ []) :
    (line.splitBy s).length = 1 ↔ line.IsChain fun x y => s x y := by
  constructor
  · intro h
    obtain ⟨only, honly⟩ := List.length_eq_one_iff.mp h
    have hsame : only = line := by
      have hflatten := List.flatten_splitBy s line
      rwa [honly, List.flatten_singleton] at hflatten
    have hmem : line ∈ line.splitBy s := by
      rw [honly, hsame]
      exact List.mem_singleton.mpr rfl
    exact List.isChain_of_mem_splitBy hmem
  · intro h
    rw [List.splitBy_of_isChain hline h]
    rfl

/-! ## Ranges of lines -/

/-- The lines from `start` up to `stop`. -/
def slice (start stop : Nat) (lines : List (List α)) : List (List α) := (lines.take stop).drop start

/-- What a range of lines denotes: what is in front of it, and its text. -/
def region (start stop : Nat) (lines : List (List α)) : List α × List α :=
  ((lines.take start).flatten, (slice start stop lines).flatten)

theorem take_append_slice {start stop : Nat} (h : start ≤ stop) (lines : List (List α)) :
    lines.take start ++ slice start stop lines = lines.take stop := by
  have hsplit := List.take_append_drop start (lines.take stop)
  rwa [List.take_take, min_eq_left h] at hsplit

/-- A range of the lines of a text is cut into the same lines on its own. -/
theorem splitBy_slice (start stop : Nat) :
    (slice start stop (text.splitBy r)).flatten.splitBy r = slice start stop (text.splitBy r) := by
  have hpart : slice start stop (text.splitBy r) <:+: text.splitBy r :=
    (List.drop_suffix start _).isInfix.trans (List.take_prefix stop _).isInfix
  refine List.splitBy_flatten ?_ ?_ ?_
  · exact fun hnil => List.nil_notMem_splitBy r text (hpart.subset hnil)
  · exact fun line hline => List.isChain_of_mem_splitBy (hpart.subset hline)
  · exact ((List.isChain_getLast_head_splitBy r text).take stop).drop start

/-- Two lists of nonempty pieces, one in front of the other, have one text only
if they are the same. -/
theorem flatten_take_eq_iff {pieces : List (List α)} (hpieces : [] ∉ pieces) {n : Nat} :
    (pieces.take n).flatten = pieces.flatten ↔ pieces.length ≤ n := by
  constructor
  · intro h
    have hsplit : (pieces.take n).flatten ++ (pieces.drop n).flatten = pieces.flatten := by
      rw [← List.flatten_append, List.take_append_drop]
    rw [h] at hsplit
    have hrest := List.append_right_eq_self.mp hsplit
    rw [List.flatten_eq_nil_iff] at hrest
    rw [← List.drop_eq_nil_iff]
    by_contra hne
    obtain ⟨piece, hpiece⟩ := List.exists_mem_of_ne_nil _ hne
    have hempty := hrest piece hpiece
    rw [hempty] at hpiece
    exact hpieces (List.mem_of_mem_drop hpiece)
  · intro h
    rw [List.take_of_length_le h]

theorem length_le_flatMap {β : Type} {f : β → List α} {xs : List β} (hf : ∀ x ∈ xs, f x ≠ []) :
    xs.length ≤ (xs.flatMap f).length := by
  induction xs with
  | nil => exact Nat.zero_le _
  | cons x xs ih =>
    have hx : 0 < (f x).length := List.length_pos_iff.mpr (hf x List.mem_cons_self)
    have hxs := ih fun y hy => hf y (List.mem_cons_of_mem x hy)
    rw [List.flatMap_cons, List.length_append, List.length_cons]
    omega

theorem length_flatMap_le_iff {β : Type} {f : β → List α} {xs : List β} (hf : ∀ x ∈ xs, f x ≠ []) :
    (xs.flatMap f).length ≤ xs.length ↔ ∀ x ∈ xs, (f x).length = 1 := by
  induction xs with
  | nil => simp
  | cons x xs ih =>
    have hx : 0 < (f x).length := List.length_pos_iff.mpr (hf x List.mem_cons_self)
    have hxs : ∀ y ∈ xs, f y ≠ [] := fun y hy => hf y (List.mem_cons_of_mem x hy)
    have hrest := length_le_flatMap hxs
    rw [List.flatMap_cons, List.length_append, List.length_cons, List.forall_mem_cons, ← ih hxs]
    omega

theorem flatten_flatMap_splitBy (lines : List (List α)) :
    (lines.flatMap (List.splitBy s)).flatten = lines.flatten := by
  induction lines with
  | nil => rfl
  | cons line lines ih =>
    rw [List.flatMap_cons, List.flatten_append, List.flatten_splitBy, ih, List.flatten_cons]

/-- The first lines of the finer cut are the first lines of the coarser one
exactly if these are not cut further. -/
theorem take_flatten_eq_iff (hfiner : ∀ x y, s x y = true → r x y = true) {n : Nat}
    (hn : n ≤ (text.splitBy r).length) :
    ((text.splitBy s).take n).flatten = ((text.splitBy r).take n).flatten ↔
      ∀ line ∈ (text.splitBy r).take n, line.IsChain fun x y => s x y := by
  have hlines : ∀ line ∈ (text.splitBy r).take n, line ≠ [] := fun line hline =>
    List.ne_nil_of_mem_splitBy (List.mem_of_mem_take hline)
  have hcut : ∀ line ∈ (text.splitBy r).take n, line.splitBy s ≠ [] := fun line hline =>
    List.splitBy_ne_nil.mpr (hlines line hline)
  have hcount : ((text.splitBy r).take n).length = n := by rw [List.length_take, min_eq_left hn]
  have hmany : n ≤ (((text.splitBy r).take n).flatMap (List.splitBy s)).length := by
    have hle := length_le_flatMap hcut
    rwa [hcount] at hle
  have hfirst : (text.splitBy s).take n =
      (((text.splitBy r).take n).flatMap (List.splitBy s)).take n := by
    rw [splitBy_eq_flatMap hfiner text]
    conv_lhs => rw [← List.take_append_drop n (text.splitBy r), List.flatMap_append]
    exact List.take_append_of_le_length hmany
  have hflatten : (((text.splitBy r).take n).flatMap (List.splitBy s)).flatten =
      ((text.splitBy r).take n).flatten := by
    exact flatten_flatMap_splitBy _
  have hpieces : [] ∉ ((text.splitBy r).take n).flatMap (List.splitBy s) := by
    intro hnil
    obtain ⟨line, -, hline⟩ := List.mem_flatMap.mp hnil
    exact List.nil_notMem_splitBy s line hline
  rw [hfirst, ← hflatten, flatten_take_eq_iff hpieces]
  have hone := length_flatMap_le_iff hcut
  rw [hcount] at hone
  rw [hone]
  exact forall₂_congr fun line hline => length_splitBy_eq_one_iff (hlines line hline)

/-- **A range denotes one region under both cuts exactly if no line up to its
end is cut further.** -/
theorem region_eq_iff (hfiner : ∀ x y, s x y = true → r x y = true) {start stop : Nat}
    (hstart : start ≤ stop) (hstop : stop ≤ (text.splitBy r).length) :
    region start stop (text.splitBy s) = region start stop (text.splitBy r) ↔
      ∀ line ∈ (text.splitBy r).take stop, line.IsChain fun x y => s x y := by
  have hsplit : ∀ lines : List (List α), (lines.take start).flatten ++ (slice start stop lines).flatten =
      (lines.take stop).flatten := fun lines => by
    rw [← List.flatten_append, take_append_slice hstart]
  rw [← take_flatten_eq_iff hfiner hstop, ← hsplit, ← hsplit]
  constructor
  · intro h
    obtain ⟨hbefore, htext⟩ := Prod.mk.inj h
    rw [hbefore, htext]
  · intro h
    have hchain := (take_flatten_eq_iff hfiner hstop).mp (by rw [← hsplit, ← hsplit, h])
    have hbefore := (take_flatten_eq_iff hfiner (hstart.trans hstop)).mpr fun line hline =>
      hchain line (List.take_subset_take_left _ hstart hline)
    rw [hbefore] at h
    exact Prod.ext hbefore (List.append_cancel_left h)

end RlmGraph.Lib.Lines
