import Mathlib.Algebra.Order.Ring.Int
import Mathlib.Algebra.BigOperators.Group.List.Basic
import Mathlib.Data.List.Induction
import Mathlib.Data.List.Basic

/-! # Edits of a list, in turn and at once

A splice puts new content in the place of some positions of a list, or after
them. Positions are those of the original list. Splices are made in turn, from
the back, each on what the ones before it have left (`inTurn`); at once, every
splice is made on the original (`atOnce`). To tell where a piece of the result
comes from, the same splices are made on the numbered positions (`trace`). Of
nested splices the outer one goes astray if the inner ones change the number of
positions before its end: the two agree exactly if they do not
(`trace_eq_iff`). -/
namespace RlmGraph.Lib.Splices

variable {C α : Type}

/-- Content for the positions from `start` up to `stop`, or after them. -/
structure Splice (C : Type) where
  start : Nat
  stop : Nat
  replaces : Bool
  content : C
  deriving DecidableEq

/-! ## In turn -/

/-- One splice of a list. The new piece may depend on the one at the start. -/
def Splice.on (make : Option α → Splice C → α) (e : Splice C) (lines : List α) : List α :=
  lines.take (if e.replaces then e.start else e.stop) ++ make lines[e.start]? e :: lines.drop e.stop

def inTurn (make : Option α → Splice C → α) (es : List (Splice C)) (lines : List α) : List α :=
  es.foldl (fun lines e => e.on make lines) lines

/-- Where a piece of the result comes from. -/
inductive Piece (C : Type) where
  | line (i : Nat)
  | content (e : Splice C)

/-- The first positions, as they are. -/
def numbered (n : Nat) : List (Piece C) := (List.range n).map .line

/-- The splices in turn, on the positions of a list of length `n`. -/
def trace (n : Nat) (es : List (Splice C)) : List (Piece C) :=
  inTurn (fun _ e => .content e) es (numbered n)

/-! ## At once -/

/-- A position, or the content that replaces it and what follows. -/
def kept (es : List (Splice C)) (i : Nat) : List (Piece C) :=
  match es.find? fun e => e.replaces && decide (e.start ≤ i ∧ i < e.stop) with
  | none => [.line i]
  | some e => if e.start = i then [.content e] else []

/-- The contents after a position. -/
def added (es : List (Splice C)) (i : Nat) : List (Piece C) :=
  (es.filter fun e => !e.replaces && decide (e.stop = i + 1)).map .content

def place (es : List (Splice C)) (i : Nat) : List (Piece C) := kept es i ++ added es i

/-- What the splices make of the positions from `lo` up to `hi`. -/
def part (es : List (Splice C)) (lo hi : Nat) : List (Piece C) :=
  (List.range' lo (hi - lo)).flatMap (place es)

def atOnce (n : Nat) (es : List (Splice C)) : List (Piece C) := part es 0 n

theorem part_append (es : List (Splice C)) {lo mid hi : Nat} (hlo : lo ≤ mid) (hhi : mid ≤ hi) :
    part es lo mid ++ part es mid hi = part es lo hi := by
  unfold part
  rw [← List.flatMap_append]
  congr 1
  have hmid : mid = lo + (mid - lo) := by omega
  have hlength : hi - lo = (mid - lo) + (hi - mid) := by omega
  rw [hlength, ← List.range'_append_1, ← hmid]

theorem part_congr {es es' : List (Splice C)} {lo hi : Nat}
    (h : ∀ i, lo ≤ i → i < hi → place es i = place es' i) : part es lo hi = part es' lo hi := by
  unfold part
  refine List.flatMap_congr fun i hi' => ?_
  obtain ⟨hlo, hhi⟩ := List.mem_range'_1.mp hi'
  exact h i hlo (by omega)

theorem part_self (es : List (Splice C)) (lo : Nat) : part es lo lo = [] := by
  unfold part
  rw [Nat.sub_self]
  rfl

theorem part_cons (es : List (Splice C)) {lo hi : Nat} (h : lo < hi) :
    part es lo hi = place es lo ++ part es (lo + 1) hi := by
  rw [← part_append es (Nat.le_succ lo) h]
  congr 1
  unfold part
  rw [Nat.succ_sub (Nat.le_refl lo), Nat.sub_self]
  simp [List.range']

/-! ## Nested and disjoint splices -/

/-- A splice made later starts before, and ends before the other starts or
contains it and keeps it. -/
def Follows (e later : Splice C) : Prop :=
  later.start < e.start ∧
    (later.stop ≤ e.start ∨ e.stop ≤ later.stop ∧ later.replaces = false)

structure Proper (n : Nat) (es : List (Splice C)) : Prop where
  bounds : ∀ e ∈ es, e.start < e.stop ∧ e.stop ≤ n
  ordered : es.Pairwise Follows

theorem Proper.init {n : Nat} {es : List (Splice C)} {e : Splice C} (h : Proper n (es ++ [e])) :
    Proper n es :=
  ⟨fun d hd => h.bounds d (List.mem_append_left _ hd), (List.pairwise_append.mp h.ordered).1⟩

theorem Proper.last {n : Nat} {es : List (Splice C)} {e : Splice C} (h : Proper n (es ++ [e])) :
    e.start < e.stop ∧ e.stop ≤ n :=
  h.bounds e (List.mem_append_right _ (List.mem_singleton.mpr rfl))

theorem Proper.follows {n : Nat} {es : List (Splice C)} {e : Splice C} (h : Proper n (es ++ [e])) :
    ∀ d ∈ es, Follows d e := fun d hd =>
  (List.pairwise_append.mp h.ordered).2.2 d hd e (List.mem_singleton.mpr rfl)

/-- What a replacement covers, no splice before it has touched. -/
theorem Proper.apart {n : Nat} {es : List (Splice C)} {e : Splice C} (h : Proper n (es ++ [e]))
    (hreplaces : e.replaces = true) : ∀ d ∈ es, e.stop ≤ d.start := by
  intro d hd
  obtain ⟨-, hstop | ⟨-, hkeeps⟩⟩ := h.follows d hd
  · exact hstop
  · rw [hreplaces] at hkeeps
    cases hkeeps

/-! ## What splices leave alone -/

theorem take_on (make : Option α → Splice C → α) {e : Splice C} (he : e.start ≤ e.stop)
    {lines : List α} {m : Nat} (hm : m ≤ e.start) (hlines : m ≤ lines.length) :
    (e.on make lines).take m = lines.take m := by
  have hcut : m ≤ if e.replaces then e.start else e.stop := by
    split
    · exact hm
    · exact hm.trans he
  unfold Splice.on
  rw [List.take_append_of_le_length (by rw [List.length_take]; exact le_min hcut hlines),
    List.take_take, min_eq_left hcut]

/-- Splices do not touch what is in front of all of them. -/
theorem take_inTurn (make : Option α → Splice C → α) {es : List (Splice C)} {lines : List α}
    {m : Nat} (hes : ∀ e ∈ es, m ≤ e.start ∧ e.start ≤ e.stop) (hlines : m ≤ lines.length) :
    (inTurn make es lines).take m = lines.take m := by
  induction es generalizing lines with
  | nil => rfl
  | cons e es ih =>
    obtain ⟨hstart, hstop⟩ := hes e List.mem_cons_self
    have htake := take_on make hstop hstart hlines
    have hlength : m ≤ (e.on make lines).length := by
      have hsame := congrArg List.length htake
      rw [List.length_take, List.length_take, min_eq_left hlines] at hsame
      exact min_eq_left_iff.mp hsame
    exact (ih (fun d hd => hes d (List.mem_cons_of_mem e hd)) hlength).trans htake

theorem place_of_after {es : List (Splice C)} {m i : Nat}
    (hes : ∀ e ∈ es, m ≤ e.start ∧ e.start < e.stop) (hi : i < m) : place es i = [.line i] := by
  have hkept : es.find? (fun e => e.replaces && decide (e.start ≤ i ∧ i < e.stop)) = none := by
    rw [List.find?_eq_none]
    intro e he
    have hstart := (hes e he).1
    have hbefore : ¬(e.start ≤ i ∧ i < e.stop) := by omega
    simp [hbefore]
  have hadded : es.filter (fun e => !e.replaces && decide (e.stop = i + 1)) = [] := by
    rw [List.filter_eq_nil_iff]
    intro e he
    obtain ⟨hstart, hstop⟩ := hes e he
    have hends : e.stop ≠ i + 1 := by omega
    simp [hends]
  unfold place kept added
  rw [hkept, hadded]
  rfl

theorem part_of_after {es : List (Splice C)} {m : Nat}
    (hes : ∀ e ∈ es, m ≤ e.start ∧ e.start < e.stop) : part es 0 m = numbered m := by
  have hplace : ∀ i ∈ List.range m, place es i = [.line i] := fun i hi =>
    place_of_after hes (List.mem_range.mp hi)
  unfold part numbered
  rw [Nat.sub_zero, ← List.range_eq_range', List.flatMap_congr hplace]
  exact List.flatMap_pure_eq_map _ _

/-! ## One more splice at once -/

theorem place_insert {es : List (Splice C)} {e : Splice C} (hkeeps : e.replaces = false) (i : Nat) :
    place (es ++ [e]) i = place es i ++ if e.stop = i + 1 then [.content e] else [] := by
  have hkept : kept (es ++ [e]) i = kept es i := by
    unfold kept
    rw [List.find?_append]
    simp [hkeeps]
  have hadded : added (es ++ [e]) i = added es i ++ if e.stop = i + 1 then [.content e] else [] := by
    unfold added
    rw [List.filter_append, List.map_append]
    congr 1
    by_cases hends : e.stop = i + 1 <;> simp [hkeeps, hends]
  unfold place
  rw [hkept, hadded, List.append_assoc]

theorem place_outside {es : List (Splice C)} {e : Splice C} {i : Nat} (hreplaces : e.replaces = true)
    (hi : i < e.start ∨ e.stop ≤ i) : place (es ++ [e]) i = place es i := by
  have houtside : ¬(e.start ≤ i ∧ i < e.stop) := by omega
  have hkept : kept (es ++ [e]) i = kept es i := by
    unfold kept
    rw [List.find?_append]
    simp [houtside]
  have hadded : added (es ++ [e]) i = added es i := by
    unfold added
    rw [List.filter_append]
    simp [hreplaces]
  unfold place
  rw [hkept, hadded]

theorem place_replaced {es : List (Splice C)} {e : Splice C} {i : Nat} (hreplaces : e.replaces = true)
    (hes : ∀ d ∈ es, e.stop ≤ d.start ∧ d.start < d.stop) (hi : e.start ≤ i ∧ i < e.stop) :
    place (es ++ [e]) i = if e.start = i then [.content e] else [] := by
  have hnone : es.find? (fun d => d.replaces && decide (d.start ≤ i ∧ i < d.stop)) = none := by
    rw [List.find?_eq_none]
    intro d hd
    have hstart := (hes d hd).1
    have hbefore : ¬(d.start ≤ i ∧ i < d.stop) := by omega
    simp [hbefore]
  have hkept : kept (es ++ [e]) i = if e.start = i then [.content e] else [] := by
    unfold kept
    rw [List.find?_append, hnone, Option.none_or]
    simp [hreplaces, hi]
  have hadded : added (es ++ [e]) i = [] := by
    unfold added
    rw [List.map_eq_nil_iff, List.filter_eq_nil_iff]
    intro d hd
    obtain hd | hd := List.mem_append.mp hd
    · obtain ⟨hstart, hstop⟩ := hes d hd
      have hends : d.stop ≠ i + 1 := by omega
      simp [hends]
    · rw [List.mem_singleton.mp hd]
      simp [hreplaces]
  unfold place
  rw [hkept, hadded, List.append_nil]

/-- An insertion, at once with the splices before it. -/
theorem part_insert {es : List (Splice C)} {e : Splice C} (hkeeps : e.replaces = false) {hi : Nat}
    (hstop : 0 < e.stop) (hhi : e.stop ≤ hi) :
    part (es ++ [e]) 0 hi = part es 0 e.stop ++ .content e :: part es e.stop hi := by
  have hbefore : part (es ++ [e]) 0 (e.stop - 1) = part es 0 (e.stop - 1) := by
    refine part_congr fun i _ hi' => ?_
    rw [place_insert hkeeps, if_neg (by omega), List.append_nil]
  have hlast : part (es ++ [e]) (e.stop - 1) e.stop = part es (e.stop - 1) e.stop ++ [.content e] := by
    have hone : e.stop - 1 + 1 = e.stop := Nat.sub_add_cancel hstop
    rw [part_cons _ (Nat.sub_lt hstop Nat.one_pos), part_cons _ (Nat.sub_lt hstop Nat.one_pos), hone,
      part_self, part_self, List.append_nil, List.append_nil, place_insert hkeeps, if_pos hone.symm]
  have hafter : part (es ++ [e]) e.stop hi = part es e.stop hi := by
    refine part_congr fun i hlo _ => ?_
    rw [place_insert hkeeps, if_neg (by omega), List.append_nil]
  rw [← part_append (es ++ [e]) (Nat.zero_le e.stop) hhi,
    ← part_append (es ++ [e]) (Nat.zero_le (e.stop - 1)) (Nat.sub_le e.stop 1), hbefore, hlast, hafter,
    ← List.append_assoc, part_append es (Nat.zero_le (e.stop - 1)) (Nat.sub_le e.stop 1),
    List.append_assoc, List.singleton_append]

/-- A replacement, at once with the splices before it. -/
theorem part_replace {es : List (Splice C)} {e : Splice C} (hreplaces : e.replaces = true)
    (hes : ∀ d ∈ es, e.stop ≤ d.start ∧ d.start < d.stop) (he : e.start < e.stop) {hi : Nat}
    (hhi : e.stop ≤ hi) :
    part (es ++ [e]) 0 hi = numbered e.start ++ .content e :: part es e.stop hi := by
  have hbefore : part (es ++ [e]) 0 e.start = numbered e.start := by
    rw [part_congr fun i _ hi' => place_outside hreplaces (Or.inl hi')]
    exact part_of_after fun d hd => ⟨he.le.trans (hes d hd).1, (hes d hd).2⟩
  have hcovered : part (es ++ [e]) (e.start + 1) e.stop = [] := by
    rw [part, List.flatMap_eq_nil_iff]
    intro i hi'
    obtain ⟨hlo, hhi'⟩ := List.mem_range'_1.mp hi'
    rw [place_replaced hreplaces hes ⟨by omega, by omega⟩, if_neg (by omega)]
  have hfirst : part (es ++ [e]) e.start e.stop = [.content e] := by
    rw [part_cons _ he, hcovered, place_replaced hreplaces hes ⟨le_refl _, he⟩, if_pos rfl]
    rfl
  have hafter : part (es ++ [e]) e.stop hi = part es e.stop hi :=
    part_congr fun i hlo _ => place_outside hreplaces (Or.inr hlo)
  rw [← part_append (es ++ [e]) (Nat.zero_le e.start) (he.le.trans hhi),
    ← part_append (es ++ [e]) he.le hhi, hbefore, hfirst, hafter, List.singleton_append]

/-! ## How far a splice is moved -/

/-- How many positions a splice adds. -/
def growth (e : Splice C) : Int := if e.replaces then 1 - ((e.stop : Int) - e.start) else 1

/-- How far the end of a splice is moved by the splices inside it. -/
def shift (es : List (Splice C)) (outer : Splice C) : Int :=
  ((es.filter fun e => decide (outer.start < e.start ∧ e.stop ≤ outer.stop)).map growth).sum

/-- No insertion is moved, or it is moved back over the end of the list. -/
def Aligned (n : Nat) (es : List (Splice C)) : Prop :=
  ∀ e ∈ es, e.replaces = false → shift es e = 0 ∨ (e.stop = n ∧ shift es e ≤ 0)

/-- What the splices up to a position make of what is in front of it. -/
theorem length_part {n : Nat} {es : List (Splice C)} (h : Proper n es) {b : Nat}
    (hcut : ∀ e ∈ es, e.stop ≤ b ∨ b ≤ e.start) :
    ((part es 0 b).length : Int) =
      b + ((es.filter fun e => decide (e.stop ≤ b)).map growth).sum := by
  induction es using List.reverseRecOn with
  | nil =>
    have hnone : part ([] : List (Splice C)) 0 b = numbered b :=
      part_of_after fun e he => nomatch he
    rw [hnone]
    simp [numbered]
  | append_singleton es e ih =>
    have hlength := ih h.init fun d hd => hcut d (List.mem_append_left _ hd)
    obtain ⟨hstart, -⟩ := h.last
    rw [List.filter_append, List.map_append, List.sum_append]
    obtain hbefore | hafter := hcut e (List.mem_append_right _ (List.mem_singleton.mpr rfl))
    · have hgrowth : ((([e].filter fun e => decide (e.stop ≤ b)).map growth).sum : Int) = growth e := by
        simp [hbefore]
      rw [hgrowth, ← add_assoc, ← hlength]
      cases hreplaces : e.replaces with
      | false =>
        rw [part_insert hreplaces (by omega) hbefore, ← part_append es (Nat.zero_le e.stop) hbefore]
        simp only [List.length_append, List.length_cons, growth, hreplaces]
        push_cast
        omega
      | true =>
        have hes : ∀ d ∈ es, e.stop ≤ d.start ∧ d.start < d.stop := fun d hd =>
          ⟨h.apart hreplaces d hd, (h.init.bounds d hd).1⟩
        rw [part_replace hreplaces hes hstart hbefore, ← part_append es (Nat.zero_le e.stop) hbefore,
          part_of_after hes]
        simp only [List.length_append, List.length_cons, growth, hreplaces, numbered, List.length_map,
          List.length_range]
        push_cast
        omega
    · have hgrowth : ((([e].filter fun e => decide (e.stop ≤ b)).map growth).sum : Int) = 0 := by
        have hnot : ¬e.stop ≤ b := by omega
        simp [hnot]
      have hsame : part (es ++ [e]) 0 b = part es 0 b := by
        refine part_congr fun i _ hi => ?_
        cases hreplaces : e.replaces with
        | false => rw [place_insert hreplaces, if_neg (by omega), List.append_nil]
        | true => exact place_outside hreplaces (Or.inl (by omega))
      rw [hgrowth, add_zero, hsame, hlength]

/-! ## In turn and at once -/

/-- The content of a splice is not among the pieces of others. -/
theorem content_mem_part {es : List (Splice C)} {e : Splice C} {lo hi : Nat}
    (h : Piece.content e ∈ part es lo hi) : e ∈ es := by
  obtain ⟨i, -, hplace⟩ := List.mem_flatMap.mp h
  obtain hkept | hadded := List.mem_append.mp hplace
  · unfold kept at hkept
    split at hkept
    · simp at hkept
    · next d hfind =>
      split at hkept
      · cases List.mem_singleton.mp hkept
        exact List.mem_of_find?_eq_some hfind
      · cases hkept
  · obtain ⟨d, hd, heq⟩ := List.mem_map.mp hadded
    cases heq
    exact (List.mem_filter.mp hd).1

theorem content_mem_inTurn {es : List (Splice C)} {e : Splice C} {lines : List (Piece C)}
    (h : Piece.content e ∈ inTurn (fun _ e => .content e) es lines) :
    e ∈ es ∨ Piece.content e ∈ lines := by
  induction es generalizing lines with
  | nil => exact Or.inr h
  | cons d es ih =>
    obtain hes | hon := ih h
    · exact Or.inl (List.mem_cons_of_mem d hes)
    · obtain htake | hdrop := List.mem_append.mp hon
      · exact Or.inr (List.mem_of_mem_take htake)
      · cases hdrop with
        | head => exact Or.inl List.mem_cons_self
        | tail _ hdrop => exact Or.inr (List.mem_of_mem_drop hdrop)

theorem content_mem_trace {n : Nat} {es : List (Splice C)} {e : Splice C}
    (h : Piece.content e ∈ trace n es) : e ∈ es := by
  obtain hes | hnumbered := content_mem_inTurn h
  · exact hes
  · simp [numbered] at hnumbered

theorem trace_concat (n : Nat) (es : List (Splice C)) (e : Splice C) :
    trace n (es ++ [e]) = (trace n es).take (if e.replaces then e.start else e.stop) ++
      .content e :: (trace n es).drop e.stop := by
  unfold trace inTurn
  rw [List.foldl_append]
  rfl

theorem Proper.not_mem {n : Nat} {es : List (Splice C)} {e : Splice C} (h : Proper n (es ++ [e])) :
    e ∉ es := fun hmem => lt_irrefl _ (h.follows e hmem).1

theorem shift_concat {n : Nat} {es : List (Splice C)} {e : Splice C} (h : Proper n (es ++ [e]))
    {d : Splice C} (hd : d ∈ es ++ [e]) : shift (es ++ [e]) d = shift es d := by
  have hlate : e.start ≤ d.start := by
    obtain hd | hd := List.mem_append.mp hd
    · exact (h.follows d hd).1.le
    · rw [List.mem_singleton.mp hd]
  have houtside : ¬(d.start < e.start ∧ e.stop ≤ d.stop) := fun hin => not_lt.mpr hlate hin.1
  unfold shift
  rw [List.filter_append]
  simp [houtside]

theorem aligned_concat {n : Nat} {es : List (Splice C)} {e : Splice C} (h : Proper n (es ++ [e])) :
    Aligned n (es ++ [e]) ↔
      Aligned n es ∧ (e.replaces = false → shift es e = 0 ∨ (e.stop = n ∧ shift es e ≤ 0)) := by
  constructor
  · intro haligned
    refine ⟨fun d hd hkeeps => ?_, fun hkeeps => ?_⟩
    · have hmem := List.mem_append_left [e] hd
      rw [← shift_concat h hmem]
      exact haligned d hmem hkeeps
    · have hmem := List.mem_append_right es (List.mem_singleton.mpr (rfl : e = e))
      rw [← shift_concat h hmem]
      exact haligned e hmem hkeeps
  · rintro ⟨haligned, hlast⟩ d hd hkeeps
    rw [shift_concat h hd]
    obtain hmem | hmem := List.mem_append.mp hd
    · exact haligned d hmem hkeeps
    · obtain rfl := List.mem_singleton.mp hmem
      exact hlast hkeeps

/-- Where an insertion ends up, by the number of pieces in front of its place. -/
theorem insert_eq_iff {α : Type} {before after : List α} {x : α} {k : Nat} (hbefore : x ∉ before)
    (hafter : x ∉ after) :
    (before ++ after).take k ++ x :: (before ++ after).drop k = before ++ x :: after ↔
      min k (before ++ after).length = before.length := by
  constructor
  · intro h
    have htake : x ∉ (before ++ after).take k := fun hmem =>
      (List.mem_append.mp (List.mem_of_mem_take hmem)).elim hbefore hafter
    have hdrop : x ∉ (before ++ after).drop k := fun hmem =>
      (List.mem_append.mp (List.mem_of_mem_drop hmem)).elim hbefore hafter
    have hsame := ((List.append_cons_inj_of_notMem hbefore hafter).mp h.symm).1
    have hlength := congrArg List.length hsame
    rw [List.length_take] at hlength
    exact hlength.symm
  · intro h
    have htake : (before ++ after).take k = before := by
      have hshort : (before ++ after).take k = (before ++ after).take (min k (before ++ after).length) := by
        rw [List.take_eq_take_min]
      rw [hshort, h, List.take_left]
    have hdrop : (before ++ after).drop k = after := by
      have hsplit := List.take_append_drop k (before ++ after)
      rw [htake] at hsplit
      exact List.append_cancel_left hsplit
    rw [htake, hdrop]

theorem length_part_stop {n : Nat} {es : List (Splice C)} {e : Splice C} (h : Proper n (es ++ [e])) :
    ((part es 0 e.stop).length : Int) = e.stop + shift es e := by
  have hcut : ∀ d ∈ es, d.stop ≤ e.stop ∨ e.stop ≤ d.start := fun d hd =>
    (h.follows d hd).2.symm.imp_left And.left
  rw [length_part h.init hcut]
  unfold shift
  congr 3
  refine List.filter_congr fun d hd => ?_
  have hstart := (h.follows d hd).1
  simp [hstart]

/-- What follows an insertion at once is nothing only at the end of the list. -/
theorem part_stop_eq_nil_iff {n : Nat} {es : List (Splice C)} {e : Splice C}
    (h : Proper n (es ++ [e])) : part es e.stop n = [] ↔ e.stop = n := by
  constructor
  · intro hnil
    by_contra hne
    have hlt : e.stop < n := lt_of_le_of_ne h.last.2 hne
    rw [part_cons es hlt, List.append_eq_nil_iff] at hnil
    have hplace := hnil.1
    unfold place kept at hplace
    split at hplace
    · simp at hplace
    · next d hfind =>
      have hcovers : d.replaces = true ∧ d.start ≤ e.stop ∧ e.stop < d.stop := by
        have hsome := List.find?_some hfind
        simpa using hsome
      have hstart : d.start = e.stop := by
        obtain ⟨-, hstop | ⟨hstop, -⟩⟩ := h.follows d (List.mem_of_find?_eq_some hfind)
        · exact le_antisymm hcovers.2.1 hstop
        · exact absurd hcovers.2.2 (not_lt.mpr hstop)
      simp [hstart] at hplace
  · intro heq
    rw [heq]
    exact part_self es n

/-- A replacement does what it does at once, on what it finds. -/
theorem trace_replace_iff {n : Nat} {es : List (Splice C)} {e : Splice C} (h : Proper n (es ++ [e]))
    (hreplaces : e.replaces = true) :
    trace n (es ++ [e]) = atOnce n (es ++ [e]) ↔ trace n es = atOnce n es := by
  obtain ⟨hstart, hstop⟩ := h.last
  have hes : ∀ d ∈ es, e.stop ≤ d.start ∧ d.start < d.stop := fun d hd =>
    ⟨h.apart hreplaces d hd, (h.init.bounds d hd).1⟩
  have hfront : ∀ m ≤ e.stop, (trace n es).take m = numbered m := by
    intro m hm
    have hlength : (numbered n : List (Piece C)).length = n := by simp [numbered]
    have htake : (trace n es).take m = (numbered n).take m :=
      take_inTurn _ (fun d hd => ⟨hm.trans (hes d hd).1, (hes d hd).2.le⟩)
        (by rw [hlength]; exact hm.trans hstop)
    rw [htake, numbered, ← List.map_take, List.take_range, min_eq_left (hm.trans hstop), numbered]
  rw [trace_concat, if_pos hreplaces, hfront e.start hstart.le, atOnce,
    part_replace hreplaces hes hstart hstop, List.append_cancel_left_eq, List.cons_inj_right, atOnce,
    ← part_append es (Nat.zero_le e.stop) hstop, part_of_after hes]
  constructor
  · intro hdrop
    rw [← hdrop, ← hfront e.stop le_rfl, List.take_append_drop]
  · intro htrace
    have hsplit := List.take_append_drop e.stop (trace n es)
    rw [hfront e.stop le_rfl] at hsplit
    exact List.append_cancel_left (hsplit.trans htrace)

/-- An insertion stands in its place exactly if its place has not moved. -/
theorem trace_insert_iff {n : Nat} {es : List (Splice C)} {e : Splice C} (h : Proper n (es ++ [e]))
    (hkeeps : e.replaces = false) :
    trace n (es ++ [e]) = atOnce n (es ++ [e]) ↔
      trace n es = atOnce n es ∧ (shift es e = 0 ∨ (e.stop = n ∧ shift es e ≤ 0)) := by
  obtain ⟨hstart, hstop⟩ := h.last
  have hbefore : Piece.content e ∉ part es 0 e.stop := fun hmem => h.not_mem (content_mem_part hmem)
  have hafter : Piece.content e ∉ part es e.stop n := fun hmem => h.not_mem (content_mem_part hmem)
  have honce : atOnce n es = part es 0 e.stop ++ part es e.stop n :=
    (part_append es (Nat.zero_le e.stop) hstop).symm
  have hplace : min e.stop (part es 0 e.stop ++ part es e.stop n).length =
      (part es 0 e.stop).length ↔ shift es e = 0 ∨ (e.stop = n ∧ shift es e ≤ 0) := by
    have hlength := length_part_stop h
    rw [List.length_append, ← part_stop_eq_nil_iff h, ← List.length_eq_zero_iff]
    omega
  rw [trace_concat, atOnce, part_insert hkeeps (by omega) hstop]
  simp only [hkeeps, Bool.false_eq_true, if_false]
  constructor
  · intro heq
    have htrace : trace n es = atOnce n es := by
      have hsame := (List.append_cons_inj_of_notMem hbefore hafter).mp heq.symm
      rw [honce, hsame.1, hsame.2.2, List.take_append_drop]
    refine ⟨htrace, hplace.mp ?_⟩
    rw [htrace, honce] at heq
    exact (insert_eq_iff hbefore hafter).mp heq
  · rintro ⟨htrace, haligned⟩
    rw [htrace, honce]
    exact (insert_eq_iff hbefore hafter).mpr (hplace.mpr haligned)

/-- **Splices in turn are splices at once exactly if they are aligned.** -/
theorem trace_eq_iff {n : Nat} {es : List (Splice C)} (h : Proper n es) :
    trace n es = atOnce n es ↔ Aligned n es := by
  induction es using List.reverseRecOn with
  | nil =>
    have honce : atOnce n ([] : List (Splice C)) = numbered n := part_of_after fun e he => nomatch he
    rw [honce]
    exact iff_of_true rfl fun e he => nomatch he
  | append_singleton es e ih =>
    rw [aligned_concat h, ← ih h.init]
    cases hreplaces : e.replaces with
    | false =>
      rw [trace_insert_iff h hreplaces]
      simp
    | true =>
      rw [trace_replace_iff h hreplaces]
      simp

/-! ## Pieces of a text -/

/-- The piece of a result, given the list and how contents are made. -/
def Piece.of (make : Option α → Splice C → α) (lines : List α) : Piece C → Option α
  | .line i => lines[i]?
  | .content e => some (make lines[e.start]? e)

/-- What splices in turn make of a list is what their trace says. -/
theorem inTurn_eq_trace (make : Option α → Splice C → α) {lines : List α} {es : List (Splice C)}
    (h : Proper lines.length es) :
    (inTurn make es lines).map some = (trace lines.length es).map (Piece.of make lines) := by
  induction es using List.reverseRecOn with
  | nil =>
    refine List.ext_getElem (by simp [inTurn, trace, numbered]) fun i hleft hright => ?_
    have hi : i < lines.length := by simpa [inTurn] using hleft
    simp [inTurn, trace, numbered, Piece.of, hi]
  | append_singleton es e ih =>
    obtain ⟨hstart, hstop⟩ := h.last
    have hes : ∀ d ∈ es, e.start + 1 ≤ d.start ∧ d.start ≤ d.stop := fun d hd =>
      ⟨(h.follows d hd).1, (h.init.bounds d hd).1.le⟩
    have htake := take_inTurn make hes (lt_of_lt_of_le hstart hstop)
    have hhead : (inTurn make es lines)[e.start]? = lines[e.start]? := by
      rw [← List.getElem?_take_of_lt (Nat.lt_succ_self e.start), htake,
        List.getElem?_take_of_lt (Nat.lt_succ_self e.start)]
    have hlast : inTurn make (es ++ [e]) lines = e.on make (inTurn make es lines) := by
      unfold inTurn
      rw [List.foldl_append]
      rfl
    rw [hlast, trace_concat, Splice.on, hhead, List.map_append, List.map_append, List.map_cons,
      List.map_cons, List.map_take, List.map_take, List.map_drop, List.map_drop, ih h.init]
    rfl

end RlmGraph.Lib.Splices
