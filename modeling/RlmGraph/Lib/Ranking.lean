import Mathlib.Data.List.Sort

/-! # The first of a ranking

Items are sorted and the first so many are kept. An item is kept if and only if
fewer items stand above it than are kept (`mem_firsts_iff`), so what a further
item does to the ones kept is a matter of counting. -/
namespace RlmGraph.Lib.Ranking

variable {α : Type} {le : α → α → Bool} {items : List α} {k : Nat} {x : α}

/-- The first `k` of the items. -/
def firsts (le : α → α → Bool) (k : Nat) (items : List α) : List α := (items.mergeSort le).take k

/-- How many items stand above one. -/
def above (le : α → α → Bool) (items : List α) (x : α) : Nat := items.countP fun y => !le x y

/-- The items are told apart by a total order. -/
structure Ranks (le : α → α → Bool) (items : List α) : Prop where
  trans : ∀ a b c, le a b = true → le b c = true → le a c = true
  total : ∀ a b, (le a b || le b a) = true
  antisymm : ∀ a ∈ items, ∀ b ∈ items, le a b = true → le b a = true → a = b
  nodup : items.Nodup

/-! ## Sorted items -/

theorem Ranks.refl (h : Ranks le items) (a : α) : le a a = true := by
  simpa using h.total a a

theorem Ranks.sorted (h : Ranks le items) : (items.mergeSort le).Pairwise fun a b => le a b = true :=
  List.pairwise_mergeSort h.trans h.total items

theorem above_perm {items' : List α} (hperm : items.Perm items') (x : α) :
    above le items x = above le items' x :=
  hperm.countP_eq _

theorem above_cons (a : α) (items : List α) (x : α) :
    above le (a :: items) x = above le items x + if le x a = true then 0 else 1 := by
  unfold above
  rw [List.countP_cons]
  cases le x a <;> rfl

theorem above_append (items more : List α) (x : α) :
    above le (items ++ more) x = above le items x + above le more x :=
  List.countP_append

/-- In sorted items, those above one are those before it. -/
theorem mem_take_iff (hsorted : items.Pairwise fun a b => le a b = true) (hnodup : items.Nodup)
    (hrefl : ∀ a, le a a = true)
    (hantisymm : ∀ a ∈ items, ∀ b ∈ items, le a b = true → le b a = true → a = b) :
    x ∈ items.take k ↔ x ∈ items ∧ above le items x < k := by
  induction items generalizing k with
  | nil => simp
  | cons a items ih =>
    obtain ⟨hfirst, hsorted⟩ := List.pairwise_cons.mp hsorted
    obtain ⟨hnew, hnodup⟩ := List.nodup_cons.mp hnodup
    cases k with
    | zero => simp
    | succ k =>
      have hrest := ih (k := k) hsorted hnodup fun b hb c hc =>
        hantisymm b (List.mem_cons_of_mem a hb) c (List.mem_cons_of_mem a hc)
      rw [List.take_succ_cons, List.mem_cons, List.mem_cons, hrest]
      by_cases hx : x = a
      · subst hx
        have hnone : above le items x = 0 := List.countP_eq_zero.mpr fun b hb => by simp [hfirst b hb]
        simp [above_cons, hrefl x, hnone]
      · have hstrict : x ∈ items → ¬le x a = true := fun hmem hback =>
          hx (hantisymm x (List.mem_cons_of_mem a hmem) a List.mem_cons_self hback (hfirst x hmem))
        have hcount : x ∈ items → above le (a :: items) x = above le items x + 1 := fun hmem => by
          rw [above_cons, if_neg (hstrict hmem)]
        constructor
        · rintro (heq | ⟨hmem, hlt⟩)
          · exact absurd heq hx
          · exact ⟨.inr hmem, by rw [hcount hmem]; omega⟩
        · rintro ⟨heq | hmem, hlt⟩
          · exact absurd heq hx
          · exact .inr ⟨hmem, by rw [hcount hmem] at hlt; omega⟩

/-- **An item is among the first if fewer stand above it.** -/
theorem mem_firsts_iff (h : Ranks le items) :
    x ∈ firsts le k items ↔ x ∈ items ∧ above le items x < k := by
  have hperm := List.mergeSort_perm items le
  have hmem := mem_take_iff (k := k) (x := x) h.sorted (hperm.nodup_iff.mpr h.nodup) h.refl
    fun a ha b hb => h.antisymm a (hperm.mem_iff.mp ha) b (hperm.mem_iff.mp hb)
  rw [firsts, hmem, hperm.mem_iff, above_perm hperm]

/-! ## Two rankings -/

/-- What two rankings keep of a kind is in the same order. -/
theorem filter_firsts_congr {items' : List α} {p : α → Bool} (h : Ranks le items)
    (h' : Ranks le items')
    (hsame : ∀ x, p x = true → (x ∈ firsts le k items ↔ x ∈ firsts le k items')) :
    (firsts le k items).filter p = (firsts le k items').filter p := by
  have hmem : ∀ x, x ∈ (firsts le k items).filter p ↔ x ∈ (firsts le k items').filter p := by
    intro x
    rw [List.mem_filter, List.mem_filter]
    exact and_congr_left (hsame x)
  have hnodup : ∀ {items : List α}, Ranks le items → ((firsts le k items).filter p).Nodup :=
    fun h => (((List.mergeSort_perm _ _).nodup_iff.mpr h.nodup).sublist
      (List.take_sublist k _)).filter p
  have hsorted : ∀ {items : List α}, Ranks le items →
      ((firsts le k items).filter p).Pairwise fun a b => le a b = true :=
    fun h => (h.sorted.sublist (List.take_sublist k _)).filter p
  have hold : ∀ x ∈ (firsts le k items).filter p, x ∈ items := fun x hx =>
    ((mem_firsts_iff h).mp (List.mem_of_mem_filter hx)).1
  have hantisymm : ∀ a b, a ∈ (firsts le k items).filter p → b ∈ (firsts le k items').filter p →
      le a b = true → le b a = true → a = b := fun a b ha hb =>
    h.antisymm a (hold a ha) b (hold b ((hmem b).mpr hb))
  exact List.Perm.eq_of_pairwise hantisymm (hsorted h) (hsorted h')
    ((List.perm_ext_iff_of_nodup (hnodup h) (hnodup h')).mpr hmem)

/-- One of a kind stands above the others of the kind. -/
theorem exists_top (h : Ranks le items) {p : α → Bool} (hsome : ∃ x ∈ items, p x = true) :
    ∃ x ∈ items, p x = true ∧ ∀ y ∈ items, p y = true → le x y = true := by
  have hfilter : (items.filter p) ≠ [] := by
    obtain ⟨x, hx, hp⟩ := hsome
    exact List.ne_nil_of_mem (List.mem_filter.mpr ⟨hx, hp⟩)
  have hperm := List.mergeSort_perm (items.filter p) le
  have hsorted : ((items.filter p).mergeSort le).Pairwise fun a b => le a b = true :=
    List.pairwise_mergeSort h.trans h.total _
  cases hlist : (items.filter p).mergeSort le with
  | nil =>
    rw [hlist] at hperm
    exact absurd (List.Perm.nil_eq hperm).symm hfilter
  | cons x rest =>
    rw [hlist] at hperm hsorted
    obtain ⟨hx, hp⟩ := List.mem_filter.mp (hperm.mem_iff.mp List.mem_cons_self)
    refine ⟨x, hx, hp, fun y hy hpy => ?_⟩
    obtain rfl | hrest := List.mem_cons.mp (hperm.mem_iff.mpr (List.mem_filter.mpr ⟨hy, hpy⟩))
    · exact h.refl y
    · exact (List.pairwise_cons.mp hsorted).1 y hrest

/-- One of a kind is among the first if fewer stand above all of the kind. -/
theorem exists_mem_firsts_iff (h : Ranks le items) {p : α → Bool}
    (hsome : ∃ x ∈ items, p x = true) :
    (∃ x ∈ firsts le k items, p x = true) ↔
      (items.countP fun y => items.all fun x => !p x || !le x y) < k := by
  obtain ⟨x, hx, hp, htop⟩ := exists_top h hsome
  have hcount : (items.countP fun y => items.all fun x => !p x || !le x y) = above le items x := by
    refine List.countP_congr fun y hy => ⟨fun hall => ?_, fun hnot => ?_⟩
    · simpa [hp] using List.all_eq_true.mp hall x hx
    · refine List.all_eq_true.mpr fun z hz => ?_
      by_cases hpz : p z = true
      · have hzy : ¬le z y = true := fun hzy => by
          rw [h.trans x z y (htop z hz hpz) hzy] at hnot
          cases hnot
        simp [hzy]
      · simp [hpz]
  rw [hcount]
  constructor
  · rintro ⟨z, hz, hpz⟩
    obtain ⟨hmem, hlt⟩ := (mem_firsts_iff h).mp hz
    refine lt_of_le_of_lt ?_ hlt
    refine List.countP_mono_left fun y _ hnot => ?_
    rw [Bool.not_eq_true', Bool.eq_false_iff] at hnot ⊢
    exact fun hzy => hnot (h.trans x z y (htop z hmem hpz) hzy)
  · exact fun hlt => ⟨x, (mem_firsts_iff h).mpr ⟨hx, hlt⟩, hp⟩

end RlmGraph.Lib.Ranking
