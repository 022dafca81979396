import Mathlib.Data.List.Induction
import Mathlib.Data.List.Nodup

/-! # Rows of a table

A table is the list of its rows, the oldest first, and a row is found by its
key. Rows are appended, and rows that are there stay findable. -/
namespace RlmGraph.Lib.Rows

variable {α β κ : Type} [DecidableEq κ]

theorem find?_append_of_some {p : α → Bool} {rows more : List α} {row : α}
    (h : rows.find? p = some row) : (rows ++ more).find? p = some row := by
  rw [List.find?_append, h, Option.some_or]

theorem find?_append_new {p : α → Bool} {rows : List α} {row : α}
    (h : rows.find? p = none) (hp : p row = true) : (rows ++ [row]).find? p = some row := by
  rw [List.find?_append, h, Option.none_or, List.find?_cons_of_pos hp]

/-- With keys of their own, rows are found by them. -/
theorem find?_of_mem {key : α → κ} {rows : List α} {row : α}
    (hn : (rows.map key).Nodup) (hr : row ∈ rows) : rows.find? (key · == key row) = some row := by
  induction rows with
  | nil => cases hr
  | cons first rows ih =>
    rw [List.map_cons, List.nodup_cons] at hn
    rcases List.mem_cons.mp hr with rfl | hr
    · exact List.find?_cons_of_pos (by simp)
    · have hne : key first ≠ key row := fun he => hn.1 (List.mem_map.mpr ⟨row, hr, he.symm⟩)
      rw [List.find?_cons_of_neg (by simpa using hne), ih hn.2 hr]

/-- A row is found in a table of images as its image. -/
theorem find?_map_key {f : α → β} {key : α → κ} {key' : β → κ} {k : κ}
    (hkey : ∀ a, key' (f a) = key a) (as : List α) :
    (as.map f).find? (key' · == k) = (as.find? (key · == k)).map f := by
  rw [List.find?_map]
  congr 2
  funext a
  simp [hkey]

omit [DecidableEq κ] in
/-- A condition that speaks of one key meets one row. -/
theorem countP_eq_one {key : α → κ} {rows : List α} {row : α} {p : α → Bool}
    (hn : (rows.map key).Nodup) (hr : row ∈ rows) (hp : p row = true)
    (hkey : ∀ x ∈ rows, p x = true → key x = key row) : rows.countP p = 1 := by
  induction rows with
  | nil => cases hr
  | cons first rows ih =>
    rw [List.map_cons, List.nodup_cons] at hn
    rcases List.mem_cons.mp hr with rfl | hr
    · have hrest : rows.countP p = 0 := by
        refine List.countP_eq_zero.mpr fun x hx hpx => hn.1 ?_
        exact List.mem_map.mpr ⟨x, hx, hkey x (List.mem_cons_of_mem _ hx) hpx⟩
      rw [List.countP_cons_of_pos hp, hrest]
    · have hfirst : ¬p first = true := fun hpf =>
        hn.1 (List.mem_map.mpr ⟨row, hr, (hkey first List.mem_cons_self hpf).symm⟩)
      rw [List.countP_cons_of_neg hfirst]
      exact ih hn.2 hr fun x hx => hkey x (List.mem_cons_of_mem _ hx)

omit [DecidableEq κ] in
theorem nodup_concat {key : α → κ} {rows : List α} {row : α} (h : (rows.map key).Nodup)
    (hnew : key row ∉ rows.map key) : ((rows ++ [row]).map key).Nodup := by
  rw [List.map_append, List.map_singleton, List.nodup_append]
  refine ⟨h, List.nodup_singleton _, ?_⟩
  intro a ha b hb hab
  exact hnew (List.mem_singleton.mp hb ▸ hab ▸ ha)

theorem forall_mem_concat {P : α → Prop} {rows : List α} {row : α}
    (h : ∀ r ∈ rows, P r) (hrow : P row) : ∀ r ∈ rows ++ [row], P r :=
  List.forall_mem_append.mpr ⟨h, List.forall_mem_singleton.mpr hrow⟩

/-! ## Replaced rows -/

section
variable {α κ : Type} [DecidableEq κ]

/-- `INSERT OR REPLACE`: the row with the key moves to the end. -/
def replaceRow (key : α → κ) (row : α) (rows : List α) : List α :=
  rows.filter (fun x => key x != key row) ++ [row]

variable {key : α → κ} {row x : α} {rows : List α}

theorem mem_replaceRow : x ∈ replaceRow key row rows ↔ (x ∈ rows ∧ key x ≠ key row) ∨ x = row := by
  simp [replaceRow]

theorem replaceRow_new (h : key row ∉ rows.map key) : replaceRow key row rows = rows ++ [row] := by
  unfold replaceRow
  rw [List.filter_eq_self.mpr fun x hx => ?_]
  have hne : key x ≠ key row := fun he => h (he ▸ List.mem_map_of_mem hx)
  simpa using hne

/-- The later of two rows with one key stays. -/
theorem replaceRow_twice {later : α} (h : key later = key row) :
    replaceRow key later (replaceRow key row rows) = replaceRow key later rows := by
  unfold replaceRow
  rw [List.filter_append, List.filter_filter, h]
  simp

theorem nodup_replaceRow (h : (rows.map key).Nodup) : ((replaceRow key row rows).map key).Nodup := by
  unfold replaceRow
  rw [List.map_append, List.map_singleton]
  refine List.nodup_append.mpr
    ⟨h.sublist (List.filter_sublist.map key), List.nodup_singleton _, ?_⟩
  intro a ha b hb hab
  obtain ⟨y, hy, rfl⟩ := List.mem_map.mp ha
  have hne : key y ≠ key row := by simpa using (List.mem_filter.mp hy).2
  exact hne (hab.trans (List.mem_singleton.mp hb))

theorem find?_replaceRow_self : (replaceRow key row rows).find? (key · == key row) = some row := by
  unfold replaceRow
  refine find?_append_new (List.find?_eq_none.mpr fun x hx => ?_) (beq_self_eq_true (key row))
  simpa using (List.mem_filter.mp hx).2

/-- A search that passes over the row, and over what it replaces. -/
theorem find?_replaceRow_of_not {p : α → Bool} (hrow : p row = false)
    (hold : ∀ old ∈ rows, key old = key row → p old = false) :
    (replaceRow key row rows).find? p = rows.find? p := by
  have hlast : [row].find? p = none := by simp [hrow]
  unfold replaceRow
  rw [List.find?_append, hlast, Option.or_none]
  induction rows with
  | nil => rfl
  | cons x rows ih =>
    obtain ⟨hx, hrest⟩ := List.forall_mem_cons.mp hold
    by_cases hsame : key x = key row
    · rw [List.filter_cons_of_neg (by simp [hsame]), List.find?_cons_of_neg (by simp [hx hsame]), ih hrest]
    · rw [List.filter_cons_of_pos (by simpa using hsame), List.find?_cons, List.find?_cons, ih hrest]

theorem find?_replaceRow_other {k : κ} (h : k ≠ key row) :
    (replaceRow key row rows).find? (key · == k) = rows.find? (key · == k) :=
  find?_replaceRow_of_not (by simpa using Ne.symm h) fun old _ hsame => by simpa [hsame] using Ne.symm h

end

/-! ## Revised rows -/

section
variable {α β κ : Type} [DecidableEq κ]

/-- Rows that are saved, one after the other, over the rows that are found by
their keys and look like them. -/
inductive Revised (key : α → κ) (view : α → β) (rows : List α) : List α → Prop
  | refl : Revised key view rows rows
  | save {rows' : List α} {old row : α} (h : Revised key view rows rows')
      (hfind : rows'.find? (key · == key row) = some old) (hview : view row = view old) :
      Revised key view rows (replaceRow key row rows')

variable {key : α → κ} {view : α → β} {rows rows' rows'' : List α}

theorem Revised.trans (h : Revised key view rows rows') (h' : Revised key view rows' rows'') :
    Revised key view rows rows'' := by
  induction h' with
  | refl => exact h
  | save _ hfind hview ih => exact ih.save hfind hview

/-- A row that was found is found, and looks the same. -/
theorem Revised.find? (h : Revised key view rows rows') {k : κ} {x : α}
    (hx : rows.find? (key · == k) = some x) :
    ∃ y, rows'.find? (key · == k) = some y ∧ view y = view x := by
  induction h with
  | refl => exact ⟨x, hx, rfl⟩
  | @save rows' old row _ hfind hview ih =>
    obtain ⟨y, hy, hsame⟩ := ih
    by_cases hk : k = key row
    · subst hk
      obtain rfl := Option.some.inj (hfind.symm.trans hy)
      exact ⟨row, find?_replaceRow_self, hview.trans hsame⟩
    · exact ⟨y, (find?_replaceRow_other hk).trans hy, hsame⟩

/-- Every row stems from one that looks the same. -/
theorem Revised.mem (h : Revised key view rows rows') {y : α} (hy : y ∈ rows') :
    ∃ x ∈ rows, view y = view x := by
  induction h generalizing y with
  | refl => exact ⟨y, hy, rfl⟩
  | save _ hfind hview ih =>
    obtain ⟨hold, -⟩ | rfl := mem_replaceRow.mp hy
    · exact ih hold
    · obtain ⟨x, hx, hsame⟩ := ih (List.mem_of_find?_eq_some hfind)
      exact ⟨x, hx, hview.trans hsame⟩

end

/-! ## Rows that keep their place -/

section
variable {α κ : Type} [DecidableEq κ]

/-- `INSERT OR REPLACE` where rows are read in an order of their own: the row
with the key is replaced where it stands, a new one comes last. -/
def upsert (key : α → κ) (row : α) (rows : List α) : List α :=
  if rows.any (key · == key row) then rows.map fun x => if key x = key row then row else x
  else rows ++ [row]

variable {key : α → κ} {row x : α} {rows : List α}

theorem upsert_new (h : key row ∉ rows.map key) : upsert key row rows = rows ++ [row] := by
  refine if_neg fun hany => h ?_
  obtain ⟨y, hy, heq⟩ := List.any_eq_true.mp hany
  exact List.mem_map.mpr ⟨y, hy, beq_iff_eq.mp heq⟩

theorem upsert_old (h : key row ∈ rows.map key) :
    upsert key row rows = rows.map fun x => if key x = key row then row else x := by
  refine if_pos ?_
  obtain ⟨y, hy, heq⟩ := List.mem_map.mp h
  exact List.any_eq_true.mpr ⟨y, hy, beq_iff_eq.mpr heq⟩

/-- A row that is replaced leaves the keys as they are. -/
theorem map_key_upsert_old (h : key row ∈ rows.map key) :
    (upsert key row rows).map key = rows.map key := by
  rw [upsert_old h, List.map_map]
  refine List.map_congr_left fun x _ => ?_
  by_cases hx : key x = key row <;> simp [hx]

theorem nodup_upsert (h : (rows.map key).Nodup) : ((upsert key row rows).map key).Nodup := by
  by_cases hmem : key row ∈ rows.map key
  · rwa [map_key_upsert_old hmem]
  · rw [upsert_new hmem]
    exact nodup_concat h hmem

/-- The rows are the one that was saved and those with other keys. -/
theorem mem_upsert : x ∈ upsert key row rows ↔ x = row ∨ (x ∈ rows ∧ key x ≠ key row) := by
  by_cases hmem : key row ∈ rows.map key
  · rw [upsert_old hmem, List.mem_map]
    constructor
    · rintro ⟨y, hy, rfl⟩
      by_cases hkey : key y = key row
      · exact Or.inl (if_pos hkey)
      · rw [if_neg hkey]
        exact Or.inr ⟨hy, hkey⟩
    · rintro (rfl | ⟨hx, hkey⟩)
      · obtain ⟨y, hy, hkey⟩ := List.mem_map.mp hmem
        exact ⟨y, hy, if_pos hkey⟩
      · exact ⟨x, hx, if_neg hkey⟩
  · rw [upsert_new hmem, List.mem_append, List.mem_singleton, or_comm]
    refine or_congr_right ⟨fun hx => ⟨hx, fun hkey => hmem ?_⟩, And.left⟩
    rw [← hkey]
    exact List.mem_map_of_mem hx

theorem find?_upsert_self : (upsert key row rows).find? (key · == key row) = some row := by
  have hsome : ((upsert key row rows).find? (key · == key row)).isSome = true :=
    List.find?_isSome.mpr ⟨row, mem_upsert.mpr (Or.inl rfl), beq_self_eq_true _⟩
  obtain ⟨found, hfound⟩ := Option.isSome_iff_exists.mp hsome
  have hkey := List.find?_some hfound
  rcases mem_upsert.mp (List.mem_of_find?_eq_some hfound) with rfl | ⟨-, hne⟩
  · exact hfound
  · exact absurd (beq_iff_eq.mp hkey) hne

theorem find?_upsert_other {k : κ} (h : k ≠ key row) :
    (upsert key row rows).find? (key · == k) = rows.find? (key · == k) := by
  by_cases hmem : key row ∈ rows.map key
  · have hkey : ∀ x, key (if key x = key row then row else x) = key x := by
      intro x
      by_cases hx : key x = key row <;> simp [hx]
    rw [upsert_old hmem, find?_map_key hkey]
    cases hfind : rows.find? (key · == k) with
    | none => rfl
    | some found =>
      have hbeq := List.find?_some hfind
      have hk : key found = k := beq_iff_eq.mp hbeq
      rw [Option.map_some, if_neg (hk ▸ h)]
  · have hrow : [row].find? (key · == k) = none := by simpa using Ne.symm h
    rw [upsert_new hmem, List.find?_append, hrow, Option.or_none]

/-- A new row counts, if it is one of those counted. -/
theorem length_filter_upsert_new {p : α → Bool} (h : key row ∉ rows.map key) :
    ((upsert key row rows).filter p).length =
      (rows.filter p).length + if p row = true then 1 else 0 := by
  rw [upsert_new h, List.filter_append, List.length_append]
  by_cases hp : p row = true <;> simp [hp]

/-- A row that replaces its like changes no count. -/
theorem length_filter_upsert_old {p : α → Bool} (h : key row ∈ rows.map key)
    (hp : ∀ x ∈ rows, key x = key row → p x = p row) :
    ((upsert key row rows).filter p).length = (rows.filter p).length := by
  rw [upsert_old h, List.filter_map, List.length_map]
  congr 1
  refine List.filter_congr fun x hx => ?_
  by_cases hkey : key x = key row
  · simp [hkey, hp x hx hkey]
  · simp [hkey]

end

/-! ## Items by a derived key -/

section
variable {α κ : Type} [DecidableEq κ]

/-- `{key(item): item for item in items}`: the last item of each key. -/
def indexBy (key : α → κ) (items : List α) : List (κ × α) :=
  items.foldl (fun index item => upsert Prod.fst (key item, item) index) []

variable {key : α → κ} {k : κ} {items : List α}

theorem indexBy_concat (items : List α) (item : α) : indexBy key (items ++ [item]) =
    upsert Prod.fst (key item, item) (indexBy key items) := by
  simp [indexBy]

theorem find?_indexBy : (indexBy key items).find? (·.1 == k) =
    ((items.filter (key · == k)).getLast?).map (k, ·) := by
  induction items using List.reverseRecOn with
  | nil => rfl
  | append_singleton items item ih =>
    rw [indexBy_concat, List.filter_append]
    by_cases hkey : key item = k
    · subst hkey
      have hself := @find?_upsert_self _ _ _ Prod.fst (key item, item) (indexBy key items)
      rw [hself]
      simp
    · have hother : (upsert Prod.fst (key item, item) (indexBy key items)).find? (·.1 == k) =
          (indexBy key items).find? (·.1 == k) := find?_upsert_other (Ne.symm hkey)
      have hnone : [item].filter (key · == k) = [] := by simp [hkey]
      rw [hother, ih, hnone, List.append_nil]

theorem nodup_indexBy (key : α → κ) (items : List α) : ((indexBy key items).map Prod.fst).Nodup := by
  induction items using List.reverseRecOn with
  | nil => exact List.nodup_nil
  | append_singleton items item ih =>
    rw [indexBy_concat]
    exact nodup_upsert ih

theorem mem_indexBy {x : α} : (k, x) ∈ indexBy key items ↔
    (items.filter (key · == k)).getLast? = some x := by
  constructor
  · intro h
    have hfind := find?_of_mem (nodup_indexBy key items) h
    rw [find?_indexBy] at hfind
    obtain ⟨y, hy, heq⟩ := Option.map_eq_some_iff.mp hfind
    rw [hy, (Prod.mk.inj heq).2]
  · intro h
    have hfind : (indexBy key items).find? (·.1 == k) = some (k, x) := by rw [find?_indexBy, h]; rfl
    exact List.mem_of_find?_eq_some hfind

/-- `{key(item): item for item in items}.values()`. -/
def valuesBy (key : α → κ) (items : List α) : List α := (indexBy key items).map Prod.snd

/-- A value is the last item with its key. -/
theorem mem_valuesBy {x : α} : x ∈ valuesBy key items ↔
    (items.filter (key · == key x)).getLast? = some x := by
  constructor
  · intro h
    obtain ⟨⟨k, y⟩, hmem, rfl⟩ := List.mem_map.mp h
    have hlast := mem_indexBy.mp hmem
    have hkey := (List.mem_filter.mp (List.mem_of_getLast? hlast)).2
    rwa [← beq_iff_eq.mp hkey] at hlast
  · exact fun h => List.mem_map.mpr ⟨(key x, x), mem_indexBy.mpr h, rfl⟩

theorem nodup_valuesBy (key : α → κ) (items : List α) : (valuesBy key items).Nodup := by
  refine List.Nodup.of_map key ?_
  have hkeys : (valuesBy key items).map key = (indexBy key items).map Prod.fst := by
    rw [valuesBy, List.map_map]
    refine List.map_congr_left fun item hitem => ?_
    have hlast := mem_indexBy.mp hitem
    exact beq_iff_eq.mp (List.mem_filter.mp (List.mem_of_getLast? hlast)).2
  rw [hkeys]
  exact nodup_indexBy key items

theorem valuesBy_map {β : Type} (f : β → α) (items : List β) :
    valuesBy key (items.map f) = (valuesBy (fun b => key (f b)) items).map f := by
  have hindex : indexBy key (items.map f) =
      (indexBy (fun b => key (f b)) items).map fun row => (row.1, f row.2) := by
    induction items using List.reverseRecOn with
    | nil => rfl
    | append_singleton items item ih =>
      rw [List.map_append, List.map_singleton, indexBy_concat, indexBy_concat, ih]
      unfold upsert
      rw [List.any_map]
      split
      · next hany =>
        rw [if_pos (by simpa using hany), List.map_map, List.map_map]
        refine List.map_congr_left fun row _ => ?_
        dsimp only [Function.comp_apply]
        split <;> rfl
      · next hany =>
        rw [if_neg (by simpa using hany), List.map_append]
        rfl
  rw [valuesBy, hindex, valuesBy, List.map_map, List.map_map]
  rfl

end

end RlmGraph.Lib.Rows
