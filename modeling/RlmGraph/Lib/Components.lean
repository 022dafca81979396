import Mathlib.Logic.Relation
import RlmGraph.Lib.Rows

/-! # Connected components by a worklist

Items lie in a pool, and some are near one another. The pool's last item seeds
a component; what is near an item of the component leaves the pool and joins
it, and waits on a frontier whose last item is looked at next. The components
are the classes of the items that chains of near items join
(`perm_components`, `same_component_iff`). -/
namespace RlmGraph.Lib.Components
open RlmGraph.Lib.Rows Relation

section
variable {α κ : Type} [DecidableEq κ]

/-- The items with keys that none of those gone has. -/
def without (key : α → κ) (gone pool : List α) : List α :=
  pool.filter fun item => decide (key item ∉ gone.map key)

/-- The items of the pool that are near one. -/
def neighborsOf (near : α → α → Bool) (current : α) (pool : List α) : List α :=
  pool.filter (near current)

theorem length_without (key : α → κ) (near : α → α → Bool) (current : α) (pool : List α) :
    (without key (neighborsOf near current pool) pool).length +
      (neighborsOf near current pool).length ≤ pool.length := by
  have hrest : (without key (neighborsOf near current pool) pool).length ≤
      (pool.filter (!near current ·)).length := by
    rw [without, ← List.countP_eq_length_filter, ← List.countP_eq_length_filter]
    refine List.countP_mono_left fun item hmem hkept => ?_
    by_contra hnear
    have hgone : item ∈ neighborsOf near current pool :=
      List.mem_filter.mpr ⟨hmem, by simpa using hnear⟩
    exact of_decide_eq_true hkept (List.mem_map_of_mem hgone)
  have hsplit := List.length_eq_length_filter_add (l := pool) (near current)
  unfold neighborsOf at hrest ⊢
  omega

/-- The search for a component: the frontier with its last item first, the
pool, and the component so far. The rest of the pool comes with it. -/
def search (key : α → κ) (near : α → α → Bool) (frontier pool component : List α) :
    List α × List α :=
  match frontier with
  | [] => (component, pool)
  | current :: frontier =>
    let neighbors := neighborsOf near current pool
    search key near (neighbors.reverse ++ frontier) (without key neighbors pool)
      (component ++ neighbors)
termination_by pool.length + frontier.length
decreasing_by
  have := length_without key near current pool
  simp only [List.length_append, List.length_reverse, List.length_cons]
  omega

/-- What the search leaves is no more than the pool it had. -/
theorem length_search (key : α → κ) (near : α → α → Bool) (frontier pool component : List α) :
    (search key near frontier pool component).2.length ≤ pool.length := by
  fun_induction search key near frontier pool component with
  | case1 pool component => exact Nat.le_refl _
  | case2 pool component current frontier neighbors ih =>
    exact Nat.le_trans ih (List.length_filter_le _ _)

/-- The components of a pool, the one of its last item first. -/
def componentsOf (key : α → κ) (near : α → α → Bool) (pool : List α) : List (List α) :=
  match _hlast : pool.getLast? with
  | none => []
  | some seed =>
    let found := search key near [seed] pool.dropLast [seed]
    found.1 :: componentsOf key near found.2
termination_by pool.length
decreasing_by
  have hne : pool ≠ [] := by rintro rfl; cases _hlast
  have hlen := length_search key near [seed] pool.dropLast [seed]
  have hpos := List.length_pos_iff.mpr hne
  rw [List.length_dropLast] at hlen
  omega

/-- The items by their keys, as a pool, and its components. -/
def components (key : α → κ) (near : α → α → Bool) (items : List α) : List (List α) :=
  componentsOf key near (items.foldl (fun pool item => upsert key item pool) [])

end

/-! ## Chains -/

variable {α : Type}

/-- A chain of near items that stays among the items. -/
def Joined (near : α → α → Bool) (items : List α) : α → α → Prop :=
  ReflTransGen fun a b => b ∈ items ∧ near a b = true

variable {near : α → α → Bool} {items more : List α} {a b : α}

theorem Joined.mono (h : Joined near items a b) (hsub : ∀ x ∈ items, x ∈ more) :
    Joined near more a b :=
  h.lift id fun _ _ hstep => ⟨hsub _ hstep.1, hstep.2⟩

theorem Joined.symm (hsymm : ∀ a b, near a b = near b a) (ha : a ∈ items)
    (h : Joined near items a b) : Joined near items b a := by
  induction h with
  | refl => exact .refl
  | @tail b c hab hbc ih =>
    have hb : b ∈ items := by
      cases hab with
      | refl => exact ha
      | tail _ hstep => exact hstep.1
    exact ReflTransGen.head ⟨hb, (hsymm c b).trans hbc.2⟩ ih

/-- A chain that starts among items near no other stays among them. -/
theorem Joined.closed {part : List α}
    (hclosed : ∀ x ∈ part, ∀ y ∈ items, near x y = true → y ∈ part) (ha : a ∈ part)
    (h : Joined near items a b) : b ∈ part ∧ Joined near part a b := by
  induction h with
  | refl => exact ⟨ha, .refl⟩
  | tail _ hstep ih =>
    have hmem := hclosed _ ih.1 _ hstep.1 hstep.2
    exact ⟨hmem, ih.2.tail ⟨hmem, hstep.2⟩⟩

/-! ## The search for one component -/

/-- A search from a seed: the component and the pool are the items; the
component is joined to the seed, and only what waits has near items left. -/
structure Searching (near : α → α → Bool) (items : List α) (seed : α)
    (frontier pool component : List α) : Prop where
  perm : (component ++ pool).Perm items
  waiting : ∀ x ∈ frontier, x ∈ component
  seeded : seed ∈ component
  joined : ∀ x ∈ component, Joined near items seed x
  seen : ∀ x ∈ component, x ∉ frontier → ∀ y ∈ pool, near x y = false

variable {seed current : α} {frontier pool component : List α}

theorem searching_seed (near : α → α → Bool) (hlast : pool.getLast? = some seed) :
    Searching near pool seed [seed] pool.dropLast [seed] where
  perm := by
    have hpool : pool = pool.dropLast ++ [seed] := (List.dropLast_append_getLast? seed hlast).symm
    calc ([seed] ++ pool.dropLast).Perm (pool.dropLast ++ [seed]) := List.perm_append_comm
      _ = pool := hpool.symm
  waiting := fun _ hx => hx
  seeded := List.mem_singleton_self seed
  joined := fun x hx => List.mem_singleton.mp hx ▸ .refl
  seen := fun _ hx hfront => absurd hx hfront

/-- A finished component is closed: what is near an item of it is in it. -/
theorem Searching.mem_of_near (h : Searching near items seed [] pool component)
    (ha : a ∈ component) (hb : b ∈ items) (hnear : near a b = true) : b ∈ component := by
  refine (List.mem_append.mp (h.perm.mem_iff.mpr hb)).resolve_right fun hpool => ?_
  have hfar := h.seen a ha List.not_mem_nil b hpool
  rw [hnear] at hfar
  cases hfar

section
variable {κ : Type} [DecidableEq κ] {key : α → κ}

/-- With keys of their own, the neighbors leave the pool and no other. -/
theorem without_neighborsOf (current : α) (hkeys : (pool.map key).Nodup) :
    without key (neighborsOf near current pool) pool = pool.filter (!near current ·) := by
  refine List.filter_congr fun item hitem => ?_
  have hiff : key item ∈ (neighborsOf near current pool).map key ↔ near current item = true := by
    constructor
    · intro hmem
      obtain ⟨other, hother, hkey⟩ := List.mem_map.mp hmem
      have hin := List.mem_filter.mp hother
      have hsame : other = item := List.inj_on_of_nodup_map hkeys hin.1 hitem hkey
      exact hsame ▸ hin.2
    · intro hp
      exact List.mem_map_of_mem (List.mem_filter.mpr ⟨hitem, hp⟩)
  by_cases hp : near current item = true
  · simp [hiff, hp]
  · simp [hiff, hp]

/-- One item of the frontier is looked at. -/
theorem Searching.step (h : Searching near items seed (current :: frontier) pool component)
    (hkeys : (items.map key).Nodup) :
    Searching near items seed ((neighborsOf near current pool).reverse ++ frontier)
      (without key (neighborsOf near current pool) pool)
      (component ++ neighborsOf near current pool) := by
  have hpool : (pool.map key).Nodup :=
    ((h.perm.map key).nodup_iff.mpr hkeys).sublist
      ((List.sublist_append_right component pool).map key)
  have hcurrent := h.waiting current List.mem_cons_self
  have hitems : ∀ x ∈ pool, x ∈ items := fun x hx =>
    h.perm.mem_iff.mp (List.mem_append_right component hx)
  rw [without_neighborsOf current hpool]
  constructor
  · rw [List.append_assoc]
    exact ((List.filter_append_perm (near current) pool).append_left component).trans h.perm
  · intro x hx
    rcases List.mem_append.mp hx with hnew | hold
    · exact List.mem_append_right _ (List.mem_reverse.mp hnew)
    · exact List.mem_append_left _ (h.waiting x (List.mem_cons_of_mem _ hold))
  · exact List.mem_append_left _ h.seeded
  · intro x hx
    rcases List.mem_append.mp hx with hold | hnew
    · exact h.joined x hold
    · have hnear := List.mem_filter.mp hnew
      exact (h.joined current hcurrent).tail ⟨hitems x hnear.1, hnear.2⟩
  · intro x hx hfront y hy
    have hleft := List.mem_filter.mp hy
    rw [List.mem_append, List.mem_reverse, not_or] at hfront
    have hold : x ∈ component := (List.mem_append.mp hx).resolve_right hfront.1
    by_cases hcur : x = current
    · simpa [hcur] using hleft.2
    · exact h.seen x hold (by simp [hcur, hfront.2]) y hleft.1

/-- The search ends with the items joined to the seed, and the rest are near
none of them. -/
theorem Searching.run (h : Searching near items seed frontier pool component)
    (hkeys : (items.map key).Nodup) :
    Searching near items seed [] (search key near frontier pool component).2
      (search key near frontier pool component).1 := by
  fun_induction search key near frontier pool component with
  | case1 pool component => exact h
  | case2 pool component current frontier neighbors ih => exact ih (h.step hkeys)

/-! ## All components -/

theorem perm_componentsOf (hkeys : (pool.map key).Nodup) :
    (componentsOf key near pool).flatten.Perm pool := by
  fun_induction componentsOf key near pool with
  | case1 pool hlast => rw [List.getLast?_eq_none_iff.mp hlast]; exact .refl _
  | case2 pool seed hlast found ih =>
    have hfound := (searching_seed near hlast).run hkeys
    have hrest : (found.2.map key).Nodup :=
      ((hfound.perm.map key).nodup_iff.mpr hkeys).sublist
        ((List.sublist_append_right found.1 found.2).map key)
    rw [List.flatten_cons]
    exact ((ih hrest).append_left found.1).trans hfound.perm

theorem ne_nil_of_mem_componentsOf (hkeys : (pool.map key).Nodup) {part : List α}
    (hpart : part ∈ componentsOf key near pool) : part ≠ [] := by
  fun_induction componentsOf key near pool with
  | case1 pool hlast => cases hpart
  | case2 pool seed hlast found ih =>
    have hfound := (searching_seed near hlast).run hkeys
    have hrest : (found.2.map key).Nodup :=
      ((hfound.perm.map key).nodup_iff.mpr hkeys).sublist
        ((List.sublist_append_right found.1 found.2).map key)
    rcases List.mem_cons.mp hpart with rfl | hlater
    · exact List.ne_nil_of_mem hfound.seeded
    · exact ih hrest hlater

/-- Two items are in one component if and only if a chain joins them. -/
theorem same_componentOf_iff (hkeys : (pool.map key).Nodup)
    (hsymm : ∀ a b, near a b = near b a) (ha : a ∈ pool) :
    (∃ part ∈ componentsOf key near pool, a ∈ part ∧ b ∈ part) ↔ Joined near pool a b := by
  fun_induction componentsOf key near pool with
  | case1 pool hlast => rw [List.getLast?_eq_none_iff.mp hlast] at ha; cases ha
  | case2 pool seed hlast found ih =>
    have hfound := (searching_seed near hlast).run hkeys
    have hall : ((found.1 ++ found.2).map key).Nodup := (hfound.perm.map key).nodup_iff.mpr hkeys
    have hrest : (found.2.map key).Nodup :=
      hall.sublist ((List.sublist_append_right found.1 found.2).map key)
    have hapart : ∀ x ∈ found.1, x ∉ found.2 := fun x hx hx' =>
      (List.nodup_append.mp (List.Nodup.of_map key hall)).2.2 x hx x hx' rfl
    have hseed : seed ∈ pool := List.mem_of_getLast? hlast
    have hlater : ∀ part ∈ componentsOf key near found.2, ∀ x ∈ part, x ∈ found.2 :=
      fun part hpart x hx =>
        (perm_componentsOf hrest).mem_iff.mp (List.mem_flatten_of_mem hpart hx)
    rcases List.mem_append.mp (hfound.perm.mem_iff.mpr ha) with hfirst | hlast
    · -- the first component is all that is joined to an item of it
      constructor
      · rintro ⟨part, hpart, hap, hbp⟩
        rcases List.mem_cons.mp hpart with rfl | hpart
        · exact ((hfound.joined a hap).symm hsymm hseed).trans (hfound.joined b hbp)
        · exact absurd (hlater part hpart a hap) (hapart a hfirst)
      · intro hjoined
        refine ⟨found.1, List.mem_cons_self, hfirst, ?_⟩
        exact (hjoined.closed (fun x hx y hy => hfound.mem_of_near hx hy) hfirst).1
    · -- chains from the rest stay in it, since near is symmetric
      have hstay : ∀ x ∈ found.2, ∀ y ∈ pool, near x y = true → y ∈ found.2 := by
        intro x hx y hy hnear
        refine (List.mem_append.mp (hfound.perm.mem_iff.mpr hy)).resolve_left fun hfirst => ?_
        have hx' : x ∈ pool := hfound.perm.mem_iff.mp (List.mem_append_right _ hx)
        exact hapart x (hfound.mem_of_near hfirst hx' ((hsymm y x).trans hnear)) hx
      have hrestOf : Joined near found.2 a b ↔ Joined near pool a b :=
        ⟨fun h => h.mono fun x hx => hfound.perm.mem_iff.mp (List.mem_append_right _ hx),
          fun h => (h.closed hstay hlast).2⟩
      rw [← hrestOf, ← ih hrest hlast]
      constructor
      · rintro ⟨part, hpart, hap, hbp⟩
        rcases List.mem_cons.mp hpart with rfl | hpart
        · exact absurd hlast (hapart a hap)
        · exact ⟨part, hpart, hap, hbp⟩
      · rintro ⟨part, hpart, hab⟩
        exact ⟨part, List.mem_cons_of_mem _ hpart, hab⟩

/-! ## Items with keys of their own -/

/-- Such items are the pool as they are. -/
theorem components_eq (near : α → α → Bool) (hkeys : (items.map key).Nodup) :
    components key near items = componentsOf key near items := by
  have hpool : ∀ more : List α, ((more ++ items).map key).Nodup →
      items.foldl (fun pool item => upsert key item pool) more = more ++ items := by
    clear hkeys
    induction items with
    | nil => intro more _; exact (List.append_nil more).symm
    | cons item items ih =>
      intro more hkeys
      have hnew : key item ∉ more.map key := by
        rw [List.map_append, List.map_cons] at hkeys
        exact fun hmem => (List.nodup_append.mp hkeys).2.2 _ hmem _ List.mem_cons_self rfl
      rw [List.foldl_cons, upsert_new hnew, ih (more ++ [item]) (by simpa using hkeys),
        List.append_assoc, List.singleton_append]
  rw [components, hpool [] hkeys, List.nil_append]

/-- The components hold every item once. -/
theorem perm_components (near : α → α → Bool) (hkeys : (items.map key).Nodup) :
    (components key near items).flatten.Perm items := by
  rw [components_eq near hkeys]
  exact perm_componentsOf hkeys

theorem ne_nil_of_mem_components (hkeys : (items.map key).Nodup) {part : List α}
    (hpart : part ∈ components key near items) : part ≠ [] := by
  rw [components_eq near hkeys] at hpart
  exact ne_nil_of_mem_componentsOf hkeys hpart

/-- **The components are the classes of the items that chains join.** -/
theorem same_component_iff (hkeys : (items.map key).Nodup)
    (hsymm : ∀ a b, near a b = near b a) (ha : a ∈ items) :
    (∃ part ∈ components key near items, a ∈ part ∧ b ∈ part) ↔ Joined near items a b := by
  rw [components_eq near hkeys]
  exact same_componentOf_iff hkeys hsymm ha

end

end RlmGraph.Lib.Components
