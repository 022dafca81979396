import Mathlib.Data.Finset.Card
import Mathlib.Data.List.Dedup
import Mathlib.Logic.Relation

/-! # Searching a graph

A search sees the seeds first, and then, from a queue, the nodes next to what it
has seen. What waits has a label; the label decides whether a node is expanded,
and gives that of the nodes it leads to. With the depth as a label a search sees
exactly what is within a depth (`mem_search_iff`); without labels it sees what
can be reached (`mem_searchAll_iff`). -/
namespace RlmGraph.Lib.Search

variable {ν δ : Type} {next : ν → List ν} {seeds : List ν} {limit depth : Nat}

/-! ## Walks -/

inductive Walk (next : ν → List ν) : Nat → ν → ν → Prop where
  | nil (v : ν) : Walk next 0 v v
  | snoc {n : Nat} {u v w : ν} : Walk next n u v → w ∈ next v → Walk next (n + 1) u w

/-- Reached from a seed by at most so many steps. -/
def Within (next : ν → List ν) (seeds : List ν) (depth : Nat) (v : ν) : Prop :=
  ∃ seed ∈ seeds, ∃ n ≤ depth, Walk next n seed v

theorem within_zero {v : ν} : Within next seeds 0 v ↔ v ∈ seeds := by
  constructor
  · rintro ⟨seed, hseed, n, hn, hwalk⟩
    obtain rfl := Nat.le_zero.mp hn
    cases hwalk
    exact hseed
  · exact fun h => ⟨v, h, 0, le_rfl, .nil v⟩

theorem within_succ {v : ν} : Within next seeds (depth + 1) v ↔
    Within next seeds depth v ∨ ∃ u, Within next seeds depth u ∧ v ∈ next u := by
  constructor
  · rintro ⟨seed, hseed, n, hn, hwalk⟩
    cases hwalk with
    | nil => exact Or.inl ⟨v, hseed, 0, Nat.zero_le _, .nil v⟩
    | snoc hwalk hnext =>
      exact Or.inr ⟨_, ⟨seed, hseed, _, Nat.le_of_succ_le_succ hn, hwalk⟩, hnext⟩
  · rintro (⟨seed, hseed, n, hn, hwalk⟩ | ⟨u, ⟨seed, hseed, n, hn, hwalk⟩, hnext⟩)
    · exact ⟨seed, hseed, n, Nat.le_succ_of_le hn, hwalk⟩
    · exact ⟨seed, hseed, n + 1, Nat.succ_le_succ hn, .snoc hwalk hnext⟩

theorem Within.mono {v : ν} {depth' : Nat} (h : Within next seeds depth v) (hle : depth ≤ depth') :
    Within next seeds depth' v := by
  obtain ⟨seed, hseed, n, hn, hwalk⟩ := h
  exact ⟨seed, hseed, n, hn.trans hle, hwalk⟩

/-- What has been seen, and what waits to be expanded, with its label. -/
structure State (ν δ : Type) where
  seen : List ν
  queue : List (ν × δ)

def start (first : δ) (seeds : List ν) : State ν δ := ⟨seeds, seeds.map (·, first)⟩

section
variable [DecidableEq ν]

/-- A node that has not been seen is, and waits. -/
def State.meet (label : δ) (s : State ν δ) (v : ν) : State ν δ :=
  if v ∈ s.seen then s else ⟨s.seen ++ [v], s.queue ++ [(v, label)]⟩

def State.meetAll (label : δ) (s : State ν δ) (vs : List ν) : State ν δ :=
  vs.foldl (State.meet label) s

/-- One node from the front of the queue. -/
def expand (go : δ → Option δ) (next : ν → List ν) (s : State ν δ) : Option (State ν δ) :=
  match s.queue with
  | [] => none
  | (v, label) :: rest =>
    match go label with
    | none => some ⟨s.seen, rest⟩
    | some label => some (State.meetAll label ⟨s.seen, rest⟩ (next v))

/-- The search, for at most so many nodes. -/
def search (go : δ → Option δ) (next : ν → List ν) : Nat → State ν δ → State ν δ
  | 0, s => s
  | fuel + 1, s =>
    match expand go next s with
    | none => s
    | some s' => search go next fuel s'

/-- What the nodes met add. -/
theorem meetAll_eq (label : δ) (s : State ν δ) (vs : List ν) :
    ∃ new : List ν, State.meetAll label s vs = ⟨s.seen ++ new, s.queue ++ new.map (·, label)⟩ ∧
      (∀ v, v ∈ new ↔ v ∈ vs ∧ v ∉ s.seen) ∧ new.Nodup := by
  induction vs generalizing s with
  | nil => exact ⟨[], by simp [State.meetAll], by simp, List.nodup_nil⟩
  | cons v vs ih =>
    obtain ⟨new, heq, hmem, hnodup⟩ := ih (s.meet label v)
    change State.meetAll label (s.meet label v) vs = _ at heq
    by_cases hseen : v ∈ s.seen
    · have hmeet : s.meet label v = s := if_pos hseen
      rw [hmeet] at heq hmem
      refine ⟨new, by rw [State.meetAll, List.foldl_cons, hmeet]; exact heq, fun w => ?_, hnodup⟩
      rw [hmem w, List.mem_cons]
      constructor
      · exact fun ⟨hw, hnot⟩ => ⟨Or.inr hw, hnot⟩
      · rintro ⟨rfl | hw, hnot⟩
        · exact absurd hseen hnot
        · exact ⟨hw, hnot⟩
    · have hmeet : s.meet label v = ⟨s.seen ++ [v], s.queue ++ [(v, label)]⟩ := if_neg hseen
      rw [hmeet] at heq hmem
      refine ⟨v :: new, ?_, fun w => ?_, ?_⟩
      · rw [State.meetAll, List.foldl_cons, hmeet]
        rw [State.meetAll] at heq
        rw [heq]
        simp
      · rw [List.mem_cons, hmem w, List.mem_cons, List.mem_append, List.mem_singleton]
        constructor
        · rintro (rfl | ⟨hw, hnot⟩)
          · exact ⟨Or.inl rfl, hseen⟩
          · exact ⟨Or.inr hw, fun hin => hnot (Or.inl hin)⟩
        · rintro ⟨rfl | hw, hnot⟩
          · exact Or.inl rfl
          · by_cases hwv : w = v
            · exact Or.inl hwv
            · exact Or.inr ⟨hw, fun hin => hin.elim hnot hwv⟩
      · refine List.nodup_cons.mpr ⟨fun hin => ?_, hnodup⟩
        exact ((hmem v).mp hin).2 (List.mem_append_right _ (List.mem_singleton.mpr rfl))

/-! ## How long it takes -/

/-- What has not been seen, and what waits. -/
def State.left (nodes : List ν) (s : State ν δ) : Nat :=
  (nodes.toFinset \ s.seen.toFinset).card + s.queue.length

variable {go : δ → Option δ} {s s' : State ν δ}

theorem left_expand {nodes : List ν} (hnodes : ∀ v, next v ⊆ nodes)
    (hs : expand go next s = some s') : s'.left nodes < s.left nodes := by
  unfold expand at hs
  split at hs
  · cases hs
  · next v label rest hqueue =>
    split at hs
    · cases hs
      simp [State.left, hqueue]
    · obtain ⟨new, heq, hnew, hnodup⟩ := meetAll_eq _ ⟨s.seen, rest⟩ (next v)
      rw [heq] at hs
      cases hs
      have hunseen : new.toFinset ⊆ nodes.toFinset \ s.seen.toFinset := by
        intro w hw
        obtain ⟨hnext, hseen⟩ := (hnew w).mp (List.mem_toFinset.mp hw)
        exact Finset.mem_sdiff.mpr ⟨List.mem_toFinset.mpr (hnodes v hnext), fun hin =>
          hseen (List.mem_toFinset.mp hin)⟩
      have hcard : (nodes.toFinset \ (s.seen ++ new).toFinset).card + new.length =
          (nodes.toFinset \ s.seen.toFinset).card := by
        have hrest : nodes.toFinset \ (s.seen ++ new).toFinset =
            (nodes.toFinset \ s.seen.toFinset) \ new.toFinset := by
          ext w
          simp [and_assoc]
        rw [hrest, ← List.toFinset_card_of_nodup hnodup]
        exact Finset.card_sdiff_add_card_eq_card hunseen
      simp only [State.left, hqueue, List.length_append, List.length_map, List.length_cons]
      omega

theorem search_finished {nodes : List ν} (hnodes : ∀ v, next v ⊆ nodes) {fuel : Nat}
    (hfuel : s.left nodes ≤ fuel) : (search go next fuel s).queue = [] := by
  induction fuel generalizing s with
  | zero =>
    have hlength : s.queue.length = 0 := Nat.eq_zero_of_add_eq_zero_left (Nat.le_zero.mp hfuel)
    exact List.length_eq_zero_iff.mp hlength
  | succ fuel ih =>
    unfold search
    cases hs : expand go next s with
    | none =>
      unfold expand at hs
      split at hs
      · assumption
      · split at hs <;> cases hs
    | some s' => exact ih (by have hlt := left_expand hnodes hs; omega)

theorem expand_eq_none_iff : expand go next s = none ↔ s.queue = [] := by
  unfold expand
  split
  · next hqueue => exact iff_of_true rfl hqueue
  · next v label rest hqueue =>
    rw [hqueue]
    split <;> simp

/-- The last node of a search, rather than the first. -/
theorem search_succ (go : δ → Option δ) (next : ν → List ν) (fuel : Nat) (s : State ν δ) :
    search go next (fuel + 1) s =
      (expand go next (search go next fuel s)).getD (search go next fuel s) := by
  induction fuel generalizing s with
  | zero =>
    unfold search
    cases expand go next s <;> rfl
  | succ fuel ih =>
    rw [search]
    cases hs : expand go next s with
    | none =>
      have hstays : search go next (fuel + 1) s = s := by rw [search, hs]
      rw [hstays, hs]
      rfl
    | some s' =>
      have hsteps : search go next (fuel + 1) s = search go next fuel s' := by rw [search, hs]
      rw [hsteps]
      exact ih s'

/-- What one node adds is new. -/
theorem seen_expand (hs : expand go next s = some s') :
    ∃ new : List ν, s'.seen = s.seen ++ new ∧ new.Nodup ∧ ∀ v ∈ new, v ∉ s.seen := by
  unfold expand at hs
  split at hs
  · cases hs
  · split at hs
    · cases hs
      exact ⟨[], (List.append_nil _).symm, List.nodup_nil, fun v hv => nomatch hv⟩
    · next v label rest _ _ label' _ =>
      obtain ⟨new, heq, hnew, hnodup⟩ := meetAll_eq label' ⟨s.seen, rest⟩ (next v)
      rw [heq] at hs
      cases hs
      exact ⟨new, rfl, hnodup, fun w hw => ((hnew w).mp hw).2⟩

theorem nodup_search (fuel : Nat) (h : s.seen.Nodup) : (search go next fuel s).seen.Nodup := by
  induction fuel with
  | zero => exact h
  | succ fuel ih =>
    rw [search_succ]
    cases hs : expand go next (search go next fuel s) with
    | none => exact ih
    | some s' =>
      obtain ⟨new, hseen, hnodup, hnew⟩ := seen_expand hs
      change s'.seen.Nodup
      rw [hseen]
      exact List.nodup_append'.mpr ⟨ih, hnodup, fun v hv hin => hnew v hin hv⟩

theorem subset_search (go : δ → Option δ) (next : ν → List ν) (fuel : Nat) (s : State ν δ) :
    s.seen ⊆ (search go next fuel s).seen := by
  induction fuel with
  | zero => exact List.Subset.refl _
  | succ fuel ih =>
    rw [search_succ]
    cases hs : expand go next (search go next fuel s) with
    | none => exact ih
    | some s' =>
      obtain ⟨new, hseen, -⟩ := seen_expand hs
      change s.seen ⊆ s'.seen
      rw [hseen]
      exact fun v hv => List.mem_append_left _ (ih hv)

theorem length_search_mono {fuel fuel' : Nat} (hle : fuel ≤ fuel') :
    (search go next fuel s).seen.length ≤ (search go next fuel' s).seen.length := by
  induction hle with
  | refl => exact le_rfl
  | @step fuel' _ ih =>
    refine ih.trans ?_
    rw [search_succ]
    cases hs : expand go next (search go next fuel' s) with
    | none => exact le_rfl
    | some s' =>
      obtain ⟨new, hseen, -⟩ := seen_expand hs
      change _ ≤ s'.seen.length
      rw [hseen, List.length_append]
      exact Nat.le_add_right _ _

/-- A search with nothing left stays as it is. -/
theorem search_stays {fuel fuel' : Nat} (hqueue : (search go next fuel s).queue = [])
    (hle : fuel ≤ fuel') : search go next fuel' s = search go next fuel s := by
  induction hle with
  | refl => rfl
  | step _ ih => rw [search_succ, ih, expand_eq_none_iff.mpr hqueue, Option.getD_none]

theorem left_start (first : δ) (nodes seeds : List ν) : (start first seeds).left nodes ≤ nodes.length + seeds.length := by
  have hcard : (nodes.toFinset \ seeds.toFinset).card ≤ nodes.length :=
    (Finset.card_le_card Finset.sdiff_subset).trans (List.toFinset_card_le nodes)
  simp only [State.left, start, List.length_map]
  omega


end

/-! ## A search that keeps to a depth -/

/-- The label of a node that is a step further, within the limit. -/
def upTo (limit depth : Nat) : Option Nat := if limit ≤ depth then none else some (depth + 1)

/-- The search is between two depths: `near` waits at the first, `far` at the
second, and whatever else is within the first has been expanded. -/
structure Between (limit : Nat) (next : ν → List ν) (seeds : List ν) (depth : Nat)
    (near far : List ν) (s : State ν Nat) : Prop where
  queue : s.queue = near.map (·, depth) ++ far.map (·, depth + 1)
  bounded : depth ≤ limit ∧ (depth = limit → far = [])
  seen : ∀ v, Within next seeds depth v → v ∈ s.seen
  reached : ∀ v ∈ s.seen, Within next seeds depth v ∨ v ∈ far
  far_reached : ∀ v ∈ far, Within next seeds (depth + 1) v
  near_reached : ∀ v ∈ near, Within next seeds depth v
  expanded : depth < limit → ∀ u, Within next seeds depth u → u ∉ near → ∀ v ∈ next u, v ∈ s.seen

variable {near far : List ν} {s s' : State ν Nat}

theorem between_start (limit : Nat) (next : ν → List ν) (seeds : List ν) :
    Between limit next seeds 0 seeds [] (start 0 seeds) where
  queue := by simp [start]
  bounded := ⟨Nat.zero_le _, fun _ => rfl⟩
  seen _ h := within_zero.mp h
  reached _ h := Or.inl (within_zero.mpr h)
  far_reached _ h := nomatch h
  near_reached _ h := within_zero.mpr h
  expanded _ _ hu hnear := absurd (within_zero.mp hu) hnear

/-- With nothing left at the first depth, the second is the first. -/
theorem Between.deeper (h : Between limit next seeds depth [] far s) (hdepth : depth < limit) :
    Between limit next seeds (depth + 1) far [] s where
  queue := by simpa using h.queue
  bounded := ⟨hdepth, fun _ => rfl⟩
  seen v hv := by
    obtain hv | ⟨u, hu, hnext⟩ := within_succ.mp hv
    · exact h.seen v hv
    · exact h.expanded hdepth u hu (fun hnear => nomatch hnear) v hnext
  reached v hv := Or.inl ((h.reached v hv).elim (·.mono (Nat.le_succ _)) (h.far_reached v))
  far_reached _ hv := nomatch hv
  near_reached := h.far_reached
  expanded _ u hu hnear v hnext := by
    have hwithin := (h.reached u (by
      obtain hu | ⟨w, hw, hnext⟩ := within_succ.mp hu
      · exact h.seen u hu
      · exact h.expanded hdepth w hw (fun hin => nomatch hin) u hnext)).resolve_right hnear
    exact h.expanded hdepth u hwithin (fun hin => nomatch hin) v hnext

/-- What is seen is within the limit at every moment. -/
theorem Between.sound (h : Between limit next seeds depth near far s) {v : ν} (hv : v ∈ s.seen) :
    Within next seeds limit v := by
  obtain hv | hv := h.reached v hv
  · exact hv.mono h.bounded.1
  · have hdepth : depth < limit := lt_of_le_of_ne h.bounded.1 fun heq => by
      rw [h.bounded.2 heq] at hv
      cases hv
    exact (h.far_reached v hv).mono hdepth

/-- When nothing waits, everything within the limit has been seen. -/
theorem Between.complete (h : Between limit next seeds depth near far s) (hqueue : s.queue = [])
    {v : ν} (hv : Within next seeds limit v) : v ∈ s.seen := by
  have hempty : near = [] ∧ far = [] := by
    have hnil := h.queue.symm.trans hqueue
    simpa using hnil
  obtain ⟨rfl, rfl⟩ := hempty
  obtain hdepth | hdepth := lt_or_eq_of_le h.bounded.1
  · obtain ⟨seed, hseed, n, -, hwalk⟩ := hv
    induction hwalk with
    | nil => exact h.seen _ ⟨_, hseed, 0, Nat.zero_le _, .nil _⟩
    | snoc _ hnext ih =>
      have hwithin := (h.reached _ (ih hseed)).resolve_right (fun hin => nomatch hin)
      exact h.expanded hdepth _ hwithin (fun hin => nomatch hin) _ hnext
  · rw [← hdepth] at hv
    exact h.seen v hv

section
variable [DecidableEq ν]

/-- One node of the first depth. -/
theorem Between.expand_near {v : ν} (h : Between limit next seeds depth (v :: near) far s)
    (hs : expand (upTo limit) next s = some s') : ∃ far', Between limit next seeds depth near far' s' := by
  have hqueue : s.queue = (v, depth) :: (near.map (·, depth) ++ far.map (·, depth + 1)) := h.queue
  unfold expand upTo at hs
  rw [hqueue] at hs
  dsimp only at hs
  by_cases hlimit : limit ≤ depth
  · rw [if_pos hlimit] at hs
    cases hs
    exact ⟨far, {
      queue := rfl
      bounded := h.bounded
      seen := h.seen
      reached := h.reached
      far_reached := h.far_reached
      near_reached := fun w hw => h.near_reached w (List.mem_cons_of_mem v hw)
      expanded := fun hlt => absurd hlt (not_lt.mpr hlimit) }⟩
  · rw [if_neg hlimit] at hs
    obtain ⟨new, heq, hnew, -⟩ := meetAll_eq (depth + 1)
      ⟨s.seen, near.map (·, depth) ++ far.map (·, depth + 1)⟩ (next v)
    dsimp only at hs
    rw [heq] at hs
    cases hs
    have hv := h.near_reached v List.mem_cons_self
    refine ⟨far ++ new, {
      queue := by simp
      bounded := ⟨h.bounded.1, fun hdepth => absurd hdepth.ge hlimit⟩
      seen := fun w hw => List.mem_append_left new (h.seen w hw)
      reached := fun w hw => ?_
      far_reached := fun w hw => ?_
      near_reached := fun w hw => h.near_reached w (List.mem_cons_of_mem v hw)
      expanded := fun hlt u hu hnear w hw => ?_ }⟩
    · obtain hw | hw := List.mem_append.mp hw
      · exact (h.reached w hw).imp_right (List.mem_append_left new)
      · exact Or.inr (List.mem_append_right far hw)
    · obtain hw | hw := List.mem_append.mp hw
      · exact h.far_reached w hw
      · exact within_succ.mpr (Or.inr ⟨v, hv, ((hnew w).mp hw).1⟩)
    · by_cases huv : u = v
      · rw [huv] at hw
        by_cases hseen : w ∈ s.seen
        · exact List.mem_append_left new hseen
        · exact List.mem_append_right s.seen ((hnew w).mpr ⟨hw, hseen⟩)
      · have hnot : u ∉ v :: near := List.not_mem_cons_of_ne_of_not_mem huv hnear
        exact List.mem_append_left new (h.expanded hlt u hu hnot w hw)

/-- One node. -/
theorem Between.expand (h : Between limit next seeds depth near far s)
    (hs : Search.expand (upTo limit) next s = some s') :
    ∃ depth' near' far', Between limit next seeds depth' near' far' s' := by
  cases near with
  | cons v near =>
    obtain ⟨far', h'⟩ := h.expand_near hs
    exact ⟨depth, near, far', h'⟩
  | nil =>
    cases far with
    | nil =>
      have hqueue : s.queue = [] := h.queue
      unfold Search.expand at hs
      rw [hqueue] at hs
      cases hs
    | cons w far =>
      have hdepth : depth < limit := lt_of_le_of_ne h.bounded.1 fun heq =>
        nomatch h.bounded.2 heq
      obtain ⟨far', h'⟩ := (h.deeper hdepth).expand_near hs
      exact ⟨depth + 1, far, far', h'⟩

theorem between_search (fuel : Nat) (h : Between limit next seeds depth near far s) :
    ∃ depth' near' far', Between limit next seeds depth' near' far' (search (upTo limit) next fuel s) := by
  induction fuel generalizing depth near far s with
  | zero => exact ⟨depth, near, far, h⟩
  | succ fuel ih =>
    unfold search
    cases hs : Search.expand (upTo limit) next s with
    | none => exact ⟨depth, near, far, h⟩
    | some s' =>
      obtain ⟨depth', near', far', h'⟩ := h.expand hs
      exact ih h'

end

/-! ## A search without labels -/

/-- What is next to something seen that does not wait is seen. -/
def Closed (next : ν → List ν) (seen waiting : List ν) : Prop :=
  ∀ u ∈ seen, u ∉ waiting → ∀ v ∈ next u, v ∈ seen

/-- Reached from a seed. -/
def Reached (next : ν → List ν) (seeds : List ν) (v : ν) : Prop :=
  ∃ seed ∈ seeds, Relation.ReflTransGen (fun u v => v ∈ next u) seed v

/-- Once nothing waits, what is seen is what can be reached. -/
theorem mem_iff_of_closed {seen : List ν} (hclosed : Closed next seen []) (hseeds : seeds ⊆ seen)
    (hsound : ∀ v ∈ seen, Reached next seeds v) {v : ν} : v ∈ seen ↔ Reached next seeds v := by
  constructor
  · exact hsound v
  · rintro ⟨seed, hseed, hreach⟩
    induction hreach with
    | refl => exact hseeds hseed
    | tail _ hnext ih => exact hclosed _ ih (fun hin => nomatch hin) _ hnext

/-- What a search has seen is reached, and closed but for what waits. -/
structure Searched (next : ν → List ν) (seeds : List ν) (s : State ν Unit) : Prop where
  started : seeds ⊆ s.seen
  reached : ∀ v ∈ s.seen, Reached next seeds v
  waiting : ∀ item ∈ s.queue, item.1 ∈ s.seen
  closed : Closed next s.seen (s.queue.map Prod.fst)

theorem searched_start (next : ν → List ν) (seeds : List ν) : Searched next seeds (start () seeds) where
  started := List.Subset.refl _
  reached v hv := ⟨v, hv, .refl⟩
  waiting item hitem := by
    obtain ⟨seed, hseed, rfl⟩ := List.mem_map.mp hitem
    exact hseed
  closed u hu hwaits := by
    have hqueued : (u, ()) ∈ (start () seeds).queue := List.mem_map.mpr ⟨u, hu, rfl⟩
    exact absurd (List.mem_map_of_mem hqueued) hwaits

section
variable [DecidableEq ν]

theorem Searched.expand {s s' : State ν Unit} (h : Searched next seeds s)
    (hs : Search.expand some next s = some s') : Searched next seeds s' := by
  unfold Search.expand at hs
  split at hs
  · cases hs
  · next v label rest hqueue =>
    obtain ⟨new, heq, hnew, -⟩ := meetAll_eq label ⟨s.seen, rest⟩ (next v)
    have hv : v ∈ s.seen := h.waiting (v, label) (by rw [hqueue]; exact List.mem_cons_self)
    obtain ⟨seed, hseed, hreach⟩ := h.reached v hv
    dsimp only at hs
    rw [heq] at hs
    cases hs
    refine ⟨fun w hw => List.mem_append_left _ (h.started hw), fun w hw => ?_, fun item hitem => ?_,
      fun u hu hwaits w hw => ?_⟩
    · obtain hw | hw := List.mem_append.mp hw
      · exact h.reached w hw
      · exact ⟨seed, hseed, hreach.tail ((hnew w).mp hw).1⟩
    · obtain hitem | hitem := List.mem_append.mp hitem
      · exact List.mem_append_left _ (h.waiting item (by rw [hqueue]; exact List.mem_cons_of_mem _ hitem))
      · obtain ⟨w, hw, rfl⟩ := List.mem_map.mp hitem
        exact List.mem_append_right _ hw
    · have hold : u ∈ s.seen := (List.mem_append.mp hu).resolve_right fun hin =>
        hwaits (List.mem_map.mpr ⟨(u, label), List.mem_append_right _ (List.mem_map_of_mem hin), rfl⟩)
      by_cases huv : u = v
      · rw [huv] at hw
        by_cases hseen : w ∈ s.seen
        · exact List.mem_append_left _ hseen
        · exact List.mem_append_right _ ((hnew w).mpr ⟨hw, hseen⟩)
      · refine List.mem_append_left _ (h.closed u hold (fun hin => ?_) w hw)
        rw [hqueue, List.map_cons, List.mem_cons] at hin
        rw [List.map_append] at hwaits
        exact hwaits (List.mem_append_left _ (hin.resolve_left huv))

/-- **A search without labels sees exactly what can be reached.** -/
theorem mem_searchAll_iff {nodes : List ν} (hnodes : ∀ v, next v ⊆ nodes) {fuel : Nat}
    (hfuel : nodes.length + seeds.length ≤ fuel) {v : ν} :
    v ∈ (search some next fuel (start () seeds)).seen ↔ Reached next seeds v := by
  have hsearched : ∀ fuel s, Searched next seeds s → Searched next seeds (search some next fuel s) := by
    intro fuel
    induction fuel with
    | zero => exact fun s h => h
    | succ fuel ih =>
      intro s h
      unfold search
      cases hs : Search.expand some next s with
      | none => exact h
      | some s' => exact ih s' (h.expand hs)
  have h := hsearched fuel _ (searched_start next seeds)
  have hqueue : (search some next fuel (start () seeds)).queue = [] :=
    search_finished hnodes ((left_start () nodes seeds).trans hfuel)
  refine mem_iff_of_closed ?_ h.started h.reached
  have hclosed := h.closed
  rwa [hqueue] at hclosed

end

end RlmGraph.Lib.Search
