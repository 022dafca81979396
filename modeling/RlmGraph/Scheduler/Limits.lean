import RlmGraph.Scheduler.Effects

/-! # The limits of the scheduler

The active items (`RUNNING` or `CANCELLATION_REQUESTED`) stay within the four
limits in every run. Each limit bounds a load: the sum of a weight over the
active items, where the weight of an item never changes (`Steady`). No call
raises a load but the one that starts an item, and it has looked for room. -/
namespace RlmGraph.Scheduler.Limits
open RlmGraph.Scheduler.Work RlmGraph.Scheduler.Effects

/-! ## Sums over a keyed list -/

theorem sum_filter_key {α β : Type} [DecidableEq β] {key : α → β} (weight : α → Nat) {xs : List α}
    {x : α} (hkeys : (xs.map key).Nodup) (hx : x ∈ xs) :
    ((xs.filter fun y => key y ≠ key x).map weight).sum + weight x = (xs.map weight).sum := by
  induction xs with
  | nil => cases hx
  | cons y ys ih =>
    rw [List.map_cons, List.nodup_cons] at hkeys
    by_cases hy : key y = key x
    · obtain rfl : y = x := by
        cases hx with
        | head => rfl
        | tail _ hx => exact (hkeys.1 (hy ▸ List.mem_map_of_mem hx)).elim
      have hrest : ys.filter (fun z => key z ≠ key y) = ys := by
        refine List.filter_eq_self.mpr fun z hz => ?_
        have hne : key z ≠ key y := fun h => hkeys.1 (h ▸ List.mem_map_of_mem hz)
        simpa using hne
      rw [List.filter_cons_of_neg (by simp), hrest, List.map_cons, List.sum_cons]
      omega
    · have hx' : x ∈ ys := by
        cases hx with
        | head => exact (hy rfl).elim
        | tail _ hx => exact hx
      have hsum := ih hkeys.2 hx'
      rw [List.filter_cons_of_pos (by simpa using hy), List.map_cons, List.map_cons, List.sum_cons,
        List.sum_cons]
      omega

/-! ## Loads -/

section
variable {weight : ScheduledWorkItem → Nat} {work : ScheduledWorkTable}
  {new : ScheduledWorkItem}

/-- The weight of an item that counts while it is active. -/
def activeWeight (weight : ScheduledWorkItem → Nat) (item : ScheduledWorkItem) : Nat :=
  if item.status.active then weight item else 0

/-- The sum of a weight over the active items. -/
def load (weight : ScheduledWorkItem → Nat) (work : ScheduledWorkTable) : Nat :=
  (work.items.map (activeWeight weight)).sum

theorem load_eq_sum : load weight work = ((activeItems work.items).map weight).sum := by
  unfold load activeItems
  induction work.items with
  | nil => rfl
  | cons item items ih =>
    rw [List.map_cons, List.sum_cons, ih]
    by_cases hactive : item.status.active = true
    · simp [activeWeight, hactive]
    · simp [activeWeight, hactive]

/-- A save replaces the weight of the item it replaces. -/
theorem load_save (weight : ScheduledWorkItem → Nat) (work : ScheduledWorkTable)
    (new : ScheduledWorkItem) : load weight (work.save new) +
    (work.lookup new.id).elim 0 (activeWeight weight) =
      load weight work + activeWeight weight new := by
  unfold load
  rw [ScheduledWorkTable.items_save, List.map_append, List.sum_append]
  cases hold : work.lookup new.id with
  | none =>
    have hfilter : work.items.filter (·.id ≠ new.id) = work.items :=
      List.filter_eq_self.mpr fun item hitem => by
        simpa using ScheduledWorkTable.lookup_eq_none.mp hold item hitem
    rw [hfilter]
    simp
  | some old =>
    obtain ⟨hmem, hid⟩ := ScheduledWorkTable.lookup_eq_some.mp hold
    have hsum := sum_filter_key (activeWeight weight) work.unique hmem
    rw [hid] at hsum
    simp only [Option.elim_some, List.map_cons, List.map_nil, List.sum_cons, List.sum_nil]
    omega

/-- Saves that each weigh no more than what they replace do not raise a load. -/
theorem load_saveAll_le {saves : List ScheduledWorkItem} (hids : (saves.map (·.id)).Nodup)
    (hle : ∀ new ∈ saves, activeWeight weight new ≤
      (work.lookup new.id).elim 0 (activeWeight weight)) :
    load weight (work.saveAll saves) ≤ load weight work := by
  induction saves generalizing work with
  | nil => exact Nat.le_refl _
  | cons new saves ih =>
    rw [List.map_cons, List.nodup_cons] at hids
    have hrest : load weight ((work.save new).saveAll saves) ≤ load weight (work.save new) := by
      refine ih hids.2 fun other hother => ?_
      have hne : other.id ≠ new.id := fun h => hids.1 (h ▸ List.mem_map_of_mem hother)
      rw [ScheduledWorkTable.lookup_save_of_ne hne]
      exact hle other (List.mem_cons_of_mem new hother)
    have hfirst := load_save weight work new
    have hnew := hle new List.mem_cons_self
    rw [ScheduledWorkTable.saveAll_cons]
    omega

end

/-! ## One call -/

/-- A weight that no change touches. -/
def Steady (weight : ScheduledWorkItem → Nat) : Prop :=
  ∀ old new, SameWork old new → weight new = weight old

section
variable {host : SchedulerHost} {limits : SchedulerLimits} {sur : Surroundings}
  {weight : ScheduledWorkItem → Nat} {work : ScheduledWorkTable} {call : Call}

theorem activeWeight_of_inactive {item : ScheduledWorkItem} (h : item.status.active = false) :
    activeWeight weight item = 0 := by
  simp [activeWeight, h]

theorem inactive_of_waiting {status : WorkStatus} (h : status.waiting = true) :
    status.active = false := by
  cases status <;> first | rfl | cases h

theorem inactive_of_blocking {status : WorkStatus} (h : Blocking status) :
    status.active = false := by
  rcases h with h | rfl
  · exact inactive_of_waiting h
  · rfl

theorem inactive_of_completionStatus {text : String} {status : WorkStatus}
    (h : completionStatus text = .ok status) : status.active = false := by
  unfold completionStatus at h
  split_ifs at h
  · cases h
    rfl
  · cases h
    rfl

/-- A change does not make an item active. -/
theorem active_of_change {old new : ScheduledWorkItem} (h : Change host sur old new call)
    (hnew : new.status.active = true) : old.status.active = true := by
  cases h with
  | blocked _ _ hstatus _ => rw [inactive_of_blocking hstatus] at hnew; cases hnew
  | recorded hstatus _ => rw [← hstatus]; exact hnew
  | completed hstatus _ _ => rw [inactive_of_completionStatus hstatus] at hnew; cases hnew
  | cancelled _ _ hstatus _ => rw [hstatus] at hnew; cases hnew
  | requested hold _ _ => exact hold
  | resumed _ _ hstatus _ => rw [hstatus] at hnew; cases hnew
  | interrupted _ hstatus _ => rw [hstatus] at hnew; cases hnew

/-- What is saved without being started weighs no more than before. -/
theorem activeWeight_saved {new : ScheduledWorkItem} (hsteady : Steady weight)
    (h : Saved host sur work call new) :
    activeWeight weight new ≤ (work.lookup new.id).elim 0 (activeWeight weight) := by
  cases h with
  | enqueued hcall hnew =>
    have hinactive : new.status.active = false := by
      rcases (enqueuedItem_new hnew).1 with h | h
      · rw [h]
        rfl
      · rw [h]
        rfl
    rw [activeWeight_of_inactive hinactive]
    exact Nat.zero_le _
  | @changed old hold hsame hchange =>
    rw [hsame.id, ScheduledWorkTable.lookup_of_mem hold, Option.elim_some]
    unfold activeWeight
    by_cases hnew : new.status.active = true
    · rw [if_pos hnew, if_pos (active_of_change hchange hnew), hsteady old new hsame]
    · rw [if_neg hnew]
      exact Nat.zero_le _

/-- **The step**: a call keeps a load within a bound when there is room for
every item it may start. -/
theorem load_after {bound : Nat} (hsteady : Steady weight) (hload : load weight work ≤ bound)
    (hroom : ∀ old, Startable limits work call old → load weight work + weight old ≤ bound) :
    load weight (call.after host limits sur work) ≤ bound := by
  obtain ⟨kept, started, hafter, heffect⟩ := Call.effect host limits sur call work
  rw [hafter, ScheduledWorkTable.saveAll_append]
  have hids := heffect.ids
  rw [List.map_append, List.nodup_append] at hids
  have hkept : load weight (work.saveAll kept) ≤ load weight work :=
    load_saveAll_le hids.1 fun new hnew => activeWeight_saved hsteady (heffect.kept new hnew)
  rcases heffect.started with rfl | ⟨old, hold, rfl⟩
  · exact hkept.trans hload
  · have hne : ∀ new ∈ kept, new.id ≠ (start sur.now old).id := fun new hnew =>
      hids.2.2 new.id (List.mem_map_of_mem hnew) _ (by simp)
    have hsave := load_save weight (work.saveAll kept) (start sur.now old)
    rw [ScheduledWorkTable.lookup_saveAll_of_not_mem hne, ClaimPaths.start_id,
      ScheduledWorkTable.lookup_of_mem hold.mem, Option.elim_some,
      activeWeight_of_inactive (inactive_of_waiting hold.waiting)] at hsave
    have hweight : activeWeight weight (start sur.now old) = weight old :=
      hsteady old (start sur.now old) ⟨rfl, rfl, rfl, rfl⟩
    have hbound := hroom old hold
    show load weight ((work.saveAll kept).save (start sur.now old)) ≤ bound
    omega

end

/-! ## The limits -/

/-- The active items are within the limits. -/
structure Within (limits : SchedulerLimits) (active : List ScheduledWorkItem) : Prop where
  global : active.length ≤ limits.globalConcurrency
  project : ∀ projectId, active.countP (fun item => item.projectId == projectId) ≤
    limits.perProjectConcurrency
  ticket : ∀ ticketId, active.countP (fun item => item.ticketId == ticketId) ≤
    limits.perTicketConcurrency
  units : unitsOf active ≤ limits.capacityUnits

section
variable {host : SchedulerHost} {limits : SchedulerLimits} {sur : Surroundings}
  {work : ScheduledWorkTable} {call : Call}

theorem load_one : load (fun _ => 1) work = (activeItems work.items).length := by
  simp [load_eq_sum]

theorem load_counted (counted : ScheduledWorkItem → Bool) :
    load (fun item => if counted item then 1 else 0) work =
      (activeItems work.items).countP counted := by
  rw [load_eq_sum]
  induction activeItems work.items with
  | nil => rfl
  | cons item items ih =>
    rw [List.map_cons, List.sum_cons, ih, List.countP_cons]
    omega

theorem load_units : load (·.capacityUnits) work = unitsOf (activeItems work.items) := load_eq_sum

/-- The step for a limit on the items of one kind. -/
theorem countP_after (limits : SchedulerLimits) {counted : ScheduledWorkItem → Bool} {bound : Nat}
    (hsteady : ∀ old new, SameWork old new → counted new = counted old)
    (hcount : (activeItems work.items).countP counted ≤ bound)
    (hroom : ∀ old, Startable limits work call old → counted old = true →
      (activeItems work.items).countP counted < bound) :
    (activeItems (call.after host limits sur work).items).countP counted ≤ bound := by
  rw [← load_counted] at hcount ⊢
  refine load_after (fun old new hsame => by rw [hsteady old new hsame]) hcount fun old hold => ?_
  by_cases hcounted : counted old = true
  · have hlt := hroom old hold hcounted
    rw [← load_counted] at hlt
    rw [if_pos hcounted]
    omega
  · rw [if_neg hcounted]
    omega

theorem within_after (h : Within limits (activeItems work.items)) :
    Within limits (activeItems (call.after host limits sur work).items) where
  global := by
    rw [← load_one]
    refine load_after (fun _ _ _ => rfl) (by rw [load_one]; exact h.global) fun old hold => ?_
    rw [load_one]
    exact hold.room.global
  project projectId := by
    refine countP_after limits (fun old new hsame => by rw [hsame.projectId])
      (h.project projectId) fun old hold hproject => ?_
    rw [← beq_iff_eq.mp hproject]
    exact hold.room.project
  ticket ticketId := by
    refine countP_after limits (fun old new hsame => by rw [hsame.ticketId])
      (h.ticket ticketId) fun old hold hticket => ?_
    rw [← beq_iff_eq.mp hticket]
    exact hold.room.ticket
  units := by
    rw [← load_units]
    refine load_after (fun _ _ hsame => hsame.capacityUnits) (by rw [load_units]; exact h.units)
      fun old hold => ?_
    rw [load_units, Nat.add_comm]
    exact hold.room.units

/-- **The limits hold in every run.** From a store without scheduled work,
whatever calls are made one after the other and whatever their surroundings,
the active items stay within the limits. -/
theorem limits_hold_in_every_run (host : SchedulerHost) (limits : SchedulerLimits)
    (calls : List (Surroundings × Call)) :
    Within limits (activeItems (runCalls host limits calls ScheduledWorkTable.empty).items) := by
  refine runCalls_invariant (I := fun work => Within limits (activeItems work.items))
    (fun made _ work h => within_after h) ?_
  exact ⟨Nat.zero_le _, fun _ => Nat.zero_le _, fun _ => Nat.zero_le _, Nat.zero_le _⟩

end

end RlmGraph.Scheduler.Limits
