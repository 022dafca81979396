import RlmGraph.Lib.Results
import RlmGraph.Scheduler.ClaimPaths

/-! # What a scheduler call can do

The calls of the scheduler, and one theorem that says everything a call can do
to the table: `Call.effect`. It saves items with different identifiers. Each of
them is a new item or a `Change` of the item it replaces, and at most one item
is started, for which the table it read had room. The results about runs are
derived from it. -/
namespace RlmGraph.Scheduler.Effects
open RlmGraph.Lib RlmGraph.Lib.PyText RlmGraph.Lib.Programs RlmGraph.Lib.Results
open RlmGraph.Scheduler.Work RlmGraph.Scheduler.ClaimPaths

inductive Call where
  | enqueue (request : EnqueueRequest) (newId : String)
  | claimNext
  | tryClaim (itemId : String)
  | checkpoint (itemId stage detail : String) (workerCalls wallTime : Int) (evidence : List String)
  | complete (itemId status detail : String)
  | requestCancellation (itemId actor reason : String)
  | cancel (itemId actor reason : String)
  | resume (itemId : String)
  | registerTemporaryResource (itemId path : String)
  | attachEvidence (itemId : String) (evidence : List String)
  | restoreInterrupted

/-- The program of a call; its result as the items it returns. -/
def Call.program (host : SchedulerHost) (limits : SchedulerLimits) (sur : Surroundings) :
    Call → SchedulerAct (List ScheduledWorkItem)
  | .enqueue request newId => return [← Work.enqueue host sur request newId]
  | .claimNext => return (← Work.claimNext host limits sur).toList
  | .tryClaim itemId => return (← Work.tryClaim host limits sur itemId).toList
  | .checkpoint itemId stage detail workerCalls wallTime evidence =>
    return [← Work.checkpoint host sur itemId stage detail workerCalls wallTime evidence]
  | .complete itemId status detail => return [← Work.complete host sur itemId status detail]
  | .requestCancellation itemId actor reason =>
    return [← Work.requestCancellation host sur itemId actor reason]
  | .cancel itemId actor reason => return [← Work.cancel host sur itemId actor reason]
  | .resume itemId => return [← Work.resume sur itemId]
  | .registerTemporaryResource itemId path =>
    return [← Work.registerTemporaryResource host itemId path]
  | .attachEvidence itemId evidence => return [← Work.attachEvidence sur itemId evidence]
  | .restoreInterrupted => Work.restoreInterrupted sur

section
variable (host : SchedulerHost) (limits : SchedulerLimits) (sur : Surroundings)

/-- The table after a call. -/
def Call.after (call : Call) (work : ScheduledWorkTable) : ScheduledWorkTable :=
  ((call.program host limits sur).run perform () work).2

/-- The result of a call. -/
def Call.reply (call : Call) (work : ScheduledWorkTable) :
    Except PyError (List ScheduledWorkItem) :=
  ((call.program host limits sur).run perform () work).1

end

/-! ## Changes -/

def Call.claims : Call → Bool
  | .claimNext | .tryClaim _ => true
  | _ => false

/-- Whether a call may cancel an item. -/
def Call.cancels (old : ScheduledWorkItem) : Call → Prop
  | .cancel itemId _ _ => itemId = old.id
  | .requestCancellation itemId _ _ => itemId = old.id ∧ old.status.idle = true
  | .checkpoint itemId _ _ _ _ _ => itemId = old.id ∧ old.cancellationRequested = true
  | _ => False

/-- What no change touches. -/
structure SameWork (old new : ScheduledWorkItem) : Prop where
  id : new.id = old.id
  ticketId : new.ticketId = old.ticketId
  projectId : new.projectId = old.projectId
  capacityUnits : new.capacityUnits = old.capacityUnits

/-- Whether the temporary resources of an item can be disposed of. -/
def Disposable (host : SchedulerHost) (sur : Surroundings) (item : ScheduledWorkItem) : Prop :=
  ∃ disposed, disposeResources host sur item = .ok disposed

/-- What a call that does not start an item makes of its status and its
pending cancellation. -/
inductive Change (host : SchedulerHost) (sur : Surroundings) (old new : ScheduledWorkItem) :
    Call → Prop
  | blocked {call : Call} (hcall : call.claims = true) (hold : old.status.waiting = true)
      (hnew : new.status.waiting = true ∨ new.status = .blockedBudget)
      (hflag : new.cancellationRequested = old.cancellationRequested) : Change host sur old new call
  | recorded {call : Call} (hnew : new.status = old.status)
      (hflag : new.cancellationRequested = old.cancellationRequested) : Change host sur old new call
  | completed {status detail : String}
      (hnew : completionStatus (upper host.text status) = .ok new.status)
      (hdispose : Disposable host sur old)
      (hflag : new.cancellationRequested = old.cancellationRequested) :
      Change host sur old new (.complete old.id status detail)
  | cancelled {call : Call} (hcall : call.cancels old) (hdispose : Disposable host sur old)
      (hnew : new.status = .cancelled) (hflag : new.cancellationRequested = true) : Change host sur old new call
  | requested {actor reason : String} (hold : old.status.active = true)
      (hnew : new.status = .cancellationRequested) (hflag : new.cancellationRequested = true) :
      Change host sur old new (.requestCancellation old.id actor reason)
  | resumed (hold : old.status = .interrupted) (hresumable : old.resumable = true)
      (hnew : new.status = .queued)
      (hflag : new.cancellationRequested = old.cancellationRequested) :
      Change host sur old new (.resume old.id)
  | interrupted (hold : old.status.active = true) (hnew : new.status = .interrupted)
      (hflag : new.cancellationRequested = old.cancellationRequested) :
      Change host sur old new .restoreInterrupted

/-- The limits leave room for an item beside the active ones. -/
structure Room (limits : SchedulerLimits) (active : List ScheduledWorkItem)
    (item : ScheduledWorkItem) : Prop where
  global : active.length < limits.globalConcurrency
  project : active.countP (fun other => other.projectId == item.projectId) <
    limits.perProjectConcurrency
  ticket : active.countP (fun other => other.ticketId == item.ticketId) <
    limits.perTicketConcurrency
  units : item.capacityUnits + unitsOf active ≤ limits.capacityUnits

/-- An item that a call may save without starting it. -/
inductive Saved (host : SchedulerHost) (sur : Surroundings) (work : ScheduledWorkTable)
    (call : Call) (new : ScheduledWorkItem) : Prop
  | enqueued {request : EnqueueRequest} (hcall : call = .enqueue request new.id)
      (hnew : request.item host sur new.id = .ok new) : Saved host sur work call new
  | changed {old : ScheduledWorkItem} (hold : old ∈ work.items) (hsame : SameWork old new)
      (hchange : Change host sur old new call) : Saved host sur work call new

/-- An item that a call may start. -/
structure Startable (limits : SchedulerLimits) (work : ScheduledWorkTable) (call : Call)
    (old : ScheduledWorkItem) : Prop where
  claims : call = .claimNext ∨ call = .tryClaim old.id
  mem : old ∈ work.items
  waiting : old.status.waiting = true
  room : Room limits (activeItems work.items) old

/-- **Everything a call can do** to a table. -/
structure Effect (host : SchedulerHost) (limits : SchedulerLimits) (sur : Surroundings)
    (work : ScheduledWorkTable) (call : Call) (kept started : List ScheduledWorkItem) : Prop where
  ids : ((kept ++ started).map (·.id)).Nodup
  kept : ∀ new ∈ kept, Saved host sur work call new
  started : started = [] ∨ ∃ old, Startable limits work call old ∧ started = [start sur.now old]

/-! ## Claims -/

section
variable {host : SchedulerHost} {limits : SchedulerLimits} {sur : Surroundings}
  {active cs : List ScheduledWorkItem} {item target : ScheduledWorkItem} {refusal : Refusal}

/-- A status that blocks an item. -/
def Blocking (status : WorkStatus) : Prop := status.waiting = true ∨ status = .blockedBudget

theorem leaseRefusal_blocking (h : leaseRefusal host sur item = some refusal) :
    Blocking refusal.1 := by
  unfold leaseRefusal at h
  obtain ⟨reason, -, rfl⟩ := Option.map_eq_some_iff.mp h
  exact Or.inl rfl

theorem claimNextRefusal_blocking {units : Int}
    (h : claimNextRefusal host limits sur active units item = .ok (some refusal)) :
    Blocking refusal.1 := by
  unfold claimNextRefusal at h
  obtain ⟨reasons, -, h⟩ := bind_ok h
  simp only [pure, Except.pure, Except.ok.injEq] at h
  split_ifs at h
  · cases h
    exact Or.inr rfl
  · cases h
    exact Or.inl rfl
  · cases h
    exact Or.inl rfl
  · cases h
    exact Or.inl rfl
  · exact leaseRefusal_blocking h

theorem targetRefusal_blocking
    (h : targetRefusal host limits sur active item = .ok (some refusal)) :
    Blocking refusal.1 := by
  unfold targetRefusal at h
  split_ifs at h
  · cases h
    exact Or.inl rfl
  · cases h
    exact Or.inl rfl
  · cases h
    exact Or.inl rfl
  · cases h
    exact Or.inl rfl
  · obtain ⟨reasons, -, h⟩ := bind_ok h
    simp only [pure, Except.pure, Except.ok.injEq] at h
    split_ifs at h
    · cases h
      exact Or.inr rfl
    · exact leaseRefusal_blocking h

/-- An item that `claim_next` does not refuse has room. -/
theorem room_of_claimNextRefusal (hglobal : active.length < limits.globalConcurrency)
    (h : claimNextRefusal host limits sur active (availableUnits limits active) item = .ok none) :
    Room limits active item := by
  unfold claimNextRefusal at h
  obtain ⟨reasons, -, h⟩ := bind_ok h
  simp only [pure, Except.pure, Except.ok.injEq, availableUnits_lt, projectOccupied,
    ticketOccupied] at h
  split_ifs at h with hbudget hproject hticket hunits
  exact ⟨hglobal, by simpa using hproject, by simpa using hticket, by omega⟩

/-- A pending cancellation, left as it is. -/
structure KeepsCancellation (old new : ScheduledWorkItem) : Prop where
  flag : new.cancellationRequested = old.cancellationRequested
  actor : new.cancelledBy = old.cancelledBy
  reason : new.cancellationReason = old.cancellationReason

/-- A blocked item: its work and its pending cancellation are what they were. -/
structure Blocks (old new : ScheduledWorkItem) : Prop where
  same : SameWork old new
  status : Blocking new.status
  cancellation : KeepsCancellation old new

theorem blocks_of_mem {now : Int} {status : WorkStatus} {reason : String} {new : ScheduledWorkItem}
    (hstatus : Blocking status) (h : new ∈ block now item status reason) : Blocks item new := by
  unfold block at h
  split at h
  · obtain rfl := List.mem_singleton.mp h
    exact ⟨⟨rfl, rfl, rfl, rfl⟩, hstatus, ⟨rfl, rfl, rfl⟩⟩
  · cases h

theorem ids_block (now : Int) (item : ScheduledWorkItem) (status : WorkStatus) (reason : String) :
    ((block now item status reason).map (·.id)).Sublist [item.id] := by
  unfold block
  split
  · exact List.Sublist.refl _
  · exact List.nil_sublist _

/-- What a claim may save when it goes through candidates: at most one save for
each, all of them blocked but at most one, which is started. -/
structure Decided (sur : Surroundings) (startable : ScheduledWorkItem → Prop)
    (cs kept started : List ScheduledWorkItem) : Prop where
  ids : ((kept ++ started).map (·.id)).Sublist (cs.map (·.id))
  kept : ∀ new ∈ kept, ∃ old ∈ cs, Blocks old new
  started : started = [] ∨ ∃ old ∈ cs, startable old ∧ started = [start sur.now old]

variable {startable : ScheduledWorkItem → Prop}

theorem decided_nil : Decided sur startable cs [] [] :=
  ⟨List.nil_sublist _, by simp, Or.inl rfl⟩

theorem decided_start (hroom : startable item) :
    Decided sur startable (item :: cs) [] [start sur.now item] := by
  refine ⟨?_, by simp, Or.inr ⟨item, List.mem_cons_self, hroom, rfl⟩⟩
  exact List.Sublist.cons_cons _ (List.nil_sublist _)

theorem decided_block {status : WorkStatus} {reason : String} (hstatus : Blocking status)
    {kept started : List ScheduledWorkItem} (h : Decided sur startable cs kept started) :
    Decided sur startable (item :: cs) (block sur.now item status reason ++ kept) started := by
  refine ⟨?_, ?_, ?_⟩
  · rw [List.append_assoc, List.map_append, List.map_cons]
    exact (ids_block sur.now item status reason).append h.ids
  · intro new hnew
    rcases List.mem_append.mp hnew with hnew | hnew
    · exact ⟨item, List.mem_cons_self, blocks_of_mem hstatus hnew⟩
    · obtain ⟨old, hold, hblocks⟩ := h.kept new hnew
      exact ⟨old, List.mem_cons_of_mem item hold, hblocks⟩
  · rcases h.started with h | ⟨old, hold, hroom, h⟩
    · exact Or.inl h
    · exact Or.inr ⟨old, List.mem_cons_of_mem item hold, hroom, h⟩

/-- Every candidate refused for the same reason. -/
theorem decided_flatMap {status : WorkStatus} {reason : String} (hstatus : Blocking status) :
    Decided sur startable cs (cs.flatMap fun c => block sur.now c status reason) [] := by
  induction cs with
  | nil => exact decided_nil
  | cons c cs ih =>
    rw [List.flatMap_cons]
    exact decided_block hstatus ih

theorem decided_admitFirst (host : SchedulerHost) (sur : Surroundings)
    (hglobal : active.length < limits.globalConcurrency) :
    ∃ kept started, (admitFirst host limits sur active (availableUnits limits active) cs).saves =
      kept ++ started ∧ Decided sur (Room limits active) cs kept started := by
  induction cs with
  | nil => exact ⟨[], [], rfl, decided_nil⟩
  | cons c cs ih =>
    unfold admitFirst
    split
    · exact ⟨[], [], rfl, decided_nil⟩
    · rename_i status reason hrefused
      obtain ⟨kept, started, hsaves, h⟩ := ih
      refine ⟨block sur.now c status reason ++ kept, started, ?_, ?_⟩
      · rw [List.append_assoc]
        exact congrArg (block sur.now c status reason ++ ·) hsaves
      · exact decided_block (claimNextRefusal_blocking hrefused) h
    · rename_i hpassed
      exact ⟨[], [start sur.now c], rfl, decided_start (room_of_claimNextRefusal hglobal hpassed)⟩

theorem decided_admitTarget :
    ∃ kept started, (admitTarget host limits sur active target).saves = kept ++ started ∧
      Decided sur (fun old => Room limits active old ∧ old = target) (target :: cs) kept
        started := by
  unfold admitTarget
  split
  · exact ⟨[], [], rfl, decided_nil⟩
  · rename_i status reason hrefused
    have hnil : Decided sur (fun old => Room limits active old ∧ old = target) cs [] [] := decided_nil
    have h : Decided sur _ (target :: cs) (block sur.now target status reason ++ []) [] :=
      decided_block (targetRefusal_blocking hrefused) hnil
    exact ⟨_, [], by simp, h⟩
  · rename_i hpassed
    obtain ⟨hglobal, hpassed⟩ := targetRefusal_eq_none.mp hpassed
    exact ⟨[], [start sur.now target], rfl,
      decided_start ⟨room_of_claimNextRefusal hglobal hpassed, rfl⟩⟩

theorem decided_admitRanked (host : SchedulerHost) (limits : SchedulerLimits) (sur : Surroundings)
    (active : List ScheduledWorkItem) (htarget : target ∈ cs) (hids : (cs.map (·.id)).Nodup) :
    ∃ kept started, (admitRanked host limits sur active target cs).saves = kept ++ started ∧
      Decided sur (fun old => Room limits active old ∧ old = target) cs kept started := by
  induction cs with
  | nil => cases htarget
  | cons c cs ih =>
    unfold admitRanked
    by_cases hid : c.id = target.id
    · obtain rfl : c = target := List.inj_on_of_nodup_map hids List.mem_cons_self htarget hid
      rw [if_pos rfl]
      exact decided_admitTarget
    · rw [if_neg hid]
      have hrest : target ∈ cs := by
        cases htarget with
        | head => exact (hid rfl).elim
        | tail _ h => exact h
      split
      · exact ⟨[], [], rfl, decided_nil⟩
      · rename_i status reason hrefused
        obtain ⟨kept, started, hsaves, h⟩ := ih hrest (List.nodup_cons.mp hids).2
        rw [aheadRefusal_eq] at hrefused
        refine ⟨block sur.now c status reason ++ kept, started, ?_, ?_⟩
        · rw [List.append_assoc]
          exact congrArg (block sur.now c status reason ++ ·) hsaves
        · exact decided_block (claimNextRefusal_blocking hrefused) h
      · exact ⟨[], [], rfl, decided_nil⟩

end

/-! ## The rules of the operations -/

/-- The operations by their meaning. -/
abbrev stored : OpSpec Op Reply ScheduledWorkTable := guarded (fun _ _ => True) perform

section
variable {α β : Type} {work : ScheduledWorkTable}
  {Q : Except PyError β → Unit → ScheduledWorkTable → Prop}

theorem wp_scheduledWork {f : ScheduledWorkTable → SchedulerAct β}
    (h : (f work).wp stored Q () work) : (scheduledWork >>= f).wp stored Q () work :=
  Act.wp_op ⟨trivial, h⟩

theorem wp_save {item : ScheduledWorkItem} {f : Unit → SchedulerAct β}
    (h : (f ()).wp stored Q () (work.save item)) :
    (saveScheduledWork item >>= f).wp stored Q () work :=
  Act.wp_op ⟨trivial, h⟩

theorem wp_saves {items : List ScheduledWorkItem} {f : Unit → SchedulerAct β}
    (h : (f ()).wp stored Q () (work.saveAll items)) :
    (items.forM saveScheduledWork >>= f).wp stored Q () work := by
  induction items generalizing work with
  | nil => exact h
  | cons item items ih => exact wp_save (f := fun _ => items.forM saveScheduledWork >>= f) (ih h)

theorem wp_computed {r : Except PyError α} {f : α → SchedulerAct β}
    (hok : ∀ a, r = .ok a → (f a).wp stored Q () work)
    (herror : ∀ e, r = .error e → Q (.error e) () work) :
    (Act.ofExcept r >>= f).wp stored Q () work := by
  cases r with
  | ok a => exact hok a rfl
  | error e => exact herror e rfl

theorem wp_get {itemId : String} {f : ScheduledWorkItem → SchedulerAct β}
    (hfound : ∀ item, work.lookup itemId = some item → (f item).wp stored Q () work)
    (hmissing : work.lookup itemId = none → Q (.error (notFound itemId)) () work) :
    (Work.get itemId >>= f).wp stored Q () work := by
  rw [Act.wp_bind]
  unfold Work.get
  refine wp_scheduledWork ?_
  rw [Act.wp_ofExcept]
  cases h : work.lookup itemId with
  | none => exact hmissing h
  | some item => exact hfound item h

/-- A result passed on. -/
theorem wp_return {x : SchedulerAct α} {f : α → β} {P : ScheduledWorkTable → Prop}
    (h : x.wp stored (fun _ _ after => P after) () work) :
    (x >>= fun a => pure (f a)).wp stored (fun _ _ after => P after) () work :=
  Act.wp_seq h (fun _ _ _ h => h) fun _ _ _ h => h

end

/-! ## The effect of a call -/

section
variable {host : SchedulerHost} {limits : SchedulerLimits} {sur : Surroundings}
  {work : ScheduledWorkTable} {call : Call}

/-- A call has taken a table to another. -/
def HasEffect (host : SchedulerHost) (limits : SchedulerLimits) (sur : Surroundings)
    (work : ScheduledWorkTable) (call : Call) (after : ScheduledWorkTable) : Prop :=
  ∃ kept started, after = work.saveAll (kept ++ started) ∧
    Effect host limits sur work call kept started

theorem HasEffect.nothing : HasEffect host limits sur work call work :=
  ⟨[], [], rfl, ⟨List.nodup_nil, by simp, Or.inl rfl⟩⟩

theorem HasEffect.save {new : ScheduledWorkItem} (h : Saved host sur work call new) :
    HasEffect host limits sur work call (work.save new) := by
  refine ⟨[new], [], rfl, ⟨by simp, ?_, Or.inl rfl⟩⟩
  intro item hitem
  rw [List.mem_singleton.mp hitem]
  exact h

theorem HasEffect.change {itemId : String} {old new : ScheduledWorkItem}
    (hold : work.lookup itemId = some old) (hsame : SameWork old new)
    (hchange : Change host sur old new call) : HasEffect host limits sur work call (work.save new) :=
  HasEffect.save (.changed (ScheduledWorkTable.mem_of_lookup hold) hsame hchange)

/-- What a claim decided from the table: saves for waiting items, each of them
blocked but at most one, for which there was room. -/
structure ClaimSaves (limits : SchedulerLimits) (sur : Surroundings) (work : ScheduledWorkTable)
    (call : Call) (cs kept started : List ScheduledWorkItem) : Prop where
  waiting : ∀ old ∈ cs, old ∈ work.items ∧ old.status.waiting = true
  unique : (cs.map (·.id)).Nodup
  decided : Decided sur (fun old => Room limits (activeItems work.items) old ∧
    (call = .claimNext ∨ call = .tryClaim old.id)) cs kept started

theorem Decided.weaken {startable startable' : ScheduledWorkItem → Prop}
    {cs kept started : List ScheduledWorkItem} (h : Decided sur startable cs kept started)
    (hstart : ∀ old, startable old → startable' old) : Decided sur startable' cs kept started := by
  refine ⟨h.ids, h.kept, ?_⟩
  rcases h.started with h | ⟨old, hold, hstartable, h⟩
  · exact Or.inl h
  · exact Or.inr ⟨old, hold, hstart old hstartable, h⟩

/-- A claim has the effect of what it decided. -/
theorem ClaimSaves.hasEffect {cs kept started : List ScheduledWorkItem} (hcall : call.claims = true)
    (h : ClaimSaves limits sur work call cs kept started) :
    HasEffect host limits sur work call (work.saveAll (kept ++ started)) := by
  refine ⟨kept, started, rfl, ⟨h.unique.sublist h.decided.ids, ?_, ?_⟩⟩
  · intro new hnew
    obtain ⟨old, hold, hblocks⟩ := h.decided.kept new hnew
    obtain ⟨hmem, hwaiting⟩ := h.waiting old hold
    exact .changed hmem hblocks.same
      (.blocked hcall hwaiting hblocks.status hblocks.cancellation.flag)
  · rcases h.decided.started with hnone | ⟨old, hold, ⟨hroom, hclaims⟩, hstarted⟩
    · exact Or.inl hnone
    · obtain ⟨hmem, hwaiting⟩ := h.waiting old hold
      exact Or.inr ⟨old, ⟨hclaims, hmem, hwaiting, hroom⟩, hstarted⟩

/-- What is saved is an item of the table with its pending cancellation. -/
theorem ClaimSaves.keepsCancellation {cs kept started : List ScheduledWorkItem}
    (h : ClaimSaves limits sur work call cs kept started) {new : ScheduledWorkItem}
    (hnew : new ∈ kept ++ started) : ∃ old ∈ work.items, old.status.waiting = true ∧
      SameWork old new ∧ KeepsCancellation old new := by
  rcases List.mem_append.mp hnew with hnew | hnew
  · obtain ⟨old, hold, hblocks⟩ := h.decided.kept new hnew
    obtain ⟨hmem, hwaiting⟩ := h.waiting old hold
    exact ⟨old, hmem, hwaiting, hblocks.same, hblocks.cancellation⟩
  · rcases h.decided.started with rfl | ⟨old, hold, -, rfl⟩
    · cases hnew
    · obtain rfl := List.mem_singleton.mp hnew
      obtain ⟨hmem, hwaiting⟩ := h.waiting old hold
      exact ⟨old, hmem, hwaiting, ⟨rfl, rfl, rfl, rfl⟩, ⟨rfl, rfl, rfl⟩⟩

theorem hasEffect_carryOut {decision : Decision}
    (h : HasEffect host limits sur work call (work.saveAll decision.saves)) :
    (carryOut decision).wp stored (fun _ _ after => HasEffect host limits sur work call after) ()
      work :=
  wp_saves h

theorem claimSaves_claimNext (host : SchedulerHost) (limits : SchedulerLimits) (sur : Surroundings)
    (work : ScheduledWorkTable) : ∃ cs kept started,
    (claimNextDecision host limits sur work.items).saves = kept ++ started ∧
      ClaimSaves limits sur work .claimNext cs kept started := by
  by_cases hglobal : (activeItems work.items).length < limits.globalConcurrency
  · rw [claimNextDecision_of_room hglobal]
    obtain ⟨kept, started, hsaves, h⟩ := decided_admitFirst host sur hglobal
    refine ⟨candidates work.items, kept, started, hsaves, ⟨fun old hold => mem_candidates.mp hold,
      nodup_candidates work.unique, h.weaken fun old hroom => ⟨hroom, Or.inl rfl⟩⟩⟩
  · unfold claimNextDecision
    rw [if_pos (Nat.not_lt.mp hglobal)]
    refine ⟨work.items.filter fun item =>
      item.status == .queued || item.status == .waitingForCapacity, _, [],
      (List.append_nil _).symm, ⟨fun old hold => ?_,
        work.unique.sublist (List.filter_sublist.map _), decided_flatMap (Or.inl rfl)⟩⟩
    obtain ⟨hmem, hstatus⟩ := List.mem_filter.mp hold
    rcases Bool.or_eq_true_iff.mp hstatus with hstatus | hstatus
    · exact ⟨hmem, by rw [beq_iff_eq.mp hstatus]; rfl⟩
    · exact ⟨hmem, by rw [beq_iff_eq.mp hstatus]; rfl⟩

theorem claimSaves_nothing : ClaimSaves limits sur work call [] [] [] :=
  ⟨by simp, List.nodup_nil, decided_nil⟩

theorem claimSaves_tryClaim (host : SchedulerHost) (limits : SchedulerLimits) (sur : Surroundings)
    (work : ScheduledWorkTable) (itemId : String) : ∃ cs kept started,
    (tryClaimDecision host limits sur itemId work.items).saves = kept ++ started ∧
      ClaimSaves limits sur work (.tryClaim itemId) cs kept started := by
  unfold tryClaimDecision
  cases hfound : work.items.find? (·.id == itemId) with
  | none => exact ⟨[], [], [], rfl, claimSaves_nothing⟩
  | some target =>
    have hmem : target ∈ work.items := List.mem_of_find?_eq_some hfound
    have hid : target.id = itemId := by simpa using List.find?_some hfound
    by_cases hrunning : target.status = .running
    · simp only [if_pos hrunning]
      exact ⟨[], [], [], rfl, claimSaves_nothing⟩
    · by_cases hwaiting : target.status.waiting = true
      · simp only [if_neg hrunning, hwaiting]
        obtain ⟨kept, started, hsaves, h⟩ := decided_admitRanked host limits sur
          (activeItems work.items) (mem_candidates.mpr ⟨hmem, hwaiting⟩) (nodup_candidates work.unique)
        rw [if_neg (by simp)]
        refine ⟨candidates work.items, kept, started, hsaves,
          ⟨fun old hold => mem_candidates.mp hold, nodup_candidates work.unique,
            h.weaken fun old hstart => ⟨hstart.1, Or.inr (by rw [hstart.2, hid])⟩⟩⟩
      · simp only [if_neg hrunning, if_pos (Bool.not_eq_true _ ▸ hwaiting)]
        exact ⟨[], [], [], rfl, claimSaves_nothing⟩

theorem hasEffect_claimNext : (Work.claimNext host limits sur).wp stored
    (fun _ _ after => HasEffect host limits sur work .claimNext after) () work := by
  obtain ⟨cs, kept, started, hsaves, h⟩ := claimSaves_claimNext host limits sur work
  exact wp_scheduledWork (hasEffect_carryOut (hsaves ▸ h.hasEffect rfl))

theorem hasEffect_tryClaim {itemId : String} : (Work.tryClaim host limits sur itemId).wp stored
    (fun _ _ after => HasEffect host limits sur work (.tryClaim itemId) after) () work := by
  obtain ⟨cs, kept, started, hsaves, h⟩ := claimSaves_tryClaim host limits sur work itemId
  exact wp_scheduledWork (hasEffect_carryOut (hsaves ▸ h.hasEffect rfl))

/-- A new item is fresh work. -/
theorem enqueuedItem_new {request : EnqueueRequest} {newId : String} {item : ScheduledWorkItem}
    (h : request.item host sur newId = .ok item) :
    (item.status = .queued ∨ item.status = .blockedBudget) ∧ item.cancellationRequested = false := by
  unfold EnqueueRequest.item at h
  obtain ⟨ticket, -, h⟩ := bind_ok h
  split_ifs at h with hbounds
  · cases h
  · cases h
    refine ⟨?_, rfl⟩
    unfold ScheduledWorkItem.checkpointed
    by_cases hreasons : budgetReasons ticket request.predictedWorkerCalls.toNat
        request.predictedLatency.toNat = []
    · exact Or.inl (if_pos hreasons)
    · exact Or.inr (if_neg hreasons)

theorem enqueuedItem_id {request : EnqueueRequest} {newId : String} {item : ScheduledWorkItem}
    (h : request.item host sur newId = .ok item) : item.id = newId := by
  unfold EnqueueRequest.item at h
  obtain ⟨ticket, -, h⟩ := bind_ok h
  split_ifs at h
  · cases h
  · cases h
    rfl

/-! ### Item by item -/

theorem cancel_ok {item new : ScheduledWorkItem} {actor reason : String}
    (h : item.cancel host sur actor reason = .ok new) :
    SameWork item new ∧ Disposable host sur item ∧ new.status = .cancelled ∧
      new.cancellationRequested = true := by
  unfold ScheduledWorkItem.cancel at h
  obtain ⟨disposed, hdisposed, h⟩ := bind_ok h
  cases h
  exact ⟨⟨rfl, rfl, rfl, rfl⟩, ⟨disposed, hdisposed⟩, rfl, rfl⟩

theorem complete_ok {item new : ScheduledWorkItem} {status : WorkStatus} {detail : String}
    (h : item.complete host sur status detail = .ok new) :
    SameWork item new ∧ Disposable host sur item ∧ new.status = status ∧
      new.cancellationRequested = item.cancellationRequested := by
  unfold ScheduledWorkItem.complete at h
  obtain ⟨disposed, hdisposed, h⟩ := bind_ok h
  cases h
  exact ⟨⟨rfl, rfl, rfl, rfl⟩, ⟨disposed, hdisposed⟩, rfl, rfl⟩

/-- Cancelling an item in hand, with or without the request already written on it. -/
theorem wp_cancelCurrent {old current : ScheduledWorkItem} {actor reason : String}
    {Q : Except PyError ScheduledWorkItem → Unit → ScheduledWorkTable → Prop}
    (hsame : SameWork old current) (hsaved : ∀ new, SameWork old new →
      Disposable host sur current → new.status = .cancelled → new.cancellationRequested = true →
        Q (.ok new) () (work.save new))
    (hraised : ∀ e, Q (.error e) () work) :
    (cancelCurrent host sur current actor reason).wp stored Q () work := by
  unfold cancelCurrent
  refine wp_computed (fun new hnew => ?_) fun e _ => hraised e
  obtain ⟨hcurrent, hdispose, hstatus, hflag⟩ := cancel_ok hnew
  refine wp_save (hsaved new ?_ hdispose hstatus hflag)
  exact ⟨hcurrent.id.trans hsame.id, hcurrent.ticketId.trans hsame.ticketId,
    hcurrent.projectId.trans hsame.projectId, hcurrent.capacityUnits.trans hsame.capacityUnits⟩

theorem SameWork.refl (item : ScheduledWorkItem) : SameWork item item := ⟨rfl, rfl, rfl, rfl⟩

theorem hasEffect_cancel {itemId actor reason : String}
    (hcancels : ∀ old, work.lookup itemId = some old → call.cancels old) :
    (Work.cancel host sur itemId actor reason).wp stored
      (fun _ _ after => HasEffect host limits sur work call after) () work := by
  unfold Work.cancel
  refine wp_get (fun old hold => ?_) fun _ => .nothing
  exact wp_cancelCurrent (SameWork.refl old)
    (fun new hsame hdispose hstatus hflag =>
      .change hold hsame (.cancelled (hcancels old hold) hdispose hstatus hflag))
    fun _ => .nothing

theorem hasEffect_checkpoint {itemId stage detail : String} {workerCalls wallTime : Int}
    {evidence : List String} :
    (Work.checkpoint host sur itemId stage detail workerCalls wallTime evidence).wp stored
      (fun _ _ after => HasEffect host limits sur work
        (.checkpoint itemId stage detail workerCalls wallTime evidence) after) () work := by
  unfold Work.checkpoint
  refine wp_get (fun old hold => ?_) fun _ => .nothing
  have hid := ScheduledWorkTable.id_of_lookup hold
  rw [Act.wp_ite]
  split
  · rename_i hflag
    refine Act.wp_seq (hasEffect_cancel fun found hfound => ?_) (fun _ _ _ h => h) fun _ _ _ h => h
    rw [hid, hold] at hfound
    cases hfound
    exact ⟨hid.symm, hflag⟩
  · refine Act.wp_check (fun _ => ?_) fun _ => .nothing
    exact wp_save (.change hold ⟨rfl, rfl, rfl, rfl⟩ (.recorded rfl rfl))

theorem hasEffect_complete {itemId status detail : String} :
    (Work.complete host sur itemId status detail).wp stored
      (fun _ _ after => HasEffect host limits sur work (.complete itemId status detail) after) ()
      work := by
  unfold Work.complete
  refine wp_computed (fun asked hasked => ?_) fun _ _ => .nothing
  refine wp_get (fun old hold => ?_) fun _ => .nothing
  obtain rfl := ScheduledWorkTable.id_of_lookup hold
  refine wp_computed (fun new hnew => wp_save ?_) fun _ _ => .nothing
  obtain ⟨hsame, hdispose, hstatus, hflag⟩ := complete_ok hnew
  exact .change hold hsame (.completed (by rw [hasked, hstatus]) hdispose hflag)

/-- A status that a request neither ignores nor cancels is active. -/
theorem active_of_not_idle {status : WorkStatus} (hterminal : ¬status.terminal = true)
    (hidle : ¬status.idle = true) : status.active = true := by
  cases status with
  | running => rfl
  | cancellationRequested => rfl
  | completed => exact (hterminal rfl).elim
  | failed => exact (hterminal rfl).elim
  | cancelled => exact (hterminal rfl).elim
  | queued => exact (hidle rfl).elim
  | waitingForCapacity => exact (hidle rfl).elim
  | waitingForLease => exact (hidle rfl).elim
  | blockedBudget => exact (hidle rfl).elim
  | interrupted => exact (hidle rfl).elim

theorem hasEffect_requestCancellation {itemId actor reason : String} :
    (Work.requestCancellation host sur itemId actor reason).wp stored
      (fun _ _ after => HasEffect host limits sur work (.requestCancellation itemId actor reason)
        after) () work := by
  unfold Work.requestCancellation
  refine wp_get (fun old hold => ?_) fun _ => .nothing
  obtain rfl := ScheduledWorkTable.id_of_lookup hold
  rw [Act.wp_ite]
  split
  · exact .nothing
  · rename_i hterminal
    refine Act.wp_check (fun _ => ?_) fun _ => .nothing
    rw [Act.wp_ite]
    split
    · rename_i hidle
      exact wp_cancelCurrent (show SameWork old _ from ⟨rfl, rfl, rfl, rfl⟩)
        (fun new hsame hdispose hstatus hflag =>
          .change hold hsame (.cancelled ⟨rfl, hidle⟩ hdispose hstatus hflag))
        fun _ => .nothing
    · rename_i hidle
      refine wp_save ?_
      exact .change hold ⟨rfl, rfl, rfl, rfl⟩
        (.requested (active_of_not_idle hterminal hidle) rfl rfl)

theorem hasEffect_resume {itemId : String} :
    (Work.resume sur itemId).wp stored
      (fun _ _ after => HasEffect host limits sur work (.resume itemId) after) () work := by
  unfold Work.resume
  refine wp_get (fun old hold => ?_) fun _ => .nothing
  obtain rfl := ScheduledWorkTable.id_of_lookup hold
  refine Act.wp_check (fun h => wp_save ?_) fun _ => .nothing
  exact .change hold ⟨rfl, rfl, rfl, rfl⟩ (.resumed h.1 h.2 rfl rfl)

theorem hasEffect_registerTemporaryResource {itemId path : String} :
    (Work.registerTemporaryResource host itemId path).wp stored
      (fun _ _ after => HasEffect host limits sur work (.registerTemporaryResource itemId path)
        after) () work := by
  unfold Work.registerTemporaryResource
  refine wp_get (fun old hold => wp_save ?_) fun _ => .nothing
  exact .change hold ⟨rfl, rfl, rfl, rfl⟩ (.recorded rfl rfl)

theorem hasEffect_attachEvidence {itemId : String} {evidence : List String} :
    (Work.attachEvidence sur itemId evidence).wp stored
      (fun _ _ after => HasEffect host limits sur work (.attachEvidence itemId evidence) after) ()
      work := by
  unfold Work.attachEvidence
  refine wp_get (fun old hold => wp_save ?_) fun _ => .nothing
  exact .change hold ⟨rfl, rfl, rfl, rfl⟩ (.recorded rfl rfl)

theorem hasEffect_enqueue {request : EnqueueRequest} {newId : String} :
    (Work.enqueue host sur request newId).wp stored
      (fun _ _ after => HasEffect host limits sur work (.enqueue request newId) after) () work := by
  unfold Work.enqueue
  refine wp_computed (fun item hitem => wp_save (.save ?_)) fun _ _ => .nothing
  have hid := enqueuedItem_id hitem
  exact .enqueued (by rw [hid]) (by rw [hid, hitem])

theorem hasEffect_restoreInterrupted :
    (Work.restoreInterrupted sur).wp stored
      (fun _ _ after => HasEffect host limits sur work .restoreInterrupted after) () work := by
  unfold Work.restoreInterrupted
  refine wp_scheduledWork (wp_saves ?_)
  refine ⟨_, [], by rw [List.append_nil], ?_, ?_, Or.inl rfl⟩
  · rw [List.append_nil, List.map_map]
    exact work.unique.sublist (List.filter_sublist.map _)
  · intro new hnew
    obtain ⟨old, hold, rfl⟩ := List.mem_map.mp hnew
    obtain ⟨hmem, hactive⟩ := List.mem_filter.mp hold
    exact .changed hmem ⟨rfl, rfl, rfl, rfl⟩ (.interrupted hactive rfl rfl)

/-- **Everything a call can do** to a table, for every call. -/
theorem Call.effect (host : SchedulerHost) (limits : SchedulerLimits) (sur : Surroundings)
    (call : Call) (work : ScheduledWorkTable) :
    HasEffect host limits sur work call (call.after host limits sur work) := by
  refine Act.wp_run (G := fun _ _ => True)
    (Q := fun _ after => HasEffect host limits sur work call after) ?_
  cases call with
  | enqueue request newId => exact wp_return hasEffect_enqueue
  | claimNext => exact wp_return hasEffect_claimNext
  | tryClaim itemId => exact wp_return hasEffect_tryClaim
  | checkpoint itemId stage detail workerCalls wallTime evidence =>
    exact wp_return hasEffect_checkpoint
  | complete itemId status detail => exact wp_return hasEffect_complete
  | requestCancellation itemId actor reason => exact wp_return hasEffect_requestCancellation
  | cancel itemId actor reason =>
    exact wp_return (hasEffect_cancel fun old hold =>
      (ScheduledWorkTable.id_of_lookup hold).symm)
  | resume itemId => exact wp_return hasEffect_resume
  | registerTemporaryResource itemId path => exact wp_return hasEffect_registerTemporaryResource
  | attachEvidence itemId evidence => exact wp_return hasEffect_attachEvidence
  | restoreInterrupted => exact hasEffect_restoreInterrupted

/-- A call draws no identifier that is taken. -/
def Call.Fresh (work : ScheduledWorkTable) : Call → Prop
  | .enqueue _ newId => work.lookup newId = none
  | _ => True

/-- **What a call can do to one item**: nothing, a change, or a start. -/
theorem item_after (host : SchedulerHost) (limits : SchedulerLimits) (sur : Surroundings)
    {old : ScheduledWorkItem} {itemId : String} (hfresh : call.Fresh work)
    (hold : work.lookup itemId = some old) :
    ∃ new, (call.after host limits sur work).lookup itemId = some new ∧
      (new = old ∨ Change host sur old new call ∨
        Startable limits work call old ∧ new = start sur.now old) := by
  obtain ⟨kept, started, hafter, heffect⟩ := Call.effect host limits sur call work
  rw [hafter]
  by_cases hsaved : ∃ new ∈ kept ++ started, new.id = itemId
  · obtain ⟨new, hnew, rfl⟩ := hsaved
    refine ⟨new, ScheduledWorkTable.lookup_saveAll_of_mem heffect.ids hnew, ?_⟩
    rcases List.mem_append.mp hnew with hnew | hnew
    · cases heffect.kept new hnew with
      | enqueued hcall _ =>
        rw [hcall] at hfresh
        rw [show work.lookup new.id = none from hfresh] at hold
        cases hold
      | @changed found hfound hsame hchange =>
        rw [hsame.id, ScheduledWorkTable.lookup_of_mem hfound] at hold
        cases hold
        exact Or.inr (Or.inl hchange)
    · rcases heffect.started with rfl | ⟨found, hfound, rfl⟩
      · cases hnew
      · obtain rfl := List.mem_singleton.mp hnew
        rw [start_id, ScheduledWorkTable.lookup_of_mem hfound.mem] at hold
        cases hold
        exact Or.inr (Or.inr ⟨hfound, rfl⟩)
  · refine ⟨old, ?_, Or.inl rfl⟩
    rw [ScheduledWorkTable.lookup_saveAll_of_not_mem fun new hnew hid => hsaved ⟨new, hnew, hid⟩]
    exact hold

/-! ## Runs -/

/-- The table after calls made one after the other, each in its own surroundings. -/
def runCalls (host : SchedulerHost) (limits : SchedulerLimits) (calls : List (Surroundings × Call))
    (work : ScheduledWorkTable) : ScheduledWorkTable :=
  calls.foldl (fun work made => made.2.after host limits made.1 work) work

theorem runCalls_append {earlier later : List (Surroundings × Call)} :
    runCalls host limits (earlier ++ later) work =
      runCalls host limits later (runCalls host limits earlier work) :=
  List.foldl_append

/-- A condition on every call of a run and the table it finds. -/
def EveryStep (host : SchedulerHost) (limits : SchedulerLimits)
    (P : ScheduledWorkTable → Surroundings × Call → Prop) (calls : List (Surroundings × Call))
    (work : ScheduledWorkTable) : Prop :=
  ∀ earlier made later, calls = earlier ++ made :: later →
    P (runCalls host limits earlier work) made

theorem everyStep_nil {P : ScheduledWorkTable → Surroundings × Call → Prop} :
    EveryStep host limits P [] work := by
  intro earlier made later h
  cases earlier <;> cases h

theorem everyStep_cons {P : ScheduledWorkTable → Surroundings × Call → Prop}
    {made : Surroundings × Call} {calls : List (Surroundings × Call)} (hhead : P work made)
    (htail : EveryStep host limits P calls (made.2.after host limits made.1 work)) :
    EveryStep host limits P (made :: calls) work := by
  intro earlier next later h
  cases earlier with
  | nil =>
    cases h
    exact hhead
  | cons first earlier =>
    cases h
    exact htail earlier next later rfl

theorem EveryStep.head {P : ScheduledWorkTable → Surroundings × Call → Prop}
    {made : Surroundings × Call} {calls : List (Surroundings × Call)}
    (h : EveryStep host limits P (made :: calls) work) : P work made :=
  h [] made calls rfl

theorem EveryStep.tail {P : ScheduledWorkTable → Surroundings × Call → Prop}
    {made : Surroundings × Call} {calls : List (Surroundings × Call)}
    (h : EveryStep host limits P (made :: calls) work) :
    EveryStep host limits P calls (made.2.after host limits made.1 work) :=
  fun earlier next later hcalls => h (made :: earlier) next later (by rw [hcalls]; rfl)

/-- **Induction over a run**: what every call preserves holds after all of them. -/
theorem runCalls_invariant {I : ScheduledWorkTable → Prop} {calls : List (Surroundings × Call)}
    (hstep : ∀ made ∈ calls, ∀ work, I work → I (made.2.after host limits made.1 work))
    (h : I work) : I (runCalls host limits calls work) := by
  induction calls generalizing work with
  | nil => exact h
  | cons made calls ih =>
    exact ih (fun later hlater => hstep later (List.mem_cons_of_mem made hlater))
      (hstep made List.mem_cons_self work h)

end

end RlmGraph.Scheduler.Effects
