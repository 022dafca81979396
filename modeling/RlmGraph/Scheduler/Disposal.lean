import RlmGraph.Scheduler.Effects

/-! # The disposal of temporary resources

`complete` and `cancel` with the disk they delete from. The loop of
`_dispose_resources` checks a resource and deletes it before it looks at the
next one, so a refusal may come after deletions. It deletes nothing exactly if
what is listed before the refused resource is missing already
(`all_or_nothing_iff`). A path is what it resolves to; the links on the way do
not change while a call runs. -/
namespace RlmGraph.Scheduler.Disposal
open RlmGraph.Lib RlmGraph.Lib.PyText RlmGraph.Lib.Programs
open RlmGraph.Scheduler.Work

/-! ## Disks -/

inductive Node where
  | file | directory | link
  deriving DecidableEq

/-- What there is, by resolved path. Whatever there is, is in directories. -/
structure Disk (parents : String → List String) where
  node : String → Option Node
  rooted : ∀ path parent, node path ≠ none → parent ∈ parents path → node parent = some .directory

/-- The path is the target, or below it. -/
def covers (parents : String → List String) (target path : String) : Prop :=
  path = target ∨ target ∈ parents path

instance (parents : String → List String) (target path : String) :
    Decidable (covers parents target path) :=
  inferInstanceAs (Decidable (_ ∨ _))

structure DisposalHost extends SchedulerHost where
  parents_trans : ∀ {a b c}, a ∈ parents b → b ∈ parents c → a ∈ parents c
  /-- The message of a deletion that fails, and what it leaves. -/
  undeletable : String → Option String
  leftover : String → Disk parents → Disk parents

variable {host : DisposalHost}

/-- `shutil.rmtree`. -/
def Disk.rmtree (disk : Disk host.parents) (target : String) : Disk host.parents where
  node path := if covers host.parents target path then none else disk.node path
  rooted path parent hpath hparent := by
    have hkept : ¬covers host.parents target path := fun h => hpath (if_pos h)
    have hparentKept : ¬covers host.parents target parent := by
      rintro (rfl | h)
      · exact hkept (Or.inr hparent)
      · exact hkept (Or.inr (host.parents_trans h hparent))
    rw [if_neg hkept] at hpath
    rw [if_neg hparentKept]
    exact disk.rooted path parent hpath hparent

/-- `Path.unlink`, which leaves directories alone. -/
def Disk.unlink (disk : Disk host.parents) (target : String) : Disk host.parents where
  node path := if path = target ∧ disk.node target ≠ some .directory then none else disk.node path
  rooted path parent hpath hparent := by
    have hkept : ¬(path = target ∧ disk.node target ≠ some .directory) := fun h => hpath (if_pos h)
    rw [if_neg hkept] at hpath
    have hdirectory := disk.rooted path parent hpath hparent
    have hparentKept : ¬(parent = target ∧ disk.node target ≠ some .directory) := by
      rintro ⟨rfl, hnode⟩
      exact hnode hdirectory
    rw [if_neg hparentKept]
    exact hdirectory

theorem Disk.ext {parents : String → List String} {disk other : Disk parents}
    (h : ∀ path, disk.node path = other.node path) : disk = other := by
  cases disk
  cases other
  congr
  exact funext h

theorem Disk.node_rmtree (disk : Disk host.parents) (target path : String) :
    (disk.rmtree target).node path =
      if covers host.parents target path then none else disk.node path := rfl

theorem Disk.node_unlink (disk : Disk host.parents) (target path : String) :
    (disk.unlink target).node path =
      if path = target ∧ disk.node target ≠ some .directory then none else disk.node path := rfl

/-- Nothing is below what is no directory. -/
theorem Disk.below {disk : Disk host.parents} {target path : String}
    (hnode : disk.node target ≠ some .directory) (hbelow : target ∈ host.parents path) :
    disk.node path = none := by
  by_contra hpath
  exact hnode (disk.rooted path target hpath hbelow)

theorem Disk.rmtree_missing {disk : Disk host.parents} {target : String}
    (h : disk.node target = none) : disk.rmtree target = disk := by
  refine Disk.ext fun path => ?_
  rw [Disk.node_rmtree]
  split
  · next hcovers =>
    obtain rfl | hbelow := hcovers
    · exact h.symm
    · exact (Disk.below (by rw [h]; exact fun h => nomatch h) hbelow).symm
  · rfl

theorem Disk.unlink_eq_rmtree {disk : Disk host.parents} {target : String}
    (h : disk.node target ≠ some .directory) : disk.unlink target = disk.rmtree target := by
  refine Disk.ext fun path => ?_
  rw [Disk.node_unlink, Disk.node_rmtree]
  by_cases hpath : path = target
  · have hcovers : covers host.parents target path := Or.inl hpath
    rw [if_pos ⟨hpath, h⟩, if_pos hcovers]
  · rw [if_neg fun hboth => hpath hboth.1]
    split
    · next hcovers => exact Disk.below h (hcovers.resolve_left hpath)
    · rfl

/-! ## The disposal -/

def refusal : PyError :=
  .runtime "Scheduler refused to dispose a resource outside its temporary root."

/-- The temporary root itself, or a path that is not below it. -/
def Outside (host : DisposalHost) (root value : String) : Prop :=
  host.resolve value = host.resolve root ∨ host.resolve root ∉ host.parents (host.resolve value)

instance (host : DisposalHost) (root value : String) : Decidable (Outside host root value) :=
  inferInstanceAs (Decidable (_ ∨ _))

/-- The deletion of one target, whatever it is. -/
def delete (host : DisposalHost) (target : String) (disk : Disk host.parents) :
    Except PyError Unit × Disk host.parents :=
  match disk.node target, host.undeletable target with
  | none, _ => (.ok (), disk)
  | some _, some message => (.error (.os message), host.leftover target disk)
  | some .link, none => (.ok (), disk.unlink target)
  | some .directory, none => (.ok (), disk.rmtree target)
  | some .file, none => (.ok (), disk.unlink target)

/-- The loop of `_dispose_resources`. -/
def disposeAll (host : DisposalHost) (root : String) :
    List String → Disk host.parents → Except PyError Unit × Disk host.parents
  | [], disk => (.ok (), disk)
  | value :: rest, disk =>
    if Outside host root value then (.error refusal, disk)
    else
      match delete host (host.resolve value) disk with
      | (.ok (), disk) => disposeAll host root rest disk
      | (.error e, disk) => (.error e, disk)

/-- `_dispose_resources`: whether the resources are disposed of. -/
def disposeResources (host : DisposalHost) (temporaryRoot : Option String)
    (item : ScheduledWorkItem) (disk : Disk host.parents) : Except PyError Bool × Disk host.parents :=
  if item.temporaryResources = [] then (.ok true, disk)
  else
    match temporaryRoot with
    | none => (.ok false, disk)
    | some root =>
      match disposeAll host root item.temporaryResources disk with
      | (.ok (), disk) => (.ok true, disk)
      | (.error e, disk) => (.error e, disk)

/-! ## Calls -/

structure Site (host : DisposalHost) where
  work : ScheduledWorkTable
  disk : Disk host.parents

/-- An item is saved as it was disposed of, unless that raises. -/
def Site.close (site : Site host) (disposal : Except PyError Bool × Disk host.parents)
    (item : Bool → ScheduledWorkItem) : Except PyError ScheduledWorkItem × Site host :=
  match disposal with
  | (.ok disposed, disk) => (.ok (item disposed), ⟨site.work.save (item disposed), disk⟩)
  | (.error e, disk) => (.error e, { site with disk := disk })

inductive Closing where
  | complete (itemId status detail : String)
  | cancel (itemId actor reason : String)

def Closing.itemId : Closing → String
  | .complete itemId _ _ | .cancel itemId _ _ => itemId

/-- The item as the call saves it. -/
def Closing.item (sur : Surroundings) (found : ScheduledWorkItem) (disposed : Bool) :
    Closing → WorkStatus → ScheduledWorkItem
  | .complete _ _ detail, status => { found with
      status := status
      completedAt := some sur.now
      resourcesDisposed := disposed }.checkpointed sur.now status.text detail
  | .cancel _ actor reason, _ => { found with
      cancellationRequested := true
      cancelledBy := some (strip actor)
      cancellationReason := some (strip reason)
      status := .cancelled
      completedAt := some sur.now
      resourcesDisposed := disposed }.checkpointed sur.now "CANCELLED" (strip reason)

/-- The status a call closes its item with. -/
def Closing.status (host : DisposalHost) : Closing → Except PyError WorkStatus
  | .complete _ status _ => completionStatus (upper host.text status)
  | .cancel .. => .ok .cancelled

/-- `complete` and `cancel`, on the disk. -/
def Closing.on (host : DisposalHost) (sur : Surroundings) (call : Closing) (site : Site host) :
    Except PyError ScheduledWorkItem × Site host :=
  match call.status host with
  | .error e => (.error e, site)
  | .ok status =>
    match site.work.lookup call.itemId with
    | none => (.error (notFound call.itemId), site)
    | some found => site.close (disposeResources host sur.temporaryRoot found site.disk)
        fun disposed => call.item sur found disposed status

/-! ## What the loop does -/

/-- The disk without some resources. -/
def Disk.without (disk : Disk host.parents) (resources : List String) : Disk host.parents :=
  resources.foldl (fun disk value => disk.rmtree (host.resolve value)) disk

/-- The resource is there, also without the ones before it. -/
def Remains (host : DisposalHost) (disk : Disk host.parents) (before : List String) (value : String) :
    Prop :=
  (disk.without before).node (host.resolve value) ≠ none

/-- Some resource remains when its turn comes and cannot be deleted. -/
def Halts (host : DisposalHost) (disk : Disk host.parents) (resources : List String) : Prop :=
  ∃ before value after, resources = before ++ value :: after ∧ Remains host disk before value ∧
    host.undeletable (host.resolve value) ≠ none

theorem halts_nil {disk : Disk host.parents} : ¬Halts host disk [] := by
  rintro ⟨before, value, after, h, -⟩
  simp at h

theorem halts_cons {disk : Disk host.parents} {value : String} {rest : List String} :
    Halts host disk (value :: rest) ↔
      (disk.node (host.resolve value) ≠ none ∧ host.undeletable (host.resolve value) ≠ none) ∨
        Halts host (disk.rmtree (host.resolve value)) rest := by
  constructor
  · rintro ⟨before, halted, after, h, hremains, hfails⟩
    cases before with
    | nil =>
      obtain ⟨rfl, rfl⟩ := List.cons.inj h
      exact Or.inl ⟨hremains, hfails⟩
    | cons first before =>
      obtain ⟨rfl, rfl⟩ := List.cons.inj h
      exact Or.inr ⟨before, halted, after, rfl, hremains, hfails⟩
  · rintro (⟨hnode, hfails⟩ | ⟨before, halted, after, rfl, hremains, hfails⟩)
    · exact ⟨[], value, rest, rfl, hnode, hfails⟩
    · exact ⟨value :: before, halted, after, rfl, hremains, hfails⟩

theorem Halts.append {disk : Disk host.parents} {resources : List String}
    (h : Halts host disk resources) (more : List String) : Halts host disk (resources ++ more) := by
  obtain ⟨before, value, after, rfl, hremains, hfails⟩ := h
  exact ⟨before, value, after ++ more, by simp, hremains, hfails⟩

/-- A deletion that does not fail takes the target and what is below it. -/
theorem delete_ok {target : String} {disk : Disk host.parents}
    (h : disk.node target = none ∨ host.undeletable target = none) :
    delete host target disk = (.ok (), disk.rmtree target) := by
  unfold delete
  cases hnode : disk.node target with
  | none => simp only [Disk.rmtree_missing hnode]
  | some node =>
    have hfails : host.undeletable target = none := h.resolve_left (by simp [hnode])
    rw [hfails]
    cases node with
    | directory => rfl
    | file => simp only [Disk.unlink_eq_rmtree (by rw [hnode]; exact fun h => nomatch h)]
    | link => simp only [Disk.unlink_eq_rmtree (by rw [hnode]; exact fun h => nomatch h)]

theorem delete_fails {target : String} {disk : Disk host.parents} (hnode : disk.node target ≠ none)
    (hfails : host.undeletable target ≠ none) :
    ∃ message disk', delete host target disk = (.error (.os message), disk') := by
  obtain ⟨node, hnode⟩ := Option.ne_none_iff_exists'.mp hnode
  obtain ⟨message, hmessage⟩ := Option.ne_none_iff_exists'.mp hfails
  refine ⟨message, host.leftover target disk, ?_⟩
  unfold delete
  rw [hnode, hmessage]

/-- Resources below the root: the loop halts at one, or goes on without them. -/
theorem disposeAll_inside {root : String} {before : List String} (rest : List String)
    {disk : Disk host.parents} (h : ∀ value ∈ before, ¬Outside host root value) :
    (Halts host disk before ∧ ∃ message disk',
        disposeAll host root (before ++ rest) disk = (.error (.os message), disk')) ∨
      (¬Halts host disk before ∧
        disposeAll host root (before ++ rest) disk = disposeAll host root rest (disk.without before)) := by
  induction before generalizing disk with
  | nil => exact Or.inr ⟨halts_nil, rfl⟩
  | cons value before ih =>
    have hvalue := h value List.mem_cons_self
    have hbefore := fun other hother => h other (List.mem_cons_of_mem value hother)
    rw [halts_cons, List.cons_append, disposeAll, if_neg hvalue]
    by_cases hfails : disk.node (host.resolve value) ≠ none ∧
        host.undeletable (host.resolve value) ≠ none
    · obtain ⟨message, disk', hdelete⟩ := delete_fails hfails.1 hfails.2
      rw [hdelete]
      exact Or.inl ⟨Or.inl hfails, message, disk', rfl⟩
    · rw [delete_ok (by by_contra hboth; exact hfails (not_or.mp hboth))]
      rw [or_iff_right hfails]
      exact ih hbefore

theorem Disk.node_without_of_none {disk : Disk host.parents} {path : String} (resources : List String)
    (h : disk.node path = none) : (disk.without resources).node path = none := by
  induction resources generalizing disk with
  | nil => exact h
  | cons value resources ih =>
    have hnext : (disk.rmtree (host.resolve value)).node path = none := by
      rw [Disk.node_rmtree, h, ite_self]
    exact ih hnext

theorem node_without_of_mem {disk : Disk host.parents} {resources : List String} {value : String}
    (h : value ∈ resources) : (disk.without resources).node (host.resolve value) = none := by
  induction resources generalizing disk with
  | nil => cases h
  | cons first resources ih =>
    cases h with
    | head =>
      have hcovers : covers host.parents (host.resolve value) (host.resolve value) := Or.inl rfl
      have hgone : (disk.rmtree (host.resolve value)).node (host.resolve value) = none := by
        rw [Disk.node_rmtree, if_pos hcovers]
      exact Disk.node_without_of_none resources hgone
    | tail _ h => exact ih h

theorem without_missing {disk : Disk host.parents} {resources : List String}
    (h : ∀ value ∈ resources, disk.node (host.resolve value) = none) :
    disk.without resources = disk := by
  induction resources with
  | nil => rfl
  | cons value resources ih =>
    have hvalue := Disk.rmtree_missing (h value List.mem_cons_self)
    change Disk.without (disk.rmtree (host.resolve value)) resources = disk
    rw [hvalue]
    exact ih fun other hother => h other (List.mem_cons_of_mem value hother)

/-- How the loop ends: at the end of the list, at a deletion that fails, or at
the first resource outside the root. -/
inductive Ending (host : DisposalHost) (root : String) (resources : List String)
    (disk : Disk host.parents) : Except PyError Unit × Disk host.parents → Prop
  | done (hinside : ∀ value ∈ resources, ¬Outside host root value)
      (hdeletes : ¬Halts host disk resources) :
      Ending host root resources disk (.ok (), disk.without resources)
  | halted {before after : List String} {message : String} {disk' : Disk host.parents}
      (hresources : resources = before ++ after)
      (hinside : ∀ value ∈ before, ¬Outside host root value) (hhalts : Halts host disk before) :
      Ending host root resources disk (.error (.os message), disk')
  | refused {before after : List String} {value : String}
      (hresources : resources = before ++ value :: after) (hvalue : Outside host root value)
      (hinside : ∀ value ∈ before, ¬Outside host root value) (hdeletes : ¬Halts host disk before) :
      Ending host root resources disk (.error refusal, disk.without before)

/-- A list has a first element of a kind, or none. -/
theorem exists_first {α : Type} (p : α → Prop) [DecidablePred p] (xs : List α) :
    (∀ x ∈ xs, ¬p x) ∨ ∃ before x after, xs = before ++ x :: after ∧ p x ∧ ∀ y ∈ before, ¬p y := by
  induction xs with
  | nil => exact Or.inl fun x hx => nomatch hx
  | cons x xs ih =>
    by_cases hx : p x
    · exact Or.inr ⟨[], x, xs, rfl, hx, fun y hy => nomatch hy⟩
    · obtain hnone | ⟨before, y, after, rfl, hy, hbefore⟩ := ih
      · exact Or.inl fun y hy => (List.mem_cons.mp hy).elim (fun h => h ▸ hx) (hnone y)
      · exact Or.inr ⟨x :: before, y, after, rfl, hy, fun z hz =>
          (List.mem_cons.mp hz).elim (fun h => h ▸ hx) (hbefore z)⟩

theorem disposeAll_ending (host : DisposalHost) (root : String) (resources : List String)
    (disk : Disk host.parents) :
    Ending host root resources disk (disposeAll host root resources disk) := by
  obtain hinside | ⟨before, value, after, rfl, hvalue, hinside⟩ :=
    exists_first (Outside host root) resources
  · obtain ⟨hhalts, message, disk', hends⟩ | ⟨hdeletes, hends⟩ :=
      disposeAll_inside [] hinside
    · rw [List.append_nil] at hends
      rw [hends]
      exact .halted (List.append_nil resources).symm hinside hhalts
    · rw [List.append_nil] at hends
      rw [hends]
      exact .done hinside hdeletes
  · obtain ⟨hhalts, message, disk', hends⟩ | ⟨hdeletes, hends⟩ :=
      disposeAll_inside (value :: after) hinside
    · rw [hends]
      exact .halted rfl hinside hhalts
    · rw [hends, disposeAll, if_pos hvalue]
      exact .refused rfl hvalue hinside hdeletes

/-- What has no element of a kind is within what comes before one. -/
theorem prefix_first {α : Type} {p : α → Prop} {before before' after after' : List α} {x : α}
    (h : before ++ x :: after = before' ++ after') (hx : p x) (hbefore' : ∀ y ∈ before', ¬p y) :
    before' <+: before := by
  obtain ⟨more, hmore, hrest⟩ | ⟨more, hmore, -⟩ := List.append_eq_append_iff.mp h
  · cases more with
    | nil => exact ⟨[], by simpa using hmore⟩
    | cons y more =>
      obtain ⟨rfl, -⟩ := List.cons.inj hrest
      exact absurd hx (hbefore' x (by rw [hmore]; exact List.mem_append_right _ List.mem_cons_self))
  · exact ⟨more, hmore.symm⟩

/-- The first element of a kind is one. -/
theorem first_unique {α : Type} {p : α → Prop} {before before' after after' : List α} {x x' : α}
    (h : before ++ x :: after = before' ++ x' :: after') (hx : p x) (hx' : p x')
    (hbefore : ∀ y ∈ before, ¬p y) (hbefore' : ∀ y ∈ before', ¬p y) : before = before' :=
  (prefix_first h.symm hx' hbefore).eq_of_length_le (prefix_first h hx hbefore').length_le

/-- What is listed before the first resource outside the root is missing, or a
deletion before it fails. -/
def Orderly (host : DisposalHost) (root : String) (resources : List String)
    (disk : Disk host.parents) : Prop :=
  ∀ before value after, resources = before ++ value :: after → Outside host root value →
    (∀ other ∈ before, ¬Outside host root other) →
      Halts host disk before ∨ ∀ other ∈ before, disk.node (host.resolve other) = none

theorem Halts.mono {disk : Disk host.parents} {before before' : List String}
    (h : Halts host disk before) (hinit : before <+: before') : Halts host disk before' := by
  obtain ⟨more, rfl⟩ := hinit
  exact h.append more

/-- A call either deletes nothing or is not refused, exactly on an orderly list. -/
theorem orderly_iff {root : String} {resources : List String} {disk disk' : Disk host.parents}
    {r : Except PyError Unit} (h : Ending host root resources disk (r, disk')) :
    Orderly host root resources disk ↔ (r = .error refusal → ∀ value ∈ resources,
      disk.node (host.resolve value) ≠ none → disk'.node (host.resolve value) ≠ none) := by
  generalize hend : (r, disk') = ending at h
  cases h with
  | done hinside hdeletes =>
    cases hend
    constructor
    · intro _ hrefused
      cases hrefused
    · intro _ before value after hresources hvalue _
      exact absurd hvalue (hinside value (by rw [hresources]; simp))
  | @halted before' after' message disk'' hresources' hinside' hhalts =>
    cases hend
    constructor
    · intro _ hrefused
      cases hrefused
    · intro _ before value after hresources hvalue _
      exact Or.inl (hhalts.mono (prefix_first (hresources.symm.trans hresources') hvalue hinside'))
  | @refused before' after' value' hresources' hvalue' hinside' hdeletes =>
    cases hend
    constructor
    · intro horderly _ value hvalue hnode
      have hmissing := (horderly before' value' after' hresources' hvalue' hinside').resolve_left
        hdeletes
      rw [without_missing hmissing]
      exact hnode
    · intro hkept before value after hresources hvalue hinside
      obtain rfl := first_unique (hresources.symm.trans hresources') hvalue hvalue' hinside hinside'
      refine Or.inr fun other hother => ?_
      by_contra hnode
      exact hkept rfl other (by rw [hresources]; exact List.mem_append_left _ hother) hnode
        (node_without_of_mem hother)

/-! ## All or nothing -/

/-- A refused call has deleted no resource and saved nothing; a call that says
the resources are disposed of has deleted all of them. -/
structure AllOrNothing (host : DisposalHost) (sur : Surroundings) (call : Closing)
    (site : Site host) : Prop where
  refused : (call.on host sur site).1 = .error refusal →
    (call.on host sur site).2.work = site.work ∧
      ∀ found, site.work.lookup call.itemId = some found → ∀ value ∈ found.temporaryResources,
        site.disk.node (host.resolve value) ≠ none →
          (call.on host sur site).2.disk.node (host.resolve value) ≠ none
  disposed : ∀ item, (call.on host sur site).1 = .ok item → item.resourcesDisposed = true →
    ∀ value ∈ item.temporaryResources, (call.on host sur site).2.disk.node (host.resolve value) = none

/-- The item whose resources the call disposes of, and the root they are below. -/
structure Disposes (host : DisposalHost) (sur : Surroundings) (call : Closing) (site : Site host)
    (found : ScheduledWorkItem) (root : String) : Prop where
  status : ∃ status, call.status host = .ok status
  found : site.work.lookup call.itemId = some found
  root : sur.temporaryRoot = some root

section
variable {sur : Surroundings} {call : Closing} {site : Site host} {found : ScheduledWorkItem}

theorem on_error {e : PyError} (h : call.status host = .error e) :
    call.on host sur site = (.error e, site) := by
  unfold Closing.on
  rw [h]

theorem on_missing {status : WorkStatus} (hstatus : call.status host = .ok status)
    (hfound : site.work.lookup call.itemId = none) :
    call.on host sur site = (.error (notFound call.itemId), site) := by
  unfold Closing.on
  rw [hstatus, hfound]

theorem on_found {status : WorkStatus} (hstatus : call.status host = .ok status)
    (hfound : site.work.lookup call.itemId = some found) :
    call.on host sur site = site.close
      ((disposeResources host sur.temporaryRoot found site.disk).1,
        (disposeResources host sur.temporaryRoot found site.disk).2)
      fun disposed => call.item sur found disposed status := by
  unfold Closing.on
  rw [hstatus, hfound]

theorem status_error {e : PyError} (h : call.status host = .error e) : e ≠ refusal := by
  rintro rfl
  cases call with
  | complete itemId status detail =>
    change completionStatus (upper host.text status) = .error refusal at h
    unfold completionStatus at h
    split_ifs at h
    exact nomatch h
  | cancel itemId actor reason => cases h

theorem item_temporaryResources (found : ScheduledWorkItem) (disposed : Bool) (status : WorkStatus) :
    (call.item sur found disposed status).temporaryResources = found.temporaryResources := by
  cases call <;> rfl

theorem item_resourcesDisposed (found : ScheduledWorkItem) (disposed : Bool) (status : WorkStatus) :
    (call.item sur found disposed status).resourcesDisposed = disposed := by
  cases call <;> rfl

/-- A call that raises before it disposes of anything. -/
theorem allOrNothing_of_error {e : PyError} (h : call.on host sur site = (.error e, site))
    (he : e ≠ refusal) : AllOrNothing host sur call site where
  refused hrefused := by
    rw [h] at hrefused
    exact absurd (Except.error.inj hrefused) he
  disposed item hitem := by
    rw [h] at hitem
    cases hitem

/-- A call that has come to dispose of the resources of an item. -/
theorem allOrNothing_close {status : WorkStatus} {r : Except PyError Bool}
    {disk : Disk host.parents} (hfound : site.work.lookup call.itemId = some found)
    (h : call.on host sur site =
      site.close (r, disk) fun disposed => call.item sur found disposed status) :
    AllOrNothing host sur call site ↔
      (r = .error refusal → ∀ value ∈ found.temporaryResources,
        site.disk.node (host.resolve value) ≠ none → disk.node (host.resolve value) ≠ none) ∧
      (r = .ok true → ∀ value ∈ found.temporaryResources, disk.node (host.resolve value) = none) := by
  constructor
  · intro hall
    refine ⟨fun hr => ?_, fun hr => ?_⟩
    · subst hr
      have hkept := (hall.refused (by rw [h]; rfl)).2 found hfound
      rw [h] at hkept
      exact hkept
    · subst hr
      have hgone := hall.disposed (call.item sur found true status) (by rw [h]; rfl)
        (item_resourcesDisposed found true status)
      rw [h, item_temporaryResources] at hgone
      exact hgone
  · rintro ⟨hrefused, hdisposed⟩
    constructor
    · intro hcall
      rw [h] at hcall ⊢
      cases r with
      | ok disposed => cases hcall
      | error e =>
        refine ⟨rfl, fun found' hfound' => ?_⟩
        cases Option.some.inj (hfound'.symm.trans hfound)
        have he : e = refusal := Except.error.inj hcall
        exact hrefused (by rw [he])
    · intro item hitem hflag
      rw [h] at hitem ⊢
      cases r with
      | error e => cases hitem
      | ok disposed =>
        cases hitem
        rw [item_resourcesDisposed] at hflag
        rw [item_temporaryResources]
        subst hflag
        exact hdisposed rfl

theorem Ending.gone {root : String} {resources : List String} {disk disk' : Disk host.parents}
    (h : Ending host root resources disk (.ok (), disk')) :
    ∀ value ∈ resources, disk'.node (host.resolve value) = none := by
  cases h with
  | done hinside hdeletes => exact fun value hvalue => node_without_of_mem hvalue

/-- What the disposal of an item comes to. -/
theorem disposeResources_iff (temporaryRoot : Option String) (item : ScheduledWorkItem)
    (disk : Disk host.parents) :
    (((disposeResources host temporaryRoot item disk).1 = .error refusal →
        ∀ value ∈ item.temporaryResources, disk.node (host.resolve value) ≠ none →
          (disposeResources host temporaryRoot item disk).2.node (host.resolve value) ≠ none) ∧
      ((disposeResources host temporaryRoot item disk).1 = .ok true →
        ∀ value ∈ item.temporaryResources,
          (disposeResources host temporaryRoot item disk).2.node (host.resolve value) = none)) ↔
    ∀ root, temporaryRoot = some root → Orderly host root item.temporaryResources disk := by
  by_cases hempty : item.temporaryResources = []
  · have hends : disposeResources host temporaryRoot item disk = (.ok true, disk) := by
      unfold disposeResources
      rw [if_pos hempty]
    rw [hends, hempty]
    refine iff_of_true ⟨fun h => (nomatch h), fun _ value hvalue => nomatch hvalue⟩ ?_
    intro root _ before value after hresources
    simp at hresources
  · cases temporaryRoot with
    | none =>
      have hends : disposeResources host none item disk = (.ok false, disk) := by
        unfold disposeResources
        rw [if_neg hempty]
      rw [hends]
      exact iff_of_true ⟨fun h => (nomatch h), fun h => nomatch h⟩ fun root h => nomatch h
    | some root =>
      have hending := disposeAll_ending host root item.temporaryResources disk
      have hends : disposeResources host (some root) item disk =
          ((disposeAll host root item.temporaryResources disk).1.map fun _ => true,
            (disposeAll host root item.temporaryResources disk).2) := by
        unfold disposeResources
        rw [if_neg hempty]
        dsimp only
        split <;> next heq => rw [heq]; rfl
      rw [hends]
      clear hends
      generalize disposeAll host root item.temporaryResources disk = ending at hending ⊢
      obtain ⟨r, disk'⟩ := ending
      simp only [Option.some.injEq, forall_eq', orderly_iff hending]
      cases r with
      | error e => simp [Except.map]
      | ok u =>
        have hgone := hending.gone
        simp only [Except.map, reduceCtorEq, false_implies, true_and, forall_const, iff_true]
        exact hgone

end

/-- **Disposal is all or nothing exactly on orderly lists.** -/
theorem all_or_nothing_iff (host : DisposalHost) (sur : Surroundings) (call : Closing)
    (site : Site host) :
    AllOrNothing host sur call site ↔ ∀ found root, Disposes host sur call site found root →
      Orderly host root found.temporaryResources site.disk := by
  cases hstatus : call.status host with
  | error e =>
    refine iff_of_true (allOrNothing_of_error (on_error hstatus) (status_error hstatus)) ?_
    intro found root h
    obtain ⟨status, hok⟩ := h.status
    rw [hstatus] at hok
    cases hok
  | ok status =>
    cases hfound : site.work.lookup call.itemId with
    | none =>
      refine iff_of_true (allOrNothing_of_error (on_missing hstatus hfound) fun h => nomatch h) ?_
      intro found root h
      exact absurd (h.found.symm.trans hfound) (by simp)
    | some found =>
      refine (allOrNothing_close hfound (on_found hstatus hfound)).trans
        ((disposeResources_iff ..).trans ?_)
      constructor
      · intro horderly found' root h
        cases Option.some.inj (h.found.symm.trans hfound)
        exact horderly root h.root
      · intro horderly root hroot
        exact horderly found root ⟨⟨status, hstatus⟩, hfound, hroot⟩

/-! ## The calls without a disk -/

/-- The call as a program over the table. -/
def Closing.program (host : DisposalHost) (sur : Surroundings) :
    Closing → SchedulerAct ScheduledWorkItem
  | .complete itemId status detail => Work.complete host.toSchedulerHost sur itemId status detail
  | .cancel itemId actor reason => Work.cancel host.toSchedulerHost sur itemId actor reason

section
variable {host : DisposalHost} {sur : Surroundings} {site : Site host} {α β : Type}

theorem run_result (r : Except PyError α) (f : α → SchedulerAct β) (work : ScheduledWorkTable) :
    (Act.ofExcept r >>= f).run perform () work =
      match r with
      | .ok a => (f a).run perform () work
      | .error e => (.error e, work) := by
  cases r <;> rfl

theorem run_get (itemId : String) (f : ScheduledWorkItem → SchedulerAct β) (work : ScheduledWorkTable) :
    (Work.get itemId >>= f).run perform () work =
      match work.lookup itemId with
      | some found => (f found).run perform () work
      | none => (.error (notFound itemId), work) := by
  have hget : (Work.get itemId >>= f).run perform () work =
      (Act.ofExcept ((work.lookup itemId).elim (Except.error (notFound itemId)) Except.ok) >>=
        f).run perform () work := rfl
  rw [hget, run_result]
  cases work.lookup itemId <;> rfl

/-- The end of a call: the item is disposed of and saved. -/
theorem run_close {item : Bool → ScheduledWorkItem} {r : Except PyError Bool}
    {disk : Disk host.parents} {made : Except PyError ScheduledWorkItem} (hmade : made = r.map item) :
    ((Act.ofExcept made >>= fun saved => saveScheduledWork saved >>= fun _ => pure saved :
        SchedulerAct ScheduledWorkItem).run perform () site.work) =
      ((site.close (r, disk) item).1, (site.close (r, disk) item).2.work) := by
  subst hmade
  rw [run_result]
  cases r <;> rfl

/-- The table and the result are those of the program, if the disposals end alike. -/
theorem run_program {call : Closing} (h : ∀ found, site.work.lookup call.itemId = some found →
      Work.disposeResources host.toSchedulerHost sur found =
        (disposeResources host sur.temporaryRoot found site.disk).1) :
    (call.program host sur).run perform () site.work =
      ((call.on host sur site).1, (call.on host sur site).2.work) := by
  cases call with
  | complete itemId status detail =>
    unfold Closing.program Work.complete
    rw [run_result]
    cases hstatus : (Closing.complete itemId status detail).status host with
    | error e =>
      have hraises : completionStatus (upper host.text status) = .error e := hstatus
      rw [on_error hstatus, hraises]
    | ok closed =>
      have hcloses : completionStatus (upper host.text status) = .ok closed := hstatus
      rw [hcloses]
      dsimp only
      rw [run_get]
      cases hfound : site.work.lookup (Closing.complete itemId status detail).itemId with
      | none =>
        have hmissing : site.work.lookup itemId = none := hfound
        rw [on_missing hstatus hfound, hmissing]
        rfl
      | some found =>
        have hitem : site.work.lookup itemId = some found := hfound
        rw [on_found hstatus hfound, hitem]
        refine run_close ?_
        rw [← h found hfound]
        unfold ScheduledWorkItem.complete
        cases Work.disposeResources host.toSchedulerHost sur found <;> rfl
  | cancel itemId actor reason =>
    unfold Closing.program Work.cancel
    rw [run_get]
    have hstatus : (Closing.cancel itemId actor reason).status host = .ok .cancelled := rfl
    cases hfound : site.work.lookup (Closing.cancel itemId actor reason).itemId with
    | none =>
      have hmissing : site.work.lookup itemId = none := hfound
      rw [on_missing hstatus hfound, hmissing]
      rfl
    | some found =>
      have hitem : site.work.lookup itemId = some found := hfound
      rw [on_found hstatus hfound, hitem]
      refine run_close ?_
      rw [← h found hfound]
      unfold ScheduledWorkItem.cancel
      cases Work.disposeResources host.toSchedulerHost sur found <;> rfl

theorem disposeAll_agree (hdeletes : ∀ target, host.undeletable target = none)
    (hsur : ∀ target, sur.delete target = .ok ()) (root : String) (resources : List String)
    (disk : Disk host.parents) :
    (resources.forM fun value =>
        let target := host.resolve value
        if target = host.resolve root ∨ host.resolve root ∉ host.parents target then
          Except.error (.runtime "Scheduler refused to dispose a resource outside its temporary root.")
        else sur.delete target) = (disposeAll host root resources disk).1 := by
  induction resources generalizing disk with
  | nil => rfl
  | cons value rest ih =>
    rw [List.forM, disposeAll, delete_ok (Or.inr (hdeletes _))]
    by_cases houtside : Outside host root value
    · have hpaths : host.resolve value = host.resolve root ∨
          host.resolve root ∉ host.parents (host.resolve value) := houtside
      rw [if_pos houtside]
      dsimp only
      rw [if_pos hpaths]
      rfl
    · have hpaths : ¬(host.resolve value = host.resolve root ∨
          host.resolve root ∉ host.parents (host.resolve value)) := houtside
      rw [if_neg houtside]
      dsimp only
      rw [if_neg hpaths, hsur]
      exact ih _

/-- Disposals end alike where no deletion fails. -/
theorem disposeResources_agree (hdeletes : ∀ target, host.undeletable target = none)
    (hsur : ∀ target, sur.delete target = .ok ()) (found : ScheduledWorkItem)
    (disk : Disk host.parents) :
    Work.disposeResources host.toSchedulerHost sur found =
      (disposeResources host sur.temporaryRoot found disk).1 := by
  unfold Work.disposeResources disposeResources
  by_cases hempty : found.temporaryResources = []
  · rw [if_pos hempty, if_pos hempty]
  · rw [if_neg hempty, if_neg hempty]
    cases sur.temporaryRoot with
    | none => rfl
    | some root =>
      dsimp only
      rw [disposeAll_agree hdeletes hsur root found.temporaryResources disk]
      split <;> next heq => rw [heq]; rfl

end

/-! ## A resource outside the root, listed last -/

/-- A host with one path below the temporary root. -/
def narrowHost : DisposalHost where
  toSchedulerHost := { plainHost with
    parents := fun path => if path = "/tmp/work/log" then ["/tmp/work"] else [] }
  parents_trans := by
    intro a b c hab hbc
    have hc : c = "/tmp/work/log" := by
      by_contra hc
      simp [hc] at hbc
    subst hc
    obtain rfl : b = "/tmp/work" := by simpa using hbc
    simp at hab
  undeletable _ := none
  leftover _ disk := disk

def narrowDisk : Disk narrowHost.parents where
  node path := if path = "/tmp/work/log" then some .file
    else if path = "/tmp/work" then some .directory else none
  rooted path parent hpath hparent := by
    have hlog : path = "/tmp/work/log" := by
      by_contra hlog
      simp [narrowHost, hlog] at hparent
    subst hlog
    obtain rfl : parent = "/tmp/work" := by simpa [narrowHost] using hparent
    decide

/-- An item with a log below the root and a file outside it. -/
def narrowSite : Site narrowHost where
  work := ScheduledWorkTable.empty.save { plainItem with
    temporaryResources := ["/tmp/work/log", "/etc/hosts"] }
  disk := narrowDisk

def closing : Closing := .cancel "w" "ada" "No longer needed."

/-- The log is deleted before the other resource is refused. -/
theorem refused_after_deletion :
    ¬∀ (host : DisposalHost) (sur : Surroundings) (call : Closing) (site : Site host),
      AllOrNothing host sur call site := by
  intro hall
  have hkept := (hall narrowHost { plainSurroundings with temporaryRoot := some "/tmp/work" } closing
    narrowSite).refused (by decide +kernel)
  exact absurd (hkept.2 { plainItem with temporaryResources := ["/tmp/work/log", "/etc/hosts"] }
    (by decide +kernel) "/tmp/work/log" (by simp) (by decide +kernel)) (by decide +kernel)

end RlmGraph.Scheduler.Disposal
