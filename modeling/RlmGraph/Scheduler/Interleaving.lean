import RlmGraph.Scheduler.Lifecycle

/-! # Interleaved calls on one item

Two clients of the scheduler whose reads and saves interleave: one claims, the
other requests a cancellation, cancels, checkpoints or attaches evidence. A call
reads the table, changes its own copy of the item and saves it, and nothing
protects the item in between, so a save may be stale: the other client has saved
the item since the call last read the table. A stale save wipes out what the
other one did. Without stale saves the item ends as if the calls had been made
one after the other (`serializes`). The proof follows the two programs through
the stages of an interleaving (`Stage`). -/
namespace RlmGraph.Scheduler.Interleaving
open RlmGraph.Lib RlmGraph.Lib.Programs RlmGraph.Scheduler.Work RlmGraph.Scheduler.ClaimPaths
open RlmGraph.Scheduler.Effects RlmGraph.Scheduler.Lifecycle

variable {α β : Type} {itemId : String} {work : ScheduledWorkTable}

/-! ## Programs that save one item -/

/-- The saves of a program that reads no more. -/
inductive Saves : List ScheduledWorkItem → Prog Op Reply α → Prop
  | done (a : α) : Saves [] (.done a)
  | save {item : ScheduledWorkItem} {items : List ScheduledWorkItem}
      {next : Unit → Prog Op Reply α} (h : Saves items (next ())) :
      Saves (item :: items) (.op (.saveScheduledWork item) next)

/-- What a program saves of an item when it runs alone. -/
def saved (itemId : String) : Prog Op Reply α → ScheduledWorkTable → Option ScheduledWorkItem
  | .done _, _ => none
  | .op .scheduledWork next, work => saved itemId (next work) work
  | .op (.saveScheduledWork item) next, work =>
    if item.id = itemId then some item else saved itemId (next ()) (work.save item)

/-- A program that reads, then saves different items. -/
inductive Tame : Prog Op Reply α → Prop
  | saves {items : List ScheduledWorkItem} {r : Prog Op Reply α} (h : Saves items r)
      (hids : (items.map (·.id)).Nodup) : Tame r
  | look {next : ScheduledWorkTable → Prog Op Reply α} (h : ∀ work, Tame (next work)) :
      Tame (.op .scheduledWork next)

/-- A program about to read. -/
def Unsettled (r : Prog Op Reply α) : Prop := ∃ next, r = .op .scheduledWork next

/-- A program that sees and saves one item only. It may look at the item again,
and then goes on the same when a claim has changed the item in between. -/
inductive Looks (itemId : String) : Prog Op Reply α → Prop
  | rest {r : Prog Op Reply α} (h : Saves [] r) : Looks itemId r
  | save {item : ScheduledWorkItem} {r : Prog Op Reply α} (hid : item.id = itemId)
      (h : Saves [item] r) : Looks itemId r
  | look {body : Option ScheduledWorkItem → Prog Op Reply α} (hbody : ∀ view, Looks itemId (body view))
      (hstable : ∀ old new, SameWork old new → KeepsCancellation old new →
        Unsettled (body (some old)) → body (some new) = body (some old)) :
      Looks itemId (.op .scheduledWork fun work => body (work.lookup itemId))

theorem Looks.tame {r : Prog Op Reply α} (h : Looks itemId r) : Tame r := by
  induction h with
  | rest h => exact .saves h (by simp)
  | save _ h => exact .saves h (by simp)
  | look _ _ ih => exact .look fun work => ih _

theorem saved_of_saves {items : List ScheduledWorkItem} {r : Prog Op Reply α} (h : Saves items r) :
    saved itemId r work = items.find? (·.id == itemId) := by
  induction h generalizing work with
  | done a => rfl
  | @save item items next h ih =>
    unfold saved
    by_cases hid : item.id = itemId
    · rw [if_pos hid, List.find?_cons_of_pos (by simpa using hid)]
    · rw [if_neg hid, List.find?_cons_of_neg (by simpa using hid), ih]

theorem exec_of_saves {items : List ScheduledWorkItem} {r : Prog Op Reply α} (h : Saves items r) :
    (r.exec perform work).2 = work.saveAll items := by
  induction h generalizing work with
  | done a => rfl
  | save h ih => exact ih

/-- **A run alone** leaves what it saves, and else what was there. -/
theorem lookup_exec {r : Prog Op Reply α} (h : Tame r) :
    (r.exec perform work).2.lookup itemId =
      (saved itemId r work).or (work.lookup itemId) := by
  induction h generalizing work with
  | @saves items r h hids =>
    rw [exec_of_saves h, saved_of_saves h]
    cases hfound : items.find? (·.id == itemId) with
    | none =>
      refine ScheduledWorkTable.lookup_saveAll_of_not_mem fun item hitem => ?_
      simpa using List.find?_eq_none.mp hfound item hitem
    | some item =>
      obtain rfl : item.id = itemId := by simpa using List.find?_some hfound
      exact ScheduledWorkTable.lookup_saveAll_of_mem hids (List.mem_of_find?_eq_some hfound)
  | look h ih => exact ih work

theorem saved_congr {r : Prog Op Reply α} {work' : ScheduledWorkTable} (h : Looks itemId r)
    (hview : work.lookup itemId = work'.lookup itemId) :
    saved itemId r work = saved itemId r work' := by
  induction h with
  | rest h => rw [saved_of_saves h, saved_of_saves h]
  | save _ h => rw [saved_of_saves h, saved_of_saves h]
  | @look body hbody hstable ih =>
    show saved itemId (body (work.lookup itemId)) work = saved itemId (body (work'.lookup itemId)) work'
    rw [hview]
    exact ih _

/-- The table after a run that saves one item only. -/
theorem exec_of_looks {r : Prog Op Reply α} (h : Looks itemId r) :
    (r.exec perform work).2 = (saved itemId r work).elim work work.save := by
  induction h generalizing work with
  | rest h => rw [exec_of_saves h, saved_of_saves h]; rfl
  | @save item r hid h =>
    rw [exec_of_saves h, saved_of_saves h, List.find?_cons_of_pos (by simpa using hid)]
    rfl
  | look _ _ ih => exact ih _

/-! ## Stale saves -/

/-- Whether the item was saved by the other client since a client last read the
table, and whether the second client has saved it. -/
structure Marks where
  firstStale : Bool
  secondStale : Bool
  secondSaved : Bool

/-- What an operation of a client does to the marks; `true` is the first client. -/
def watch (itemId : String) : Bool → Op → Marks → Marks
  | true, .scheduledWork, marks => { marks with firstStale := false }
  | false, .scheduledWork, marks => { marks with secondStale := false }
  | true, .saveScheduledWork item, marks =>
    if item.id = itemId then { marks with secondStale := true } else marks
  | false, .saveScheduledWork item, marks =>
    if item.id = itemId then { marks with firstStale := true, secondSaved := true } else marks

/-- The operations of the clients on the table, with the marks beside it. -/
def watched (itemId : String) (client : Bool) : Meaning Op Reply (ScheduledWorkTable × Marks) :=
  monitored perform (watch itemId client)

/-- The client does not save the item when its copy is stale. -/
def NotStale (itemId : String) (client : Bool) : Op → ScheduledWorkTable × Marks → Prop
  | .scheduledWork, _ => True
  | .saveScheduledWork item, s => item.id = itemId →
    (if client then s.2.firstStale else s.2.secondStale) = false

instance : (client : Bool) → (o : Op) → (s : ScheduledWorkTable × Marks) →
    Decidable (NotStale itemId client o s)
  | _, .scheduledWork, _ => isTrue trivial
  | client, .saveScheduledWork item, s =>
    inferInstanceAs (Decidable (item.id = itemId →
      (if client then s.2.firstStale else s.2.secondStale) = false))

def noMarks : Marks := ⟨false, false, false⟩

/-! ## The stages of an interleaving -/

/-- A program that reads once and then saves different items; of the item in
question it saves a version with the same pending cancellation. -/
structure ClaimsFrom (itemId : String) (p : Prog Op Reply α)
    (body : ScheduledWorkTable → Prog Op Reply α) : Prop where
  program : p = .op .scheduledWork body
  saves : ∀ work, ∃ items, Saves items (body work) ∧ (items.map (·.id)).Nodup ∧
    ∀ new ∈ items, new.id = itemId → ∃ old, work.lookup itemId = some old ∧ SameWork old new ∧
      KeepsCancellation old new

/-- The view of an item, as it was or as a claim has changed it. -/
def Undisturbed (view view' : Option ScheduledWorkItem) : Prop :=
  view' = view ∨ ∃ old new, view = some old ∧ view' = some new ∧ SameWork old new ∧
    KeepsCancellation old new

/-- A client in the course of `q₀` that will save what `q₀` saves of the table. -/
inductive Ready (itemId : String) (q₀ q : Prog Op Reply β) (work : ScheduledWorkTable) : Prop
  | holding {item : ScheduledWorkItem} (hid : item.id = itemId) (h : Saves [item] q)
      (hsaved : saved itemId q₀ work = some item)
  | looking (hlooks : Looks itemId q) (hunsettled : Unsettled q)
      (hsame : ∀ work', Undisturbed (work.lookup itemId) (work'.lookup itemId) →
        saved itemId q work' = saved itemId q₀ work')

/-- The view of an item after two programs, one run after the other. -/
def Serial (itemId : String) (p₀ : Prog Op Reply α) (q₀ : Prog Op Reply β)
    (work : ScheduledWorkTable) (view : Option ScheduledWorkItem) : Prop :=
  view = (q₀.exec perform (p₀.exec perform work).2).2.lookup itemId ∨
    view = (p₀.exec perform (q₀.exec perform work).2).2.lookup itemId

/-- The stages: the first client has not read; both hold a version of the item;
one of them has nothing more to save of it; one of them holds a stale version. -/
inductive Stage (itemId : String) (p₀ : Prog Op Reply α) (q₀ : Prog Op Reply β)
    (work : ScheduledWorkTable) : Threads Op Reply (ScheduledWorkTable × Marks) α β → Prop
  | start {q : Prog Op Reply β} {marks : Marks} (hq : Ready itemId q₀ q work) :
      Stage itemId p₀ q₀ work ⟨p₀, q, work, marks⟩
  | both {p : Prog Op Reply α} {q : Prog Op Reply β} {now : ScheduledWorkTable} {marks : Marks}
      {items : List ScheduledWorkItem} {new : ScheduledWorkItem} (hp : Saves items p)
      (hids : (items.map (·.id)).Nodup) (hnew : items.find? (·.id == itemId) = some new)
      (hsaved : saved itemId p₀ work = some new) (hview : now.lookup itemId = work.lookup itemId)
      (hq : Ready itemId q₀ q work) : Stage itemId p₀ q₀ work ⟨p, q, now, marks⟩
  | firstSettled {p : Prog Op Reply α} {q : Prog Op Reply β} {now : ScheduledWorkTable}
      {marks : Marks} {items : List ScheduledWorkItem} (hp : Saves items p)
      (hnone : ∀ item ∈ items, item.id ≠ itemId) (hq : Looks itemId q)
      (hserial : Serial itemId p₀ q₀ work ((q.exec perform now).2.lookup itemId)) :
      Stage itemId p₀ q₀ work ⟨p, q, now, marks⟩
  | secondSettled {p : Prog Op Reply α} {q : Prog Op Reply β} {now : ScheduledWorkTable}
      {marks : Marks} (hq : Saves [] q)
      (hserial : Serial itemId p₀ q₀ work ((p.exec perform now).2.lookup itemId)) :
      Stage itemId p₀ q₀ work ⟨p, q, now, marks⟩
  | firstStale {p : Prog Op Reply α} {q : Prog Op Reply β} {now : ScheduledWorkTable}
      {marks : Marks} {items : List ScheduledWorkItem} {new : ScheduledWorkItem}
      (hp : Saves items p) (hnew : new ∈ items) (hid : new.id = itemId)
      (hstale : marks.firstStale = true) : Stage itemId p₀ q₀ work ⟨p, q, now, marks⟩
  | secondStale {p : Prog Op Reply α} {q : Prog Op Reply β} {now : ScheduledWorkTable}
      {marks : Marks} {item : ScheduledWorkItem} (hq : Saves [item] q) (hid : item.id = itemId)
      (hstale : marks.secondStale = true) : Stage itemId p₀ q₀ work ⟨p, q, now, marks⟩

section
variable {p₀ : Prog Op Reply α} {q₀ : Prog Op Reply β} {now : ScheduledWorkTable}
  {body : ScheduledWorkTable → Prog Op Reply α}

theorem Ready.looks {q : Prog Op Reply β} (h : Ready itemId q₀ q work) : Looks itemId q := by
  cases h with
  | holding hid h _ => exact .save hid h
  | looking hlooks _ _ => exact hlooks

/-- What a client that is ready saves, as long as the view is the same. -/
theorem Ready.saved_eq {q : Prog Op Reply β} (h : Ready itemId q₀ q work) (hq₀ : Looks itemId q₀)
    (hview : now.lookup itemId = work.lookup itemId) :
    saved itemId q now = saved itemId q₀ work := by
  cases h with
  | holding hid h hsaved =>
    rw [saved_of_saves h, hsaved, List.find?_cons_of_pos (by simpa using hid)]
  | looking _ _ hsame => rw [hsame now (Or.inl hview), saved_congr hq₀ hview]

theorem ClaimsFrom.tame (hp : ClaimsFrom itemId p₀ body) : Tame p₀ := by
  rw [hp.program]
  refine .look fun work => ?_
  obtain ⟨items, hitems, hids, -⟩ := hp.saves work
  exact .saves hitems hids

/-- The first program before the second one. -/
theorem serial_first (hp : ClaimsFrom itemId p₀ body) (hq₀ : Looks itemId q₀)
    (hnow : now.lookup itemId = (saved itemId p₀ work).or (work.lookup itemId)) :
    Serial itemId p₀ q₀ work ((saved itemId q₀ now).or (now.lookup itemId)) := by
  refine Or.inl ?_
  rw [lookup_exec hq₀.tame, lookup_exec hp.tame, ← hnow]
  rw [saved_congr hq₀ (hnow.trans (lookup_exec hp.tame).symm)]

/-- The second program before the first one. -/
theorem serial_second (hq₀ : Looks itemId q₀)
    (hnow : now = (saved itemId q₀ work).elim work work.save) :
    Serial itemId p₀ q₀ work ((p₀.exec perform now).2.lookup itemId) := by
  refine Or.inr ?_
  rw [exec_of_looks hq₀, ← hnow]

/-- The first client reads the table. -/
theorem Stage.firstReads {next : ScheduledWorkTable → Prog Op Reply α} {q : Prog Op Reply β}
    {marks : Marks} (hp : ClaimsFrom itemId p₀ body) (hq₀ : Looks itemId q₀)
    (h : Stage itemId p₀ q₀ work ⟨.op .scheduledWork next, q, now, marks⟩) :
    Stage itemId p₀ q₀ work
      ⟨next now, q, now, watch itemId true .scheduledWork marks⟩ := by
  cases h with
  | start hq =>
    have hprogram := hp.program
    cases hprogram
    obtain ⟨items, hitems, hids, -⟩ := hp.saves work
    have hsaved : saved itemId (.op .scheduledWork body) work = items.find? (·.id == itemId) :=
      saved_of_saves (r := body work) hitems
    cases hnew : items.find? (·.id == itemId) with
    | none =>
      refine .firstSettled hitems (fun item hitem => ?_) hq.looks ?_
      · simpa using List.find?_eq_none.mp hnew item hitem
      · rw [lookup_exec hq.looks.tame, hq.saved_eq hq₀ rfl]
        refine serial_first hp hq₀ ?_
        rw [hsaved, hnew]
        rfl
    | some new => exact .both hitems hids hnew (hsaved.trans hnew) rfl hq
  | both hp => cases hp
  | firstSettled hp => cases hp
  | secondSettled hq hserial => exact .secondSettled hq hserial
  | firstStale hp => cases hp
  | secondStale hq hid hstale => exact .secondStale hq hid hstale

/-- The first client saves an item, not from a stale copy. -/
theorem Stage.firstSaves {item : ScheduledWorkItem} {next : Unit → Prog Op Reply α}
    {q : Prog Op Reply β} {marks : Marks} (hp : ClaimsFrom itemId p₀ body) (hq₀ : Looks itemId q₀)
    (hfresh : NotStale itemId true (.saveScheduledWork item) (now, marks))
    (h : Stage itemId p₀ q₀ work ⟨.op (.saveScheduledWork item) next, q, now, marks⟩) :
    Stage itemId p₀ q₀ work
      ⟨next (), q, now.save item, watch itemId true (.saveScheduledWork item) marks⟩ := by
  have hother : item.id ≠ itemId → watch itemId true (.saveScheduledWork item) marks = marks :=
    fun hid => if_neg hid
  have hview : item.id ≠ itemId → (now.save item).lookup itemId = now.lookup itemId :=
    fun hid => ScheduledWorkTable.lookup_save_of_ne hid.symm
  cases h with
  | start hq => cases hp.program
  | @both _ _ _ _ _ new hitems hids hnew hsaved hnow hq =>
    cases hitems with
    | @save _ items _ hitems =>
      rw [List.map_cons, List.nodup_cons] at hids
      by_cases hid : item.id = itemId
      · rw [List.find?_cons_of_pos (by simpa using hid)] at hnew
        cases hnew
        cases hq with
        | holding hheld hq _ => exact .secondStale hq hheld (by simp [watch, hid])
        | looking hlooks _ hsame =>
          obtain ⟨items₀, hitems₀, hids₀, hclaims⟩ := hp.saves work
          have hchanged : Undisturbed (work.lookup itemId) ((now.save item).lookup itemId) := by
            have hmem : item ∈ items₀ := by
              have hprogram := hp.program
              cases hprogram
              exact List.mem_of_find?_eq_some ((saved_of_saves hitems₀).symm.trans hsaved)
            obtain ⟨old, hold, hwork, hkeeps⟩ := hclaims item hmem hid
            refine Or.inr ⟨old, item, hold, ?_, hwork, hkeeps⟩
            rw [← hid, ScheduledWorkTable.lookup_save_self]
          refine .firstSettled hitems (fun other hmem hotherId => ?_) hlooks ?_
          · exact hids.1 (List.mem_map.mpr ⟨other, hmem, hotherId.trans hid.symm⟩)
          · rw [lookup_exec hlooks.tame, hsame _ hchanged]
            refine serial_first hp hq₀ ?_
            rw [hsaved, ← hid, ScheduledWorkTable.lookup_save_self]
            rfl
      · rw [List.find?_cons_of_neg (by simpa using hid)] at hnew
        rw [hother hid]
        exact .both hitems hids.2 hnew hsaved ((hview hid).trans hnow) hq
  | firstSettled hitems hnone hq hserial =>
    cases hitems with
    | save hitems =>
      have hid := hnone item List.mem_cons_self
      refine .firstSettled hitems (fun other hmem => hnone other (List.mem_cons_of_mem item hmem)) hq
        ?_
      rw [lookup_exec hq.tame] at hserial ⊢
      rw [hview hid, saved_congr hq (hview hid)]
      exact hserial
  | secondSettled hq hserial => exact .secondSettled hq hserial
  | firstStale hitems hnew hid hstale =>
    cases hitems with
    | save hitems =>
      rcases List.mem_cons.mp hnew with rfl | hnew
      · rw [show marks.firstStale = false from hfresh hid] at hstale
        cases hstale
      · refine .firstStale hitems hnew hid ?_
        by_cases hsame : item.id = itemId
        · rw [show marks.firstStale = false from hfresh hsame] at hstale
          cases hstale
        · rw [hother hsame]
          exact hstale
  | secondStale hq hid hstale =>
    refine .secondStale hq hid ?_
    by_cases hsame : item.id = itemId
    · simp [watch, hsame]
    · rw [hother hsame]
      exact hstale

/-- What a read leads a looking client to. -/
theorem Ready.afterRead {view : Option ScheduledWorkItem → Prog Op Reply β}
    (hview : now.lookup itemId = work.lookup itemId)
    (hstable : ∀ old new, SameWork old new → KeepsCancellation old new →
      Unsettled (view (some old)) → view (some new) = view (some old))
    (hnext : Looks itemId (view (now.lookup itemId)))
    (hsame : ∀ work', Undisturbed (work.lookup itemId) (work'.lookup itemId) →
      saved itemId (view (work'.lookup itemId)) work' = saved itemId q₀ work') :
    Ready itemId q₀ (view (now.lookup itemId)) work ∨
      Saves [] (view (now.lookup itemId)) ∧ saved itemId q₀ work = none := by
  have hwork := hsame work (Or.inl rfl)
  rw [← hview] at hwork
  have hunsettled : Unsettled (view (now.lookup itemId)) →
      Ready itemId q₀ (view (now.lookup itemId)) work := by
    intro hunsettled
    refine .looking hnext hunsettled fun work' hchanged => ?_
    rw [← hsame work' hchanged]
    rw [← hview] at hchanged
    rcases hchanged with heq | ⟨old, new, hold, hnew, hwork, hkeeps⟩
    · rw [heq]
    · rw [hold] at hunsettled ⊢
      rw [hnew, hstable old new hwork hkeeps hunsettled]
  generalize view (now.lookup itemId) = r at hnext hwork hunsettled ⊢
  cases hnext with
  | rest h =>
    rw [saved_of_saves h] at hwork
    exact Or.inr ⟨h, hwork.symm⟩
  | @save item _ hid h =>
    rw [saved_of_saves h, List.find?_cons_of_pos (by simpa using hid)] at hwork
    exact Or.inl (.holding hid h hwork.symm)
  | look hbody hstable' => exact Or.inl (hunsettled ⟨_, rfl⟩)

/-- The second client reads the table. -/
theorem Stage.secondReads {p : Prog Op Reply α} {next : ScheduledWorkTable → Prog Op Reply β}
    {marks : Marks} (hp : ClaimsFrom itemId p₀ body) (hq₀ : Looks itemId q₀)
    (h : Stage itemId p₀ q₀ work ⟨p, .op .scheduledWork next, now, marks⟩) :
    Stage itemId p₀ q₀ work
      ⟨p, next now, now, watch itemId false .scheduledWork marks⟩ := by
  cases h with
  | start hq =>
    cases hq with
    | holding _ h _ => cases h
    | looking hlooks _ hsame =>
      cases hlooks with
      | rest h => cases h
      | save _ h => cases h
      | @look view hbody hstable =>
        rcases Ready.afterRead rfl hstable (hbody _) hsame with hq | ⟨hq, hnone⟩
        · exact .start hq
        · exact .secondSettled hq (serial_second hq₀ (by rw [hnone]; rfl))
  | @both _ _ _ _ items new hitems hids hnew hsaved hnow hq =>
    cases hq with
    | holding _ h _ => cases h
    | looking hlooks _ hsame =>
      cases hlooks with
      | rest h => cases h
      | save _ h => cases h
      | @look view hbody hstable =>
        rcases Ready.afterRead hnow hstable (hbody _) hsame with hq | ⟨hq, hnone⟩
        · exact .both hitems hids hnew hsaved hnow hq
        · refine .secondSettled hq ?_
          have hserial : Serial itemId p₀ q₀ work ((p₀.exec perform work).2.lookup itemId) :=
            serial_second hq₀ (by rw [hnone]; rfl)
          rw [lookup_exec hp.tame, hsaved] at hserial
          rw [lookup_exec (.saves hitems hids), saved_of_saves hitems, hnew]
          exact hserial
  | firstSettled hp hnone hq hserial =>
    cases hq with
    | rest h => cases h
    | save _ h => cases h
    | look hbody hstable => exact .firstSettled hp hnone (hbody _) hserial
  | secondSettled hq _ => cases hq
  | firstStale hp hnew hid hstale => exact .firstStale hp hnew hid hstale
  | secondStale hq _ _ => cases hq

/-- The second client saves the item, not from a stale copy. -/
theorem Stage.secondSaves {p : Prog Op Reply α} {item : ScheduledWorkItem}
    {next : Unit → Prog Op Reply β} {marks : Marks} (hq₀ : Looks itemId q₀)
    (hfresh : NotStale itemId false (.saveScheduledWork item) (now, marks))
    (h : Stage itemId p₀ q₀ work ⟨p, .op (.saveScheduledWork item) next, now, marks⟩) :
    Stage itemId p₀ q₀ work
      ⟨p, next (), now.save item, watch itemId false (.saveScheduledWork item) marks⟩ := by
  cases h with
  | start hq =>
    cases hq with
    | holding _ h hsaved =>
      cases h with
      | save h => exact .secondSettled h (serial_second hq₀ (by rw [hsaved]; rfl))
    | looking _ hunsettled _ =>
      obtain ⟨_, h⟩ := hunsettled
      cases h
  | @both _ _ _ _ items new hitems hids hnew hsaved hnow hq =>
    cases hq with
    | holding hid h _ =>
      cases h with
      | save h =>
        refine .firstStale hitems (List.mem_of_find?_eq_some hnew)
          (by simpa using List.find?_some hnew) ?_
        simp [watch, hid]
    | looking _ hunsettled _ =>
      obtain ⟨_, h⟩ := hunsettled
      cases h
  | firstSettled hp hnone hq hserial =>
    cases hq with
    | rest h => cases h
    | save _ h =>
      cases h with
      | save h => exact .firstSettled hp hnone (.rest h) hserial
  | secondSettled hq _ => cases hq
  | firstStale hp hnew hid hstale =>
    refine .firstStale hp hnew hid ?_
    by_cases hsame : item.id = itemId
    · simp [watch, hsame]
    · simp [watch, hsame, hstale]
  | secondStale hq hid hstale =>
    cases hq with
    | save h =>
      rw [show marks.secondStale = false from hfresh hid] at hstale
      cases hstale

/-- When both are done the item is as after one of the orders. -/
theorem Stage.serial_of_finished {threads : Threads Op Reply (ScheduledWorkTable × Marks) α β}
    (hp : ClaimsFrom itemId p₀ body) (h : Stage itemId p₀ q₀ work threads)
    (hfinished : threads.finished = true) :
    Serial itemId p₀ q₀ work (threads.state.1.lookup itemId) := by
  obtain ⟨⟨a, hfirst⟩, b, hsecond⟩ := Threads.exists_of_finished hfinished
  cases h with
  | start _ =>
    rw [hp.program] at hfirst
    cases hfirst
  | both hitems _ hnew _ _ _ =>
    obtain rfl := hfirst
    cases hitems
    cases hnew
  | firstSettled _ _ _ hserial =>
    obtain rfl := hsecond
    exact hserial
  | secondSettled _ hserial =>
    obtain rfl := hfirst
    exact hserial
  | firstStale hitems hnew _ _ =>
    obtain rfl := hfirst
    cases hitems
    cases hnew
  | secondStale hq _ _ =>
    obtain rfl := hsecond
    cases hq

/-- **Interleavings without stale saves are serial** on the item. -/
theorem serial_of_notStale (hp : ClaimsFrom itemId p₀ body) (hq₀ : Looks itemId q₀)
    (hunsettled : Unsettled q₀) {marks : Marks} {turns : List Bool}
    (hfresh : Threads.EveryTurn (watched itemId) (NotStale itemId) turns ⟨p₀, q₀, work, marks⟩)
    (hfinished : ((⟨p₀, q₀, work, marks⟩ : Threads Op Reply _ α β).run (watched itemId)
      turns).finished = true) :
    Serial itemId p₀ q₀ work (((⟨p₀, q₀, work, marks⟩ : Threads Op Reply _ α β).run
      (watched itemId) turns).state.1.lookup itemId) := by
  refine Stage.serial_of_finished hp ?_ hfinished
  refine Threads.invariant (I := Stage itemId p₀ q₀ work) ?_ ?_ ?_ hfresh
  · rintro (_ | item) next q ⟨now, marks⟩ hnotStale h
    · exact h.firstReads hp hq₀
    · exact h.firstSaves hp hq₀ hnotStale
  · rintro p (_ | item) next ⟨now, marks⟩ hnotStale h
    · exact h.secondReads hp hq₀
    · exact h.secondSaves hq₀ hnotStale
  · exact .start (.looking hq₀ hunsettled fun _ _ => rfl)

end

/-! ## The programs of the calls -/

section
variable {host : SchedulerHost} {limits : SchedulerLimits} {sur : Surroundings}

theorem Saves.bind {items : List ScheduledWorkItem} {r : Prog Op Reply α} {k : α → Prog Op Reply β}
    (h : Saves items r) (hk : ∀ a, ∃ b, k a = .done b) : Saves items (r.bind k) := by
  induction h with
  | done a =>
    obtain ⟨b, hb⟩ := hk a
    unfold Prog.bind
    rw [hb]
    exact .done b
  | save _ ih => exact .save ih

theorem Unsettled.of_bind {r : Prog Op Reply α} {k : α → Prog Op Reply β}
    (h : Unsettled (r.bind k)) (hk : ∀ a, ∃ b, k a = .done b) : Unsettled r := by
  obtain ⟨next, h⟩ := h
  cases r with
  | done a =>
    obtain ⟨b, hb⟩ := hk a
    unfold Prog.bind at h
    rw [hb] at h
    cases h
  | op o next' =>
    cases o with
    | scheduledWork => exact ⟨next', rfl⟩
    | saveScheduledWork item => cases h

theorem Looks.bind {r : Prog Op Reply α} {k : α → Prog Op Reply β} (h : Looks itemId r)
    (hk : ∀ a, ∃ b, k a = .done b) : Looks itemId (r.bind k) := by
  induction h with
  | rest h => exact .rest (h.bind hk)
  | save hid h => exact .save hid (h.bind hk)
  | @look body hbody hstable ih =>
    refine @Looks.look _ _ (fun view => (body view).bind k) ih fun old new hwork hkeeps h => ?_
    show (body (some new)).bind k = (body (some old)).bind k
    rw [hstable old new hwork hkeeps (h.of_bind hk)]

/-- A call followed by something that is done at once. -/
theorem exists_bind_done {x : SchedulerAct α} {f : α → SchedulerAct β}
    (hf : ∀ a, ∃ b, f a () = .done b) :
    ∃ k, (x >>= f) () = (x ()).bind k ∧ ∀ r, ∃ b, k r = .done b := by
  refine ⟨_, rfl, fun r => ?_⟩
  obtain ⟨r, u⟩ := r
  cases r with
  | ok a => exact hf a
  | error e => exact ⟨_, rfl⟩

theorem Looks.followed {x : SchedulerAct α} {f : α → SchedulerAct β} (h : Looks itemId (x ()))
    (hf : ∀ a, ∃ b, f a () = .done b) : Looks itemId ((x >>= f) ()) := by
  obtain ⟨k, hbind, hk⟩ := exists_bind_done (x := x) hf
  rw [hbind]
  exact h.bind hk

theorem get_bind (f : ScheduledWorkItem → SchedulerAct β) : (Work.get itemId >>= f) () =
    .op .scheduledWork fun work => (work.lookup itemId).elim
      (.done (.error (notFound itemId), ())) fun item => f item () := by
  refine congrArg (Prog.op Op.scheduledWork) (funext fun work => ?_)
  show ((Prog.done ((work.lookup itemId).elim (Except.error (notFound itemId)) Except.ok, ())).bind
    _ : Prog Op Reply _) = _
  cases work.lookup itemId with
  | none => rfl
  | some item => rfl

theorem looks_get {f : ScheduledWorkItem → SchedulerAct β}
    (hf : ∀ item, item.id = itemId → Looks itemId (f item ()))
    (hstable : ∀ old new, old.id = itemId → SameWork old new → KeepsCancellation old new →
      Unsettled (f old ()) → f new () = f old ()) :
    Looks itemId ((Work.get itemId >>= f) ()) := by
  -- an item found under an identifier has it, so only such items matter
  let body : Option ScheduledWorkItem → Prog Op Reply (Except PyError β × Unit) := fun view =>
    view.elim (.done (.error (notFound itemId), ())) fun item =>
      if item.id = itemId then f item () else .done (.error (notFound itemId), ())
  have hprogram : (Work.get itemId >>= f) () = .op .scheduledWork fun work =>
      body (work.lookup itemId) := by
    rw [get_bind]
    refine congrArg (Prog.op Op.scheduledWork) (funext fun work => ?_)
    cases hlookup : work.lookup itemId with
    | none => rfl
    | some item => exact (if_pos (ScheduledWorkTable.id_of_lookup hlookup)).symm
  rw [hprogram]
  refine .look (fun view => ?_) fun old new hwork hkeeps h => ?_
  · cases view with
    | none => exact .rest (.done _)
    | some item =>
      by_cases hid : item.id = itemId
      · simpa only [body, Option.elim_some, if_pos hid] using hf item hid
      · simpa only [body, Option.elim_some, if_neg hid] using Looks.rest (.done _)
  · by_cases hid : old.id = itemId
    · have hnew : new.id = itemId := hwork.id.trans hid
      simp only [body, Option.elim_some, if_pos hid, if_pos hnew] at h ⊢
      exact hstable old new hid hwork hkeeps h
    · simp only [body, Option.elim_some, if_neg hid] at h
      obtain ⟨_, h⟩ := h
      cases h

/-- A program that reads no more and saves at most the item. -/
def SettledOn (itemId : String) (r : Prog Op Reply α) : Prop :=
  Saves [] r ∨ ∃ item, item.id = itemId ∧ Saves [item] r

theorem SettledOn.looks {r : Prog Op Reply α} (h : SettledOn itemId r) : Looks itemId r := by
  rcases h with h | ⟨item, hid, h⟩
  · exact .rest h
  · exact .save hid h

theorem SettledOn.not_unsettled {r : Prog Op Reply α} (h : SettledOn itemId r) : ¬Unsettled r := by
  rintro ⟨next, rfl⟩
  rcases h with h | ⟨item, -, h⟩
  · cases h
  · cases h

theorem looks_get_settled {f : ScheduledWorkItem → SchedulerAct β}
    (hf : ∀ item, item.id = itemId → SettledOn itemId (f item ())) :
    Looks itemId ((Work.get itemId >>= f) ()) :=
  looks_get (fun item hid => (hf item hid).looks) fun old _ hid _ _ h =>
    ((hf old hid).not_unsettled h).elim

theorem settledOn_computed {r : Except PyError α} {f : α → SchedulerAct β}
    (hok : ∀ a, r = .ok a → SettledOn itemId (f a ())) :
    SettledOn itemId ((Act.ofExcept r >>= f) ()) := by
  cases r with
  | ok a => exact hok a rfl
  | error e => exact Or.inl (.done _)

theorem settledOn_save {item : ScheduledWorkItem} (hid : item.id = itemId) (a : α) :
    SettledOn itemId ((saveScheduledWork item >>= fun _ => pure a : SchedulerAct α) ()) :=
  Or.inr ⟨item, hid, .save (.done _)⟩

theorem settledOn_check {c : Prop} [Decidable c] {e : PyError} {f : Unit → SchedulerAct β}
    (h : SettledOn itemId (f () ())) : SettledOn itemId ((Act.require c e >>= f) ()) := by
  unfold Act.require
  split
  · exact h
  · exact Or.inl (.done _)

theorem settledOn_cancelCurrent {item : ScheduledWorkItem} {actor reason : String}
    (hid : item.id = itemId) :
    SettledOn itemId (cancelCurrent host sur item actor reason ()) := by
  unfold cancelCurrent
  exact settledOn_computed fun new hnew => settledOn_save ((cancel_ok hnew).1.id.trans hid) new

theorem looks_cancel {actor reason : String} :
    Looks itemId (Work.cancel host sur itemId actor reason ()) :=
  looks_get_settled fun _ hid => settledOn_cancelCurrent hid

theorem looks_requestCancellation {actor reason : String} :
    Looks itemId (Work.requestCancellation host sur itemId actor reason ()) := by
  refine looks_get_settled fun item hid => ?_
  split
  · exact Or.inl (.done _)
  · refine settledOn_check ?_
    by_cases hidle : (item.withCancellation actor reason).status.idle = true
    · rw [if_pos hidle]
      exact settledOn_cancelCurrent hid
    · rw [if_neg hidle]
      refine settledOn_save ?_ _
      exact hid

theorem looks_attachEvidence {evidence : List String} :
    Looks itemId (Work.attachEvidence sur itemId evidence ()) := by
  refine looks_get_settled fun item hid => settledOn_save ?_ _
  exact hid

theorem looks_checkpoint {stage detail : String} {workerCalls wallTime : Int}
    {evidence : List String} :
    Looks itemId
      (Work.checkpoint host sur itemId stage detail workerCalls wallTime evidence ()) := by
  refine looks_get (fun item hid => ?_) fun old new hid hwork hkeeps h => ?_
  · split
    · rw [hid]
      exact looks_cancel.followed fun _ => ⟨_, rfl⟩
    · refine (settledOn_check (settledOn_save ?_ _)).looks
      exact hid
  · rw [hkeeps.flag, hkeeps.actor, hkeeps.reason, hwork.id]
    by_cases hpending : old.cancellationRequested = true
    · simp only [if_pos hpending]
    · rw [if_neg hpending] at h
      exact absurd h (SettledOn.not_unsettled (settledOn_check (settledOn_save rfl _)))

theorem saves_carryOut (decision : Decision) (f : Option ScheduledWorkItem → α) :
    Saves decision.saves ((carryOut decision >>= fun item => pure (f item) : SchedulerAct α) ()) := by
  unfold carryOut
  induction decision.saves with
  | nil =>
    cases decision.result with
    | ok item => exact .done _
    | error e => exact .done _
  | cons item items ih => exact .save ih

theorem ClaimSaves.claimsFrom {p : Prog Op Reply α} {body : ScheduledWorkTable → Prog Op Reply α}
    {call : Call} (hprogram : p = .op .scheduledWork body)
    (h : ∀ work, ∃ cs kept started, Saves (kept ++ started) (body work) ∧
      ClaimSaves limits sur work call cs kept started) : ClaimsFrom itemId p body := by
  refine ⟨hprogram, fun work => ?_⟩
  obtain ⟨cs, kept, started, hsaves, hclaim⟩ := h work
  refine ⟨kept ++ started, hsaves, hclaim.unique.sublist hclaim.decided.ids, ?_⟩
  intro new hnew hid
  obtain ⟨old, hold, -, hwork, hkeeps⟩ := hclaim.keepsCancellation hnew
  exact ⟨old, ScheduledWorkTable.lookup_eq_some.mpr ⟨hold, hwork.id.symm.trans hid⟩, hwork, hkeeps⟩

/-- A claim goes on from the table it reads. -/
theorem exists_claimSaves (host : SchedulerHost) (limits : SchedulerLimits) (sur : Surroundings)
    {call : Call} (hcall : call.claims = true) :
    ∃ body, call.program host limits sur () = .op .scheduledWork body ∧
      ∀ work, ∃ cs kept started, Saves (kept ++ started) (body work) ∧
        ClaimSaves limits sur work call cs kept started := by
  cases call with
  | claimNext =>
    refine ⟨_, rfl, fun work => ?_⟩
    obtain ⟨cs, kept, started, hsaves, h⟩ := claimSaves_claimNext host limits sur work
    exact ⟨cs, kept, started, hsaves ▸ saves_carryOut _ Option.toList, h⟩
  | tryClaim claimed =>
    refine ⟨_, rfl, fun work => ?_⟩
    obtain ⟨cs, kept, started, hsaves, h⟩ := claimSaves_tryClaim host limits sur work claimed
    exact ⟨cs, kept, started, hsaves ▸ saves_carryOut _ Option.toList, h⟩
  | _ => cases hcall

/-- A claim reads once and then saves. -/
theorem exists_claimsFrom (host : SchedulerHost) (limits : SchedulerLimits) (sur : Surroundings)
    (itemId : String) {call : Call} (hcall : call.claims = true) :
    ∃ body, ClaimsFrom itemId (call.program host limits sur ()) body := by
  obtain ⟨body, hprogram, h⟩ := exists_claimSaves host limits sur hcall
  exact ⟨body, ClaimSaves.claimsFrom hprogram h⟩

/-- The calls on one item that an interleaving is about. -/
def Call.edits (itemId : String) : Call → Prop
  | .requestCancellation edited _ _ => edited = itemId
  | .cancel edited _ _ => edited = itemId
  | .checkpoint edited _ _ _ _ _ => edited = itemId
  | .attachEvidence edited _ => edited = itemId
  | _ => False

theorem Unsettled.bind {r : Prog Op Reply α} (h : Unsettled r) (k : α → Prog Op Reply β) :
    Unsettled (r.bind k) := by
  obtain ⟨next, rfl⟩ := h
  exact ⟨fun work => (next work).bind k, rfl⟩

theorem unsettled_get (f : ScheduledWorkItem → SchedulerAct β) :
    Unsettled ((Work.get itemId >>= f) ()) := ⟨_, get_bind f⟩

/-- Each of them sees and saves the one item only. -/
theorem looks_of_edits (host : SchedulerHost) (limits : SchedulerLimits) (sur : Surroundings)
    {call : Call} (hcall : Call.edits itemId call) :
    Looks itemId (call.program host limits sur ()) ∧
      Unsettled (call.program host limits sur ()) := by
  cases call with
  | requestCancellation edited actor reason =>
    obtain rfl : edited = itemId := hcall
    exact ⟨looks_requestCancellation.followed (fun _ => ⟨_, rfl⟩), (unsettled_get _).bind _⟩
  | cancel edited actor reason =>
    obtain rfl : edited = itemId := hcall
    exact ⟨looks_cancel.followed (fun _ => ⟨_, rfl⟩), (unsettled_get _).bind _⟩
  | checkpoint edited stage detail workerCalls wallTime evidence =>
    obtain rfl : edited = itemId := hcall
    exact ⟨looks_checkpoint.followed (fun _ => ⟨_, rfl⟩), (unsettled_get _).bind _⟩
  | attachEvidence edited evidence =>
    obtain rfl : edited = itemId := hcall
    exact ⟨looks_attachEvidence.followed (fun _ => ⟨_, rfl⟩), (unsettled_get _).bind _⟩
  | _ => exact hcall.elim

end

/-! ## Cancellations that have been saved -/

/-- An item that its cancellation has stopped, or will stop at its next checkpoint. -/
structure Halted (item : ScheduledWorkItem) : Prop where
  flag : item.cancellationRequested = true
  status : item.status = .cancelled ∨ item.status = .cancellationRequested

/-- A program that saves only halted versions of the item. -/
inductive Halts (itemId : String) : Prog Op Reply α → Prop
  | saves {items : List ScheduledWorkItem} {r : Prog Op Reply α} (h : Saves items r)
      (hhalted : ∀ item ∈ items, item.id = itemId → Halted item) : Halts itemId r
  | look {next : ScheduledWorkTable → Prog Op Reply α} (h : ∀ work, Halts itemId (next work)) :
      Halts itemId (.op .scheduledWork next)

/-- A program that reads again, or saves only halted versions of the item. -/
def Harmless (itemId : String) (r : Prog Op Reply α) : Prop :=
  Unsettled r ∨ ∃ items, Saves items r ∧ ∀ item ∈ items, item.id = itemId → Halted item

/-- A program that keeps the item halted once it has read that it is. -/
inductive Heeds (itemId : String) : Prog Op Reply α → Prop
  | saves {items : List ScheduledWorkItem} {r : Prog Op Reply α} (h : Saves items r) :
      Heeds itemId r
  | look {next : ScheduledWorkTable → Prog Op Reply α} (h : ∀ work, Heeds itemId (next work))
      (hhalted : ∀ work item, work.lookup itemId = some item → Halted item →
        Harmless itemId (next work)) : Heeds itemId (.op .scheduledWork next)

/-- Before and after the second client has saved the halted item. -/
inductive HaltStage (itemId : String) :
    Threads Op Reply (ScheduledWorkTable × Marks) α β → Prop
  | before {p : Prog Op Reply α} {q : Prog Op Reply β} {now : ScheduledWorkTable} {marks : Marks}
      (hp : Heeds itemId p) (hq : Looks itemId q) (hhalts : Halts itemId q)
      (hsaved : marks.secondSaved = false) : HaltStage itemId ⟨p, q, now, marks⟩
  | after {p : Prog Op Reply α} {q : Prog Op Reply β} {now : ScheduledWorkTable} {marks : Marks}
      {item : ScheduledWorkItem} (hp : Heeds itemId p) (hq : Saves [] q)
      (hitem : now.lookup itemId = some item) (hhalted : Halted item)
      (hsafe : Harmless itemId p ∨ marks.firstStale = true) : HaltStage itemId ⟨p, q, now, marks⟩

section
variable {now : ScheduledWorkTable} {marks : Marks}

theorem HaltStage.firstReads {next : ScheduledWorkTable → Prog Op Reply α} {q : Prog Op Reply β}
    (h : HaltStage itemId ⟨.op .scheduledWork next, q, now, marks⟩) :
    HaltStage itemId ⟨next now, q, now, watch itemId true .scheduledWork marks⟩ := by
  cases h with
  | before hp hq hhalts hsaved =>
    cases hp with
    | saves h => cases h
    | look hp _ => exact .before (hp now) hq hhalts hsaved
  | after hp hq hitem hhalted _ =>
    cases hp with
    | saves h => cases h
    | look hp hsafe => exact .after (hp now) hq hitem hhalted (Or.inl (hsafe now _ hitem hhalted))

theorem HaltStage.firstSaves {item : ScheduledWorkItem} {next : Unit → Prog Op Reply α}
    {q : Prog Op Reply β}
    (hfresh : NotStale itemId true (.saveScheduledWork item) (now, marks))
    (h : HaltStage itemId ⟨.op (.saveScheduledWork item) next, q, now, marks⟩) :
    HaltStage itemId
      ⟨next (), q, now.save item, watch itemId true (.saveScheduledWork item) marks⟩ := by
  have hmarks : (watch itemId true (.saveScheduledWork item) marks).secondSaved = marks.secondSaved ∧
      (watch itemId true (.saveScheduledWork item) marks).firstStale = marks.firstStale := by
    by_cases hid : item.id = itemId
    · simp [watch, hid]
    · simp [watch, hid]
  cases h with
  | before hp hq hhalts hsaved =>
    cases hp with
    | saves h =>
      cases h with
      | save h => exact .before (.saves h) hq hhalts (hmarks.1.trans hsaved)
  | @after _ _ _ _ found hp hq hitem hhalted hsafe =>
    cases hp with
    | saves h =>
      cases h with
      | @save _ items _ h =>
        by_cases hid : item.id = itemId
        · rcases hsafe with (⟨_, h'⟩ | ⟨items', h', hall⟩) | hstale
          · cases h'
          · cases h' with
            | @save _ items' _ h' =>
              have hlookup : (now.save item).lookup itemId = some item := by
                rw [← hid, ScheduledWorkTable.lookup_save_self]
              exact .after (.saves h) hq hlookup (hall item List.mem_cons_self hid)
                (Or.inl (Or.inr ⟨items', h', fun other hmem =>
                  hall other (List.mem_cons_of_mem item hmem)⟩))
          · rw [show marks.firstStale = false from hfresh hid] at hstale
            cases hstale
        · have hlookup : (now.save item).lookup itemId = some found := by
            rw [ScheduledWorkTable.lookup_save_of_ne (Ne.symm hid)]
            exact hitem
          refine .after (.saves h) hq hlookup hhalted ?_
          · rcases hsafe with (⟨_, h'⟩ | ⟨items', h', hall⟩) | hstale
            · cases h'
            · cases h' with
              | @save _ items' _ h' =>
                exact Or.inl (Or.inr ⟨items', h', fun other hmem =>
                  hall other (List.mem_cons_of_mem item hmem)⟩)
            · exact Or.inr (hmarks.2.trans hstale)

theorem HaltStage.secondReads {p : Prog Op Reply α} {next : ScheduledWorkTable → Prog Op Reply β}
    (h : HaltStage itemId ⟨p, .op .scheduledWork next, now, marks⟩) :
    HaltStage itemId ⟨p, next now, now, watch itemId false .scheduledWork marks⟩ := by
  cases h with
  | before hp hq hhalts hsaved =>
    cases hq with
    | rest h => cases h
    | save _ h => cases h
    | look hq _ =>
      cases hhalts with
      | saves h => cases h
      | look hhalts => exact .before hp (hq _) (hhalts now) hsaved
  | after _ hq _ _ _ => cases hq

theorem HaltStage.secondSaves {p : Prog Op Reply α} {item : ScheduledWorkItem}
    {next : Unit → Prog Op Reply β}
    (h : HaltStage itemId ⟨p, .op (.saveScheduledWork item) next, now, marks⟩) :
    HaltStage itemId
      ⟨p, next (), now.save item, watch itemId false (.saveScheduledWork item) marks⟩ := by
  cases h with
  | before hp hq hhalts _ =>
    cases hq with
    | rest h => cases h
    | save hid h =>
      cases h with
      | save h =>
        cases hhalts with
        | saves h' hall =>
          cases h' with
          | save h' =>
            have hlookup : (now.save item).lookup itemId = some item := by
              rw [← hid, ScheduledWorkTable.lookup_save_self]
            refine .after hp h hlookup (hall item List.mem_cons_self hid) (Or.inr ?_)
            simp [watch, hid]
  | after _ hq _ _ _ => cases hq

/-- **A saved cancellation is not overwritten** by a client that does not save
stale copies. -/
theorem halted_of_notStale {p₀ : Prog Op Reply α} {q₀ : Prog Op Reply β} (hp₀ : Heeds itemId p₀)
    (hq₀ : Looks itemId q₀) (hhalts : Halts itemId q₀) {turns : List Bool}
    (hfresh : Threads.EveryTurn (watched itemId) (NotStale itemId) turns ⟨p₀, q₀, work, noMarks⟩)
    (hsaved : ((⟨p₀, q₀, work, noMarks⟩ : Threads Op Reply _ α β).run (watched itemId)
      turns).state.2.secondSaved = true) :
    ∃ item, ((⟨p₀, q₀, work, noMarks⟩ : Threads Op Reply _ α β).run (watched itemId)
      turns).state.1.lookup itemId = some item ∧ Halted item := by
  have hstage : HaltStage itemId ((⟨p₀, q₀, work, noMarks⟩ : Threads Op Reply _ α β).run
      (watched itemId) turns) := by
    refine Threads.invariant (I := HaltStage itemId) ?_ ?_ ?_ hfresh
    · rintro (_ | item) next q ⟨now, marks⟩ hnotStale h
      · exact h.firstReads
      · exact h.firstSaves hnotStale
    · rintro p (_ | item) next ⟨now, marks⟩ hnotStale h
      · exact h.secondReads
      · exact h.secondSaves
    · exact .before hp₀ hq₀ hhalts rfl
  generalize (⟨p₀, q₀, work, noMarks⟩ : Threads Op Reply _ α β).run (watched itemId) turns = threads
    at hstage hsaved ⊢
  cases hstage with
  | before _ _ _ h =>
    rw [h] at hsaved
    cases hsaved
  | after _ _ hitem hhalted _ => exact ⟨_, hitem, hhalted⟩

end

/-! ### The programs of the calls -/

section
variable {host : SchedulerHost} {limits : SchedulerLimits} {sur : Surroundings}

theorem Halts.bind {r : Prog Op Reply α} {k : α → Prog Op Reply β} (h : Halts itemId r)
    (hk : ∀ a, ∃ b, k a = .done b) : Halts itemId (r.bind k) := by
  induction h with
  | saves h hall => exact .saves (h.bind hk) hall
  | look _ ih => exact .look ih

theorem Harmless.bind {r : Prog Op Reply α} {k : α → Prog Op Reply β} (h : Harmless itemId r)
    (hk : ∀ a, ∃ b, k a = .done b) : Harmless itemId (r.bind k) := by
  rcases h with h | ⟨items, h, hall⟩
  · exact Or.inl (h.bind k)
  · exact Or.inr ⟨items, h.bind hk, hall⟩

theorem Heeds.bind {r : Prog Op Reply α} {k : α → Prog Op Reply β} (h : Heeds itemId r)
    (hk : ∀ a, ∃ b, k a = .done b) : Heeds itemId (r.bind k) := by
  induction h with
  | saves h => exact .saves (h.bind hk)
  | look _ hhalted ih =>
    exact .look ih fun work item hitem h => (hhalted work item hitem h).bind hk

theorem Halts.followed {x : SchedulerAct α} {f : α → SchedulerAct β} (h : Halts itemId (x ()))
    (hf : ∀ a, ∃ b, f a () = .done b) : Halts itemId ((x >>= f) ()) := by
  obtain ⟨k, hbind, hk⟩ := exists_bind_done (x := x) hf
  rw [hbind]
  exact h.bind hk

theorem Heeds.followed {x : SchedulerAct α} {f : α → SchedulerAct β} (h : Heeds itemId (x ()))
    (hf : ∀ a, ∃ b, f a () = .done b) : Heeds itemId ((x >>= f) ()) := by
  obtain ⟨k, hbind, hk⟩ := exists_bind_done (x := x) hf
  rw [hbind]
  exact h.bind hk

theorem Halts.harmless {r : Prog Op Reply α} (h : Halts itemId r) : Harmless itemId r := by
  cases h with
  | saves h hall => exact Or.inr ⟨_, h, hall⟩
  | look _ => exact Or.inl ⟨_, rfl⟩

theorem Halts.heeds {r : Prog Op Reply α} (h : Halts itemId r) : Heeds itemId r := by
  induction h with
  | saves h _ => exact .saves h
  | look h ih => exact .look ih fun work _ _ _ => (h work).harmless

theorem halts_get {f : ScheduledWorkItem → SchedulerAct β}
    (hf : ∀ item, Halts itemId (f item ())) : Halts itemId ((Work.get itemId >>= f) ()) := by
  rw [get_bind]
  refine .look fun work => ?_
  cases work.lookup itemId with
  | none => exact .saves (.done _) (by simp)
  | some item => exact hf item

theorem heeds_get {f : ScheduledWorkItem → SchedulerAct β}
    (hf : ∀ item, item.id = itemId → Heeds itemId (f item ()))
    (hhalted : ∀ item, item.id = itemId → Halted item → Harmless itemId (f item ())) :
    Heeds itemId ((Work.get itemId >>= f) ()) := by
  rw [get_bind]
  refine .look (fun work => ?_) fun work item hitem h => ?_
  · cases hfound : work.lookup itemId with
    | none => exact .saves (.done _)
    | some item => exact hf item (ScheduledWorkTable.id_of_lookup hfound)
  · rw [hitem]
    exact hhalted item (ScheduledWorkTable.id_of_lookup hitem) h

theorem halts_cancelCurrent {item : ScheduledWorkItem} {actor reason : String} :
    Halts itemId (cancelCurrent host sur item actor reason ()) := by
  unfold cancelCurrent
  cases hcancel : item.cancel host sur actor reason with
  | error e => exact .saves (.done _) (by simp)
  | ok new =>
    obtain ⟨-, -, hstatus, hflag⟩ := cancel_ok hcancel
    refine .saves (.save (.done _)) fun saved hsaved _ => ?_
    rw [List.mem_singleton.mp hsaved]
    exact ⟨hflag, Or.inl hstatus⟩

theorem halts_cancel {actor reason : String} :
    Halts itemId (Work.cancel host sur itemId actor reason ()) :=
  halts_get fun _ => halts_cancelCurrent

theorem halts_requestCancellation {actor reason : String} :
    Halts itemId (Work.requestCancellation host sur itemId actor reason ()) := by
  refine halts_get fun item => ?_
  split
  · exact .saves (.done _) (by simp)
  · unfold Act.require
    split
    · by_cases hidle : (item.withCancellation actor reason).status.idle = true
      · simp only [if_pos hidle]
        exact halts_cancelCurrent
      · simp only [if_neg hidle]
        refine .saves (.save (.done _)) fun saved hsaved _ => ?_
        rw [List.mem_singleton.mp hsaved]
        exact ⟨rfl, Or.inr rfl⟩
    · exact .saves (.done _) (by simp)

theorem heeds_attachEvidence {evidence : List String} :
    Heeds itemId (Work.attachEvidence sur itemId evidence ()) := by
  refine heeds_get (fun item _ => .saves (.save (.done _))) fun item _ hhalted => ?_
  refine Or.inr ⟨_, .save (.done _), fun saved hsaved _ => ?_⟩
  rw [List.mem_singleton.mp hsaved]
  exact ⟨hhalted.flag, hhalted.status⟩

theorem heeds_checkpoint {stage detail : String} {workerCalls wallTime : Int}
    {evidence : List String} :
    Heeds itemId
      (Work.checkpoint host sur itemId stage detail workerCalls wallTime evidence ()) := by
  refine heeds_get (fun item hid => ?_) fun item hid hhalted => ?_
  · split
    · rw [hid]
      exact (halts_cancel.followed fun _ => ⟨_, rfl⟩).heeds
    · unfold Act.require
      split
      · exact .saves (.save (.done _))
      · exact .saves (.done _)
  · rw [if_pos hhalted.flag, hid]
    exact (halts_cancel.followed fun _ => ⟨_, rfl⟩).harmless

theorem ClaimSaves.heeds {p : Prog Op Reply α} {body : ScheduledWorkTable → Prog Op Reply α}
    {call : Call} (hprogram : p = .op .scheduledWork body)
    (h : ∀ work, ∃ cs kept started, Saves (kept ++ started) (body work) ∧
      ClaimSaves limits sur work call cs kept started) : Heeds itemId p := by
  rw [hprogram]
  refine .look (fun work => ?_) fun work item hitem hhalted => ?_
  · obtain ⟨cs, kept, started, hsaves, -⟩ := h work
    exact .saves hsaves
  · -- a halted item does not wait, so a claim does not save it
    obtain ⟨cs, kept, started, hsaves, hclaim⟩ := h work
    refine Or.inr ⟨_, hsaves, fun new hnew hid => ?_⟩
    obtain ⟨old, hold, hwaiting, hwork, -⟩ := hclaim.keepsCancellation hnew
    have hlookup := ScheduledWorkTable.lookup_of_mem hold
    rw [← hwork.id, hid, hitem] at hlookup
    obtain rfl := Option.some.inj hlookup
    rcases hhalted.status with hstatus | hstatus
    · rw [hstatus] at hwaiting
      cases hwaiting
    · rw [hstatus] at hwaiting
      cases hwaiting

theorem heeds_of_claims {call : Call} (hcall : call.claims = true) :
    Heeds itemId (call.program host limits sur ()) := by
  obtain ⟨body, hprogram, h⟩ := exists_claimSaves host limits sur hcall
  exact ClaimSaves.heeds hprogram h

/-- A call that cancels the item or asks for it. -/
def Call.stops (itemId : String) : Call → Prop
  | .requestCancellation edited _ _ => edited = itemId
  | .cancel edited _ _ => edited = itemId
  | _ => False

theorem Call.edits_of_stops {call : Call} (h : Call.stops itemId call) :
    Call.edits itemId call := by
  cases call <;> first | exact h | exact h.elim

theorem halts_of_stops {call : Call} (hcall : Call.stops itemId call) :
    Halts itemId (call.program host limits sur ()) := by
  cases call with
  | requestCancellation edited actor reason =>
    obtain rfl : edited = itemId := hcall
    exact halts_requestCancellation.followed fun _ => ⟨_, rfl⟩
  | cancel edited actor reason =>
    obtain rfl : edited = itemId := hcall
    exact halts_cancel.followed fun _ => ⟨_, rfl⟩
  | _ => exact hcall.elim

theorem heeds_of_edits {call : Call} (hcall : Call.edits itemId call) :
    Heeds itemId (call.program host limits sur ()) := by
  cases call with
  | requestCancellation edited actor reason =>
    exact (halts_of_stops (show Call.stops itemId (.requestCancellation edited actor reason) from
      hcall)).heeds
  | cancel edited actor reason =>
    exact (halts_of_stops (show Call.stops itemId (.cancel edited actor reason) from hcall)).heeds
  | checkpoint edited stage detail workerCalls wallTime evidence =>
    obtain rfl : edited = itemId := hcall
    exact heeds_checkpoint.followed fun _ => ⟨_, rfl⟩
  | attachEvidence edited evidence =>
    obtain rfl : edited = itemId := hcall
    exact heeds_attachEvidence.followed fun _ => ⟨_, rfl⟩
  | _ => exact hcall.elim

end

/-! ## Two calls at once -/

/-- Two calls on a table, each in its own surroundings, after some of their
reads and saves. -/
def together (host : SchedulerHost) (limits : SchedulerLimits) (sur sur' : Surroundings)
    (itemId : String) (first second : Call) (work : ScheduledWorkTable) (turns : List Bool) :
    Threads Op Reply (ScheduledWorkTable × Marks) (Except PyError (List ScheduledWorkItem) × Unit)
      (Except PyError (List ScheduledWorkItem) × Unit) :=
  Threads.run (watched itemId) turns
    ⟨first.program host limits sur (), second.program host limits sur' (), work, noMarks⟩

/-- No save of the item in an interleaving is made from a stale copy. -/
def NoStaleSaves (host : SchedulerHost) (limits : SchedulerLimits) (sur sur' : Surroundings)
    (itemId : String) (first second : Call) (work : ScheduledWorkTable) (turns : List Bool) : Prop :=
  Threads.EveryTurn (watched itemId) (NotStale itemId) turns
    ⟨first.program host limits sur (), second.program host limits sur' (), work, noMarks⟩

/-- **Nothing is lost between two calls on one item without stale saves.** When a
claim and a request for cancellation, a cancellation, a checkpoint or an evidence
update of the item are done, the item is as if they had been made one after the
other, in one of the two orders. And a cancellation or a request for it, once it
has saved the item, is not overwritten by a claim, a checkpoint or an evidence
update. -/
theorem calls_serialize (host : SchedulerHost) (limits : SchedulerLimits) (sur sur' : Surroundings)
    (itemId : String) (first second : Call) (work : ScheduledWorkTable) (turns : List Bool)
    (hsecond : Call.edits itemId second)
    (hfresh : NoStaleSaves host limits sur sur' itemId first second work turns) :
    (first.claims = true →
      (together host limits sur sur' itemId first second work turns).finished = true →
      (together host limits sur sur' itemId first second work turns).state.1.lookup itemId =
          (second.after host limits sur' (first.after host limits sur work)).lookup itemId ∨
        (together host limits sur sur' itemId first second work turns).state.1.lookup itemId =
          (first.after host limits sur (second.after host limits sur' work)).lookup itemId) ∧
    (first.claims = true ∨ Call.edits itemId first → Call.stops itemId second →
      (together host limits sur sur' itemId first second work turns).state.2.secondSaved = true →
      ∃ item, (together host limits sur sur' itemId first second work turns).state.1.lookup itemId =
        some item ∧ Halted item) := by
  obtain ⟨hlooks, hunsettled⟩ := looks_of_edits host limits sur' hsecond
  constructor
  · intro hfirst hfinished
    obtain ⟨body, hclaims⟩ := exists_claimsFrom host limits sur itemId hfirst
    exact serial_of_notStale hclaims hlooks hunsettled hfresh hfinished
  · intro hfirst hstops hsaved
    have hheeds : Heeds itemId (first.program host limits sur ()) := by
      rcases hfirst with hfirst | hfirst
      · exact heeds_of_claims hfirst
      · exact heeds_of_edits hfirst
    exact halted_of_notStale hheeds hlooks (halts_of_stops hstops) hfresh hsaved

/-- A cancellation after the claim has saved the item. -/
theorem calls_serialize_one_by_one :
    ((together plainHost {} plainSurroundings plainSurroundings "w" (.tryClaim "w")
          (.cancel "w" "operator" "stop") plainWork [true, true, false, false]).state.1.lookup "w" =
        ((Call.cancel "w" "operator" "stop").after plainHost {} plainSurroundings
          ((Call.tryClaim "w").after plainHost {} plainSurroundings plainWork)).lookup "w" ∨
      (together plainHost {} plainSurroundings plainSurroundings "w" (.tryClaim "w")
          (.cancel "w" "operator" "stop") plainWork [true, true, false, false]).state.1.lookup "w" =
        ((Call.tryClaim "w").after plainHost {} plainSurroundings
          ((Call.cancel "w" "operator" "stop").after plainHost {} plainSurroundings
            plainWork)).lookup "w") ∧
    ∃ item, (together plainHost {} plainSurroundings plainSurroundings "w" (.tryClaim "w")
        (.cancel "w" "operator" "stop") plainWork [true, true, false, false]).state.1.lookup "w" =
      some item ∧ Halted item := by
  have h := calls_serialize plainHost {} plainSurroundings plainSurroundings "w" (.tryClaim "w")
    (.cancel "w" "operator" "stop") plainWork [true, true, false, false] rfl
    (by unfold NoStaleSaves; decide +kernel)
  exact ⟨h.1 rfl (by decide +kernel), h.2 (Or.inl rfl) rfl (by decide +kernel)⟩

/-- A cancellation between the read and the save of a claim: the claim wipes it out. -/
theorem cancellation_overwritten :
    (together plainHost {} plainSurroundings plainSurroundings "w" (.tryClaim "w")
        (.cancel "w" "operator" "stop") plainWork [true, false, false, true]).finished = true ∧
      statusOf (together plainHost {} plainSurroundings plainSurroundings "w" (.tryClaim "w")
        (.cancel "w" "operator" "stop") plainWork [true, false, false, true]).state.1 "w" =
          some .running ∧
      statusOf ((Call.cancel "w" "operator" "stop").after plainHost {} plainSurroundings
        ((Call.tryClaim "w").after plainHost {} plainSurroundings plainWork)) "w" =
          some .cancelled ∧
      statusOf ((Call.tryClaim "w").after plainHost {} plainSurroundings
        ((Call.cancel "w" "operator" "stop").after plainHost {} plainSurroundings plainWork)) "w" =
          some .cancelled := by
  refine ⟨?_, ?_, ?_, ?_⟩
  · decide +kernel
  · decide +kernel
  · decide +kernel
  · decide +kernel

end RlmGraph.Scheduler.Interleaving
