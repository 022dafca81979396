import RlmGraph.Memory.OneFact

/-! # Facts that several turns support

A fact that is repeated gains a supporting turn, but it is read as long as the
turn that stated it first is. It outlives that turn only if the answer that
replaces the turn states something new about the same, or another turn has. -/
namespace RlmGraph.Memory.Support

open RlmGraph.Lib RlmGraph.Lib.PyText RlmGraph.Lib.Rows
open RlmGraph.Lib.Interleavings
open RlmGraph.Memory.Conversation RlmGraph.Memory.Facts RlmGraph.Memory.Chat
open RlmGraph.Memory.Lines RlmGraph.Memory.Commits RlmGraph.Memory.Turns RlmGraph.Memory.Retries
open RlmGraph.Memory.Forks RlmGraph.Memory.OneFact

variable {s : Store} {turn : ChatTurn} {fact prior x : ConversationFact} {slot : Slot}
  {tables : CaseTables} {c : Commit} {facts : List ConversationFact}

/-! ## What a commit leaves of the facts -/

theorem mem_stated {value : String} : value ∈ stated s turn facts slot ↔
    ∃ fact ∈ facts, slotFor s turn fact = slot ∧ fact.value = value := by
  simp [stated, and_assoc]

/-- A commit keeps the facts that were there as `f` gives them: their support
grows by the turn only, and only if they are valid and it repeats their value.
Then come facts of its own. -/
structure Grown (tables : CaseTables) (s : Store) (turn : ChatTurn)
    (done : List ConversationFact) (facts : List ConversationFact)
    (f : ConversationFact → ConversationFact) (more : List ConversationFact) : Prop where
  facts : facts = s.facts.map f ++ more
  alike : ∀ x, Alike x (f x)
  own : ∀ g ∈ more, ∀ id ∈ g.sourceTurnId :: g.supportingTurnIds, id = turn.id
  support : ∀ x ∈ s.facts, ∀ id ∈ (f x).supportingTurnIds, id ∈ x.supportingTurnIds ∨
    (id = turn.id ∧ Valid s x ∧
      ∃ value ∈ stated s turn done (slotOf s x), Same tables x.value value)

theorem stated_mono (done : List ConversationFact) (fact : ConversationFact) {value : String}
    (h : value ∈ stated s turn done slot) : value ∈ stated s turn (done ++ [fact]) slot := by
  obtain ⟨x, hx, hrest⟩ := mem_stated.mp h
  exact mem_stated.mpr ⟨x, List.mem_append_left _ hx, hrest⟩

theorem Grown.snoc {done more : List ConversationFact} {f : ConversationFact → ConversationFact}
    (h : Grown tables s turn done facts f more) (fact : ConversationFact) :
    Grown tables s turn (done ++ [fact]) facts f more where
  facts := h.facts
  alike := h.alike
  own := h.own
  support x hx id hid := by
    refine (h.support x hx id hid).imp_right ?_
    rintro ⟨rfl, hvalid, value, hvalue, hsame⟩
    exact ⟨rfl, hvalid, value, stated_mono done fact hvalue, hsame⟩

theorem mem_confirm {id : String} (h : id ∈ (confirm turn fact prior).supportingTurnIds) :
    id ∈ prior.supportingTurnIds ∨ id = turn.id := by
  have hmem : id ∈ prior.supportingTurnIds ++ [turn.id] := List.mem_of_mem_drop h
  simpa using hmem

theorem grown_confirm (hc : Committing s turn c) {done more : List ConversationFact}
    {f : ConversationFact → ConversationFact}
    (h : Grown tables s turn done c.store.facts f more)
    (hprior : prior ∈ line c.store (slotFor c.store turn fact))
    (hsame : Same tables prior.value fact.value) (hother : turn.id ≠ prior.sourceTurnId) :
    Grown tables s turn (done ++ [fact]) (c.store.facts.map (touched turn fact prior))
      (touched turn fact prior ∘ f) (more.map (touched turn fact prior)) := by
  have htouched := touched_alike turn fact prior
  obtain ⟨hmem, hvalid, hslot⟩ := mem_line.mp hprior
  refine ⟨?_, fun x => (h.alike x).trans (htouched (f x)), fun g hg => ?_, fun x hx id hid => ?_⟩
  · rw [h.facts, List.map_append, List.map_map]
  · -- a fact of the turn itself is not confirmed by it
    obtain ⟨y, hy, rfl⟩ := List.mem_map.mp hg
    have hin : y ∈ c.store.facts := by
      rw [h.facts]
      exact List.mem_append_right _ hy
    have hne : y.id ≠ prior.id := fun hid => by
      obtain rfl := hc.wf.fact_eq hin hmem hid
      exact hother (h.own y hy _ List.mem_cons_self).symm
    simpa [touched, hne] using h.own y hy
  · by_cases hid' : (f x).id = prior.id
    · have hin : f x ∈ c.store.facts := by
        rw [h.facts]
        exact List.mem_append_left _ (List.mem_map_of_mem hx)
      obtain rfl := hc.wf.fact_eq hin hmem hid'
      have hconfirmed : id ∈ (confirm turn fact (f x)).supportingTurnIds := by
        simpa [touched] using hid
      rcases mem_confirm hconfirmed with hold | rfl
      · exact (h.snoc fact).support x hx id hold
      · have htables : ∀ y, slotOf c.store y = slotOf s y ∧ (Valid c.store y ↔ Valid s y) := by
          intro y
          rw [hc.tables]
          exact ⟨rfl, Iff.rfl⟩
        refine Or.inr ⟨rfl, ?_, fact.value, mem_stated.mpr ⟨fact, ?_, ?_, rfl⟩, ?_⟩
        · exact (h.alike x).valid.mp ((htables _).2.mp hvalid)
        · exact List.mem_append_right _ (List.mem_singleton_self fact)
        · have hx' : slotOf c.store (f x) = slotOf s x :=
            (htables _).1.trans (h.alike x).sameSlot
          rw [← hx', hslot, hc.tables]
          rfl
        · rw [(h.alike x).value] at hsame
          exact hsame
    · refine (h.snoc fact).support x hx id ?_
      simpa [touched, hid'] using hid

theorem grown_commitFact (tables : CaseTables) (hc : Committing s turn c) (hs : Speaks s turn)
    (hfact : Candidate c.store turn fact) {done : List ConversationFact}
    (h : ∃ f more, Grown tables s turn done c.store.facts f more) :
    ∃ f more, Grown tables s turn (done ++ [fact])
      (commitFact tables turn c fact).store.facts f more := by
  obtain ⟨f, more, h⟩ := h
  rcases commitFact_cases tables turn c fact with
    ⟨prior, hfound, hsame, heq | ⟨hother, heq⟩⟩ | ⟨-, heq⟩
  · rw [heq]
    exact ⟨f, more, h.snoc fact⟩
  · have hprior := hc.holds _ _ prior hfact.proper hfound
    rw [heq, write_confirm hc hprior]
    exact ⟨_, _, grown_confirm hc h hprior hsame hother⟩
  · rw [heq, store_added hc hs hfact]
    refine ⟨f, more ++ [added c fact], ?_, h.alike, ?_, (h.snoc fact).support⟩
    · rw [h.facts, List.append_assoc]
    · refine forall_mem_concat h.own fun id hid => ?_
      have hnone : (added c fact).supportingTurnIds = [] := hfact.unsupported
      rw [hnone, List.mem_singleton] at hid
      exact hid.trans hfact.source

theorem grown_commitFacts (tables : CaseTables) (h : Wf s) (hs : Speaks s turn)
    (hfacts : Candidates s turn facts) :
    ∃ f more, Grown tables s turn facts (commitFacts tables s turn facts).facts f more := by
  refine (commit_run tables [] hs
    (P := fun done c => ∃ f more, Grown tables s turn done c.store.facts f more)
    (fun done c fact hc hfact hgrown => grown_commitFact tables hc hs hfact hgrown)
    (committing_start h hs) hfacts ⟨id, [], ?_, Alike.refl, ?_, ?_⟩).2
  · simp [Commit.start]
  · exact fun g hg => absurd hg List.not_mem_nil
  · exact fun x _ id hid => Or.inl hid

/-! ## A value that is new -/

/-- A value that repeats no current fact of its line leads to a fact of the turn. -/
theorem spoken_new (tables : CaseTables) (h : Wf s) (hs : Speaks s turn)
    (hfacts : Candidates s turn facts) {value : String} (hvalue : value ∈ stated s turn facts slot)
    (hnew : ∀ x, Current (line s slot) x → ¬ Same tables x.value value) :
    ∃ g ∈ (commitFacts tables s turn facts).facts,
      g.sourceTurnId = turn.id ∧ slotOf s g = slot := by
  have hrun := commit_run tables [] hs
    (P := fun done c => Finding turn c ∧
      ((∃ g ∈ c.store.facts, g.sourceTurnId = turn.id ∧ slotOf s g = slot) ∨
        ((∀ x, Current (line c.store slot) x →
            ∃ y, Current (line s slot) y ∧ y.value = x.value) ∧
          ∀ fact ∈ done, slotFor s turn fact = slot → fact.value ≠ value)))
    (fun done c fact hc hfact hP => ?_) (committing_start h hs) hfacts
    ⟨finding_start h hs, Or.inr ⟨fun x hx => ⟨x, hx, rfl⟩, by simp⟩⟩
  · rcases hrun.2.2 with hfound | ⟨-, hnone⟩
    · exact hfound
    · obtain ⟨fact, hfact, hslot, rfl⟩ := mem_stated.mp hvalue
      exact absurd rfl (hnone fact hfact hslot)
  · obtain ⟨hfinding, hP⟩ := hP
    refine ⟨finding_commitFact hc hs hfact hfinding, ?_⟩
    have hslotFor : slotFor c.store turn fact = slotFor s turn fact := by
      rw [slotFor, hc.tables]
      rfl
    rcases commitFact_cases tables turn c fact with
      ⟨prior, hfound, hsame, hcase⟩ | ⟨-, heq⟩
    · have hprior := hc.holds _ _ prior hfact.proper hfound
      -- what is found has a value that was current, so this one is not the new one
      have hdone : (∀ x, Current (line c.store slot) x →
            ∃ y, Current (line s slot) y ∧ y.value = x.value) →
          (∀ fact ∈ done, slotFor s turn fact = slot → fact.value ≠ value) →
          ∀ x ∈ done ++ [fact], slotFor s turn x = slot → x.value ≠ value := by
        intro hcurrent hnone
        refine forall_mem_concat hnone fun hslot hvalue => ?_
        have hin := hfinding _ _ prior hfact.proper hfound
        change Current (line c.store (slotFor c.store turn fact)) prior at hin
        rw [hslotFor, hslot] at hin
        obtain ⟨y, hy, heq⟩ := hcurrent prior hin
        exact hnew y hy (by rw [heq, ← hvalue]; exact hsame)
      rcases hcase with heq | ⟨-, heq⟩
      · rw [heq]
        exact hP.imp_right fun hP => ⟨hP.1, hdone hP.1 hP.2⟩
      · rw [heq, write_confirm hc hprior]
        have halike := touched_alike turn fact prior
        refine hP.imp ?_ fun hP => ⟨fun x hx => ?_, hdone hP.1 hP.2⟩
        · rintro ⟨g, hg, hsource, hslot⟩
          exact ⟨_, List.mem_map_of_mem hg, (halike g).source.trans hsource,
            (halike g).sameSlot.trans hslot⟩
        · rw [line_touched, current_map halike] at hx
          obtain ⟨y, hy, rfl⟩ := hx
          obtain ⟨z, hz, hzy⟩ := hP.1 y hy
          exact ⟨z, hz, hzy.trans (halike y).value.symm⟩
    · rw [heq, store_added hc hs hfact]
      by_cases hslot : slotFor s turn fact = slot
      · refine Or.inl ⟨added c fact, List.mem_append_right _ (List.mem_singleton_self _),
          hfact.source, ?_⟩
        have hadded := slotOf_added hfact
        rw [hslotFor, hslot] at hadded
        rw [← hadded, hc.tables]
        rfl
      · refine hP.imp ?_ fun hP => ⟨fun x hx => ?_, ?_⟩
        · rintro ⟨g, hg, hrest⟩
          exact ⟨g, List.mem_append_left _ hg, hrest⟩
        · rcases (current_added hc.wf (addable_added hc hs hfact) (valid_added hc hs hfact)
            slot x).mp hx with ⟨hself, -⟩ | ⟨hold, -⟩
          · rw [slotOf_added hfact, hslotFor] at hself
            exact absurd hself hslot
          · exact hP.1 x hold
        · exact forall_mem_concat hP.2 fun heq => absurd heq hslot

/-! ## Facts that last -/

/-- The turn is there and has not been superseded. -/
def LiveTurn (s : Store) (id : String) : Prop :=
  ∃ turn ∈ s.turns, turn.id = id ∧ truthy turn.supersededByTurnId = false

/-- A turn that stated or confirmed the fact is live. -/
def Supported (s : Store) (fact : ConversationFact) : Prop :=
  ∃ id ∈ fact.sourceTurnId :: fact.supportingTurnIds, LiveTurn s id

/-- The fact is read as active, in its profile or in its session. -/
def Active (s : Store) (fact : ConversationFact) : Prop :=
  if fact.profileMemory then fact ∈ s.activeAllFacts (some fact.sessionId) none
  else fact ∈ s.activeFacts fact.sessionId

/-- The place of a fact in the order in which facts were saved first. -/
def savedAt (s : Store) (fact : ConversationFact) : Nat := (s.facts.map (·.id)).idxOf fact.id

/-- The fact is active, or a later one of its slot is. -/
def Lasts (s : Store) (fact : ConversationFact) : Prop :=
  ∃ other, Active s other ∧ slotOf s other = slotOf s fact ∧ savedAt s fact ≤ savedAt s other

/-- The fact is valid, or a later one of its slot is. -/
def Kept (s : Store) (fact : ConversationFact) : Prop :=
  ∃ other ∈ line s (slotOf s fact), savedAt s fact ≤ savedAt s other

theorem active_iff_current (h : Wf s) (hfact : fact ∈ s.facts) :
    Active s fact ↔ Current (line s (slotOf s fact)) fact := by
  obtain ⟨session, hsession, hid⟩ := h.session hfact
  have hprofile : profileOf s fact.sessionId = session.profileId := by
    rw [← hid, profileOf_eq h hsession]
  unfold Active
  cases hkind : fact.profileMemory with
  | false =>
    have hslot : slotOf s fact = ⟨.session fact.sessionId, fact.key⟩ := by
      simp [slotOf, slotAt, hkind]
    rw [hslot, ← active_session_iff h]
    simp [hkind]
  | true =>
    have hslot : slotOf s fact = ⟨.profile session.profileId, fact.key⟩ := by
      simp [slotOf, slotAt, hkind, hprofile]
    rw [hslot, ← active_profile_iff h hsession, hid]
    simp [hkind]

theorem active_stored (h : Active s fact) : fact ∈ s.facts := by
  unfold Active at h
  split at h
  · exact (mem_globalItems.mp (List.mem_of_mem_filter h)).1
  · exact (mem_globalItems.mp (List.mem_of_mem_filter h)).1

theorem idxOf_le {l : List String} {a b : String} (hl : l.Nodup) (h : List.Sublist [a, b] l) :
    l.idxOf a ≤ l.idxOf b := by
  induction l with
  | nil => cases h
  | cons first l ih =>
    obtain ⟨hnot, hnodup⟩ := List.nodup_cons.mp hl
    rcases List.cons_sublist_cons'.mp h with hin | ⟨rfl, -⟩
    · have ha : a ∈ l := hin.subset List.mem_cons_self
      have hb : b ∈ l := hin.subset (List.mem_cons_of_mem a (List.mem_singleton_self b))
      have hnea : first ≠ a := fun heq => hnot (heq ▸ ha)
      have hneb : first ≠ b := fun heq => hnot (heq ▸ hb)
      rw [List.idxOf_cons_ne l hnea, List.idxOf_cons_ne l hneb]
      exact Nat.succ_le_succ (ih hnodup hin)
    · rw [List.idxOf_cons_self]
      exact Nat.zero_le _

/-- The last fact of a line is active, so the valid ones decide. -/
theorem lasts_iff (h : Wf s) : Lasts s fact ↔ Kept s fact := by
  constructor
  · rintro ⟨other, hactive, hslot, hle⟩
    have hcurrent := (active_iff_current h (active_stored hactive)).mp hactive
    rw [hslot] at hcurrent
    exact ⟨other, hcurrent.1, hle⟩
  · rintro ⟨other, hother, hle⟩
    have hne : line s (slotOf s fact) ≠ [] := List.ne_nil_of_mem hother
    obtain ⟨last, hlast⟩ : ∃ last, (line s (slotOf s fact)).getLast? = some last :=
      ⟨_, List.getLast?_eq_some_getLast hne⟩
    have hcurrent := h.current_last hlast
    obtain ⟨hmem, -, hslot⟩ := mem_line.mp hcurrent.1
    refine ⟨last, (active_iff_current h hmem).mpr (by rwa [hslot]), hslot, hle.trans ?_⟩
    obtain ⟨before, hline⟩ := List.getLast?_eq_some_iff.mp hlast
    rw [hline] at hother
    rcases List.mem_append.mp hother with hbefore | hself
    · have hpair : List.Sublist [other, last] (line s (slotOf s fact)) := by
        rw [hline]
        exact (List.singleton_sublist.mpr hbefore).append (List.Sublist.refl [last])
      have hids := (hpair.trans List.filter_sublist).map (f := fun x : ConversationFact => x.id)
      exact idxOf_le h.factIds hids
    · rw [List.mem_singleton.mp hself]

/-! ## Tables that carry the facts of others -/

/-- The facts of `s` are there as `f` gives them, in their slots, and more. -/
structure Carried (s s' : Store) (f : ConversationFact → ConversationFact)
    (more : List ConversationFact) : Prop where
  facts : s'.facts = s.facts.map f ++ more
  alike : ∀ x, Alike x (f x)
  sameSlot : ∀ x ∈ s.facts, slotOf s' x = slotOf s x

section
variable {s' : Store} {f : ConversationFact → ConversationFact} {more : List ConversationFact}

theorem Carried.ids (h : Carried s s' f more) :
    s'.facts.map (·.id) = s.facts.map (·.id) ++ more.map (·.id) := by
  rw [h.facts, List.map_append, List.map_map]
  congr 1
  exact List.map_congr_left fun x _ => (h.alike x).id

theorem Carried.savedAt_eq (h : Carried s s' f more) (hx : x ∈ s.facts) :
    savedAt s' (f x) = savedAt s x := by
  unfold savedAt
  rw [h.ids, (h.alike x).id]
  exact List.idxOf_append_of_mem (List.mem_map_of_mem (f := (·.id)) hx)

theorem Carried.mem (h : Carried s s' f more) (hx : x ∈ s.facts) : f x ∈ s'.facts := by
  rw [h.facts]
  exact List.mem_append_left _ (List.mem_map_of_mem hx)

theorem Carried.slot_eq (h : Carried s s' f more) (hx : x ∈ s.facts) :
    slotOf s' (f x) = slotOf s x :=
  (h.alike x).sameSlot.trans (h.sameSlot x hx)

/-- A fact is kept by one that stays valid. -/
theorem Carried.kept (h : Carried s s' f more) (hx : x ∈ s.facts) {other : ConversationFact}
    (hother : other ∈ s.facts) (hslot : slotOf s other = slotOf s x) (hvalid : Valid s' other)
    (hle : savedAt s x ≤ savedAt s other) : Kept s' (f x) := by
  refine ⟨f other, mem_line.mpr ⟨h.mem hother, (h.alike other).valid.mpr hvalid, ?_⟩, ?_⟩
  · rw [h.slot_eq hother, h.slot_eq hx, hslot]
  · rwa [h.savedAt_eq hx, h.savedAt_eq hother]

/-- A fact is kept by a new one of its slot. -/
theorem Carried.kept_more (h : Carried s s' f more) (hwf : Wf s') (hx : x ∈ s.facts)
    {g : ConversationFact} (hg : g ∈ more) (hvalid : Valid s' g)
    (hslot : slotOf s' g = slotOf s x) : Kept s' (f x) := by
  have hin : g ∈ s'.facts := by
    rw [h.facts]
    exact List.mem_append_right _ hg
  refine ⟨g, mem_line.mpr ⟨hin, hvalid, by rw [hslot, h.slot_eq hx]⟩, ?_⟩
  have hids := hwf.factIds
  rw [h.ids] at hids
  have hxid : x.id ∈ s.facts.map (·.id) := List.mem_map_of_mem (f := (·.id)) hx
  have hgid : g.id ∉ s.facts.map (·.id) := fun hold =>
    (List.nodup_append.mp hids).2.2 g.id hold g.id (List.mem_map_of_mem (f := (·.id)) hg) rfl
  rw [h.savedAt_eq hx]
  unfold savedAt
  rw [h.ids, List.idxOf_append_of_notMem hgid]
  exact (List.idxOf_lt_length_of_mem hxid).le.trans (Nat.le_add_right _ _)

theorem Carried.line (h : Carried s s' f more)
    (hvalid : ∀ x ∈ s.facts, Valid s' x ↔ Valid s x) : line s' slot =
      (line s slot).map f ++ more.filter fun g => decide (Valid s' g) && (slotOf s' g == slot) := by
  unfold Lines.line
  rw [h.facts, List.filter_append, List.filter_map]
  congr 2
  refine List.filter_congr fun x hx => ?_
  have hx' := (h.alike x).valid.trans (hvalid x hx)
  change (decide (Valid s' (f x)) && (slotOf s' (f x) == slot)) = _
  rw [h.slot_eq hx]
  congr 1
  exact decide_eq_decide.mpr hx'

theorem kept_self (hmem : x ∈ s.facts) (hvalid : Valid s x) : Kept s x :=
  ⟨x, mem_line.mpr ⟨hmem, hvalid, rfl⟩, le_rfl⟩

end

/-! ## Turns that are live -/

theorem liveTurn_concat {s' : Store} (hturns : s'.turns = s.turns ++ [turn])
    (hstanding : turn.supersededByTurnId = none) {id : String} :
    LiveTurn s' id ↔ LiveTurn s id ∨ id = turn.id := by
  unfold LiveTurn
  rw [hturns]
  constructor
  · rintro ⟨x, hx, rfl, hlive⟩
    rcases List.mem_append.mp hx with hold | hself
    · exact Or.inl ⟨x, hold, rfl, hlive⟩
    · exact Or.inr (congrArg (·.id) (List.mem_singleton.mp hself))
  · rintro (⟨x, hx, hrest⟩ | rfl)
    · exact ⟨x, List.mem_append_left _ hx, hrest⟩
    · exact ⟨turn, List.mem_append_right _ (List.mem_singleton_self turn), rfl,
        by simp [truthy, hstanding]⟩

theorem liveTurn_supersede {by' : String} (hby : by' ≠ "")
    {id : String} (hlive : LiveTurn (supersede s turn by') id) : LiveTurn s id ∧ id ≠ turn.id := by
  obtain ⟨x, hx, rfl, hstanding⟩ := hlive
  rcases mem_supersede.mp hx with rfl | ⟨hx, hne⟩
  · simp [truthy, hby] at hstanding
  · exact ⟨⟨x, hx, rfl, hstanding⟩, hne⟩

theorem valid_concat {s' : Store} (hturns : s'.turns = s.turns ++ [turn])
    (hstanding : turn.supersededByTurnId = none) : Valid s' x ↔ Valid s x := by
  unfold Valid
  rw [mem_supersededTurns, mem_supersededTurns, hturns]
  simp [or_and_right, exists_or, hstanding, truthy]

/-- The facts of a turn that speaks are valid. -/
theorem valid_spoken (h : Wf s) (hs : Speaks s turn) (hx : x ∈ s.facts)
    (hsource : x.sourceTurnId = turn.id) : Valid s x := by
  obtain ⟨own, hown, hid, hsession⟩ := h.source x hx
  obtain rfl : own = turn :=
    List.inj_on_of_nodup_map h.turnIds hown hs.known (hid.trans hsource)
  unfold Valid
  rw [hsource, ← hsession]
  exact hs.live

/-! ## A reply -/

variable {session : ChatSession} {reply : Reply} {previous : ChatTurn} {s' : Store}
  {f : ConversationFact → ConversationFact} {more : List ConversationFact}

/-- A fact that is there keeps its slot while its session keeps its profile. -/
theorem slot_kept (h : Wf s) (hprofile : ∀ own ∈ s.sessions,
    profileOf s' own.id = profileOf s own.id) (hx : x ∈ s.facts) : slotOf s' x = slotOf s x := by
  obtain ⟨own, hown, hid⟩ := h.session hx
  unfold slotOf slotAt
  rw [← hid, hprofile own hown]

theorem facts_persist (tables : CaseTables) (s : Store) (session : ChatSession) (message : String)
    (reply : Reply) (broken : Option Nat) :
    (persist tables s session message reply broken).facts =
      (committedReply tables s session message reply broken).facts := by
  rw [persist_eq]
  cases broken <;> rfl

theorem stated_recorded {message : String}
    (hsessions : (recorded s session message reply).sessions = s.sessions) :
    stated (recorded s session message reply) turn facts slot = stated s turn facts slot := by
  unfold stated slotFor slotAt profileOf
  rw [hsessions]

theorem grown_persist (tables : CaseTables) (h : Wf s) (hsession : session ∈ s.sessions)
    (message : String) {built : List ConversationFact} (hfresh : reply.Fresh s built)
    (broken : Option Nat)
    (hbuilt : List.Sublist (candidates tables (turnOf s session.id message reply) reply) built) :
    let turn := turnOf s session.id message reply
    ∃ f more, Grown tables s turn (spoken (candidates tables turn reply) broken)
      (persist tables s session message reply broken).facts f more := by
  intro turn
  obtain ⟨hwf, hspeaks, hreads, hsessions, -⟩ := recorded_spec h hsession message hfresh
  have hcandidates := recorded_candidates h hsession message hfresh broken hbuilt
  obtain ⟨f, more, hgrown⟩ := grown_commitFacts tables hwf hspeaks hcandidates
  refine ⟨f, more, ?_, hgrown.alike, hgrown.own, fun x hx id hid => ?_⟩
  · rw [facts_persist, committedReply, hgrown.facts, hreads.facts]
  · have hx' : x ∈ (recorded s session message reply).facts := by rwa [hreads.facts]
    refine (hgrown.support x hx' id hid).imp_right ?_
    rintro ⟨rfl, hvalid, value, hvalue, hsame⟩
    rw [hreads.sameSlot hx, stated_recorded hsessions] at hvalue
    exact ⟨rfl, (hreads.valid x hx).mp hvalid, value, hvalue, hsame⟩

theorem carried_persist (h : Wf s) {message : String} {broken : Option Nat}
    (hreplied : Replied tables s turn facts (persist tables s session message reply broken))
    {done : List ConversationFact} (hgrown : Grown tables s turn done
      (persist tables s session message reply broken).facts f more) :
    Carried s (persist tables s session message reply broken) f more where
  facts := hgrown.facts
  alike := hgrown.alike
  sameSlot _ hx := slot_kept h hreplied.profile hx

/-- A new value leads to a fact of the reply. -/
theorem spoken_persist (tables : CaseTables) (h : Wf s) (hsession : session ∈ s.sessions)
    (message : String) {built : List ConversationFact} (hfresh : reply.Fresh s built)
    (hbuilt : List.Sublist (candidates tables (turnOf s session.id message reply) reply) built)
    {value : String} (hvalue : value ∈ stated s (turnOf s session.id message reply)
      (candidates tables (turnOf s session.id message reply) reply) slot)
    (hnew : ∀ x, Current (line s slot) x → ¬ Same tables x.value value) :
    ∃ g ∈ (persist tables s session message reply none).facts, g.sourceTurnId = reply.turnId ∧
      slotOf (persist tables s session message reply none) g = slot := by
  obtain ⟨hwf, hspeaks, hreads, hsessions, -⟩ := recorded_spec h hsession message hfresh
  have hcandidates := recorded_candidates h hsession message hfresh none hbuilt
  obtain ⟨hreplied, hkept⟩ := replied_committed tables h hsession message hfresh none hbuilt
  have hline : ∀ x, Current (line (recorded s session message reply) slot) x →
      ¬ Same tables x.value value := by
    intro x hx
    rw [hreads.line] at hx
    exact hnew x hx
  rw [← stated_recorded hsessions] at hvalue
  obtain ⟨g, hg, hsource, hslot⟩ := spoken_new tables hwf hspeaks hcandidates hvalue hline
  refine ⟨g, ?_, hsource, ?_⟩
  · rw [facts_persist]
    exact hg
  · have hin : session ∈ (committedReply tables s session message reply none).sessions := by
      rw [hkept]
      exact hsession
    have hsame := (reads_saveSession hreplied.wf hin reply.updatedAt).sameSlot hg
    rw [persist_eq]
    refine hsame.trans ?_
    rw [← hslot]
    unfold slotOf slotAt profileOf
    rw [hkept, hsessions]

/-! ## What a reply keeps -/

/-- Supporting turns are in the tables, and facts with a live turn are kept. -/
structure Backed (s : Store) : Prop where
  known : ∀ x ∈ s.facts, ∀ id ∈ x.supportingTurnIds, id ∈ s.turns.map (·.id)
  kept : ∀ x ∈ s.facts, Supported s x → Kept s x

/-- The turns of a fact are none that is new. -/
theorem Backed.ne_new (hb : Backed s) (h : Wf s) (hx : x ∈ s.facts) {id newId : String}
    (hid : id ∈ x.sourceTurnId :: x.supportingTurnIds) (hnew : newId ∉ s.turns.map (·.id)) :
    id ≠ newId := by
  rintro rfl
  rcases List.mem_cons.mp hid with rfl | hid
  · obtain ⟨own, hown, hsource, -⟩ := h.source x hx
    exact hnew (List.mem_map.mpr ⟨own, hown, hsource⟩)
  · exact hnew (hb.known x hx id hid)

/-- A turn that supports a fact did so before, or it is the one that commits. -/
theorem Grown.supporter {done facts more : List ConversationFact}
    {f : ConversationFact → ConversationFact} (h : Grown tables s turn done facts f more)
    (hx : x ∈ s.facts) {id : String} (hid : id ∈ (f x).sourceTurnId :: (f x).supportingTurnIds) :
    id ∈ x.sourceTurnId :: x.supportingTurnIds ∨ (id = turn.id ∧ Valid s x ∧
      ∃ value ∈ stated s turn done (slotOf s x), Same tables x.value value) := by
  rcases List.mem_cons.mp hid with rfl | hid
  · rw [(h.alike x).source]
    exact Or.inl List.mem_cons_self
  · exact (h.support x hx id hid).imp_left (List.mem_cons_of_mem _)

theorem Grown.known {done facts more : List ConversationFact}
    {f : ConversationFact → ConversationFact} (h : Grown tables s turn done facts f more)
    (hb : Backed s) : ∀ x ∈ facts, ∀ id ∈ x.supportingTurnIds,
      id ∈ s.turns.map (·.id) ∨ id = turn.id := by
  intro x hx id hid
  rw [h.facts] at hx
  rcases List.mem_append.mp hx with hold | hown
  · obtain ⟨y, hy, rfl⟩ := List.mem_map.mp hold
    exact (h.support y hy id hid).imp (hb.known y hy id) And.left
  · exact Or.inr (h.own x hown id (List.mem_cons_of_mem _ hid))

theorem backed_replied (h : Wf s) (hb : Backed s) {message : String} {broken : Option Nat}
    (hnew : turn.id ∉ s.turns.map (·.id)) (hstanding : turn.supersededByTurnId = none)
    {done : List ConversationFact}
    (hreplied : Replied tables s turn facts (persist tables s session message reply broken))
    (hgrown : Grown tables s turn done
      (persist tables s session message reply broken).facts f more) :
    Backed (persist tables s session message reply broken) := by
  have hcarried := carried_persist h hreplied hgrown
  refine ⟨fun x hx id hid => ?_, fun y hy hsupported => ?_⟩
  · rw [hreplied.turns, List.map_append]
    rcases hgrown.known hb x hx id hid with hold | rfl
    · exact List.mem_append_left _ hold
    · exact List.mem_append_right _ (List.mem_singleton_self _)
  · have hy' := hy
    rw [hgrown.facts] at hy'
    rcases List.mem_append.mp hy' with hold | hown
    · obtain ⟨x, hx, rfl⟩ := List.mem_map.mp hold
      obtain ⟨id, hid, hlive⟩ := hsupported
      have hvalid : ∀ z, Valid (persist tables s session message reply broken) z ↔ Valid s z :=
        fun z => valid_concat hreplied.turns hstanding
      rcases hgrown.supporter hx hid with hbefore | ⟨-, hstays, -⟩
      · have hne := hb.ne_new h hx hbefore hnew
        have hlive' := ((liveTurn_concat hreplied.turns hstanding).mp hlive).resolve_right hne
        obtain ⟨other, hother, hle⟩ := hb.kept x hx ⟨id, hbefore, hlive'⟩
        obtain ⟨hmem, hstays, hslot⟩ := mem_line.mp hother
        exact hcarried.kept hx hmem hslot ((hvalid other).mpr hstays) hle
      · exact hcarried.kept hx hx rfl ((hvalid x).mpr hstays) le_rfl
    · exact kept_self hy (valid_spoken hreplied.wf hreplied.speaks hy
        (hgrown.own y hown _ List.mem_cons_self))

/-- A reply that is taken back leaves all facts as they were supported. -/
theorem backed_undone (h : Wf s) (hb : Backed s) {message : String}
    (hnew : turn.id ∉ s.turns.map (·.id)) (hstanding : turn.supersededByTurnId = none)
    {done : List ConversationFact}
    (hreplied : Replied tables s turn facts (persist tables s session message reply none))
    (hgrown : Grown tables s turn done
      (persist tables s session message reply none).facts f more) {by' : String} (hby : by' ≠ "") :
    Backed (supersede (persist tables s session message reply none) turn by') := by
  have hcarried := carried_persist h hreplied hgrown
  have hknown := hreplied.speaks.known
  refine ⟨fun x hx id hid => ?_, fun y hy hsupported => ?_⟩
  · rw [ids_supersede hknown, hreplied.turns, List.map_append]
    rcases hgrown.known hb x hx id hid with hold | rfl
    · exact List.mem_append_left _ hold
    · exact List.mem_append_right _ (List.mem_singleton_self _)
  · obtain ⟨id, hid, hlive⟩ := hsupported
    obtain ⟨hlive', hne⟩ := liveTurn_supersede hby hlive
    have hy' : y ∈ (persist tables s session message reply none).facts := hy
    rw [hgrown.facts] at hy'
    rcases List.mem_append.mp hy' with hold | hown
    · obtain ⟨x, hx, rfl⟩ := List.mem_map.mp hold
      have hbefore := (hgrown.supporter hx hid).resolve_right fun hboth => hne hboth.1
      have hlive'' := ((liveTurn_concat hreplied.turns hstanding).mp hlive').resolve_right hne
      obtain ⟨other, hother, hle⟩ := hb.kept x hx ⟨id, hbefore, hlive''⟩
      obtain ⟨hmem, hstays, hslot⟩ := mem_line.mp hother
      have hcarried' : Carried s (supersede (persist tables s session message reply none) turn by')
          f more := ⟨hcarried.facts, hcarried.alike, hcarried.sameSlot⟩
      refine hcarried'.kept hx hmem hslot ?_ hle
      have hother' := (hcarried.alike other).valid.mp
        ((valid_supersede hreplied.wf hknown hby (hcarried.mem hmem)).mpr ⟨?_, ?_⟩)
      · exact hother'
      · exact (hcarried.alike other).valid.mpr ((valid_concat hreplied.turns hstanding).mpr hstays)
      · rw [(hcarried.alike other).source]
        exact hb.ne_new h hmem List.mem_cons_self hnew
    · exact absurd (hgrown.own y hown id hid) hne

/-! ## A retry -/

/-- A live turn other than the old one stated or confirmed the fact, or the
replacement states its value while it is valid. -/
def Held (tables : CaseTables) (s : Store) (oldId : String) (values : Slot → List String)
    (fact : ConversationFact) : Prop :=
  (∃ id ∈ fact.sourceTurnId :: fact.supportingTurnIds, id ≠ oldId ∧ LiveTurn s id) ∨
    (Valid s fact ∧ ∃ value ∈ values (slotOf s fact), Same tables fact.value value)

/-- Another turn has the fact, or a later one of its slot, or the replacement
states a value for it that repeats no active fact, with the facts of the old
turn or without them. -/
def Replaced (tables : CaseTables) (s : Store) (oldId : String) (values : Slot → List String)
    (fact : ConversationFact) : Prop :=
  (∃ other ∈ line s (slotOf s fact), other.sourceTurnId ≠ oldId ∧
      savedAt s fact ≤ savedAt s other) ∨
    ∃ value ∈ values (slotOf s fact),
      (∀ x, Current (line s (slotOf s fact)) x → ¬ Same tables x.value value) ∨
      ∀ x, Current ((line s (slotOf s fact)).filter fun y => y.sourceTurnId != oldId) x →
        ¬ Same tables x.value value

theorem Grown.trans {s₂ : Store} {done again more₁ more₂ : List ConversationFact}
    {f₁ f₂ : ConversationFact → ConversationFact}
    (h₁ : Grown tables s turn done s₂.facts f₁ more₁)
    (h₂ : Grown tables s₂ turn again facts f₂ more₂)
    (hslot : ∀ x ∈ s.facts, slotOf s₂ x = slotOf s x)
    (hvalid : ∀ x ∈ s.facts, Valid s₂ (f₁ x) → Valid s x)
    (hstated : ∀ slot, stated s₂ turn again slot = stated s turn done slot) :
    Grown tables s turn done facts (f₂ ∘ f₁) (more₁.map f₂ ++ more₂) := by
  have hin : ∀ x ∈ s.facts, f₁ x ∈ s₂.facts := fun x hx => by
    rw [h₁.facts]
    exact List.mem_append_left _ (List.mem_map_of_mem hx)
  refine ⟨?_, fun x => (h₁.alike x).trans (h₂.alike (f₁ x)), fun g hg id hid => ?_,
    fun x hx id hid => ?_⟩
  · rw [h₂.facts, h₁.facts, List.map_append, List.map_map, List.append_assoc]
  · rcases List.mem_append.mp hg with hold | hnew
    · obtain ⟨y, hy, rfl⟩ := List.mem_map.mp hold
      have hy' : y ∈ s₂.facts := by
        rw [h₁.facts]
        exact List.mem_append_right _ hy
      rcases h₂.supporter hy' hid with hbefore | hboth
      · exact h₁.own y hy id hbefore
      · exact hboth.1
    · exact h₂.own g hnew id hid
  · rcases h₂.support (f₁ x) (hin x hx) id hid with hbefore | ⟨rfl, hstays, value, hvalue, hsame⟩
    · exact h₁.support x hx id hbefore
    · rw [(h₁.alike x).sameSlot, hslot x hx, hstated] at hvalue
      rw [(h₁.alike x).value] at hsame
      exact Or.inr ⟨rfl, hvalid x hx hstays, value, hvalue, hsame⟩

section
variable {again : Nat → String × Nat}

/-- What a successful retry leaves of the facts. -/
theorem grown_redo (h : Wf s) (hsession : session ∈ s.sessions) (hprevious : previous ∈ s.turns)
    (hroute : reply.route ≠ "RLM_RECOVERY")
    (hfresh : let turn := turnOf s session.id previous.userMessage reply
      reply.Fresh s (candidates tables turn reply ++ rebuilt tables turn reply again)) :
    let turn := turnOf s session.id previous.userMessage reply
    let s' := redo tables s session previous reply again
    ∃ f more, Grown tables s turn (candidates tables turn reply) s'.facts f more ∧
      Carried s s' f more ∧
      ∀ x ∈ s.facts, Valid s' x ↔ Valid s x ∧ x.sourceTurnId ≠ previous.id := by
  intro turn s'
  let s₁ := persist tables s session previous.userMessage reply none
  let s₂ := supersede s₁ previous reply.turnId
  obtain ⟨hreplied, hknown, hwf, hspeaks, hcandidates⟩ := redo_ready h hsession hprevious hfresh
  obtain ⟨f₁, more₁, h₁⟩ := grown_persist tables h hsession previous.userMessage hfresh none
    (List.sublist_append_left ..)
  obtain ⟨f₂, more₂, h₂⟩ := grown_commitFacts tables hwf hspeaks hcandidates
  obtain ⟨-, htables, -⟩ := committed tables hwf hspeaks hcandidates
  have hcarried := carried_persist h hreplied h₁
  have hvalid₂ : ∀ x ∈ s.facts,
      Valid s₂ (f₁ x) ↔ Valid s x ∧ x.sourceTurnId ≠ previous.id := by
    intro x hx
    have hone : Valid s₁ (f₁ x) ↔ Valid s x :=
      (h₁.alike x).valid.trans (valid_concat hreplied.turns rfl)
    rw [valid_supersede hreplied.wf hknown hfresh.turn.1 (hcarried.mem hx), (h₁.alike x).source]
    exact and_congr_left' hone
  have hsame : ∀ y, slotOf s' y = slotOf s₁ y ∧ (Valid s' y ↔ Valid s₂ y) := by
    intro y
    change slotOf (redo ..) y = _ ∧ (Valid (redo ..) y ↔ _)
    unfold redo
    rw [htables]
    exact ⟨rfl, Iff.rfl⟩
  have hslot : ∀ x ∈ s.facts, slotOf s₂ x = slotOf s x := hcarried.sameSlot
  have hsaid : Grown tables s turn (candidates tables turn reply) s₂.facts f₁ more₁ := h₁
  have hgrown := hsaid.trans h₂ hslot (fun x hx hv => ((hvalid₂ x hx).mp hv).1)
    (stated_redo previous hsession hroute hreplied again)
  refine ⟨_, _, hgrown, ⟨hgrown.facts, hgrown.alike, fun x hx => ?_⟩, fun x hx => ?_⟩
  · exact (hsame x).1.trans (hslot x hx)
  · rw [(hsame x).2, ← (h₁.alike x).valid, hvalid₂ x hx]

/-- A value that is new leads to a fact of the replacement. -/
theorem spoken_redo (h : Wf s) (hsession : session ∈ s.sessions) (hprevious : previous ∈ s.turns)
    (hroute : reply.route ≠ "RLM_RECOVERY")
    (hfresh : let turn := turnOf s session.id previous.userMessage reply
      reply.Fresh s (candidates tables turn reply ++ rebuilt tables turn reply again))
    {value : String}
    (hvalue : let turn := turnOf s session.id previous.userMessage reply
      value ∈ stated s turn (candidates tables turn reply) slot)
    (hnew : (∀ x, Current (line s slot) x → ¬ Same tables x.value value) ∨
      ∀ x, Current ((line s slot).filter fun y => y.sourceTurnId != previous.id) x →
        ¬ Same tables x.value value) :
    let s' := redo tables s session previous reply again
    ∃ g ∈ s'.facts, g.sourceTurnId = reply.turnId ∧ slotOf s' g = slot := by
  intro s'
  let turn := turnOf s session.id previous.userMessage reply
  let s₁ := persist tables s session previous.userMessage reply none
  let s₂ := supersede s₁ previous reply.turnId
  obtain ⟨hreplied, hknown, hwf, hspeaks, hcandidates⟩ := redo_ready h hsession hprevious hfresh
  obtain ⟨f₂, more₂, h₂⟩ := grown_commitFacts tables hwf hspeaks hcandidates
  obtain ⟨-, htables, -⟩ := committed tables hwf hspeaks hcandidates
  have hslot' : ∀ y, slotOf s' y = slotOf s₁ y := by
    intro y
    change slotOf (redo ..) y = _
    unfold redo
    rw [htables]
    rfl
  -- a fact of the first commit is there after the second
  have hstays : (∃ g ∈ s₁.facts, g.sourceTurnId = reply.turnId ∧ slotOf s₁ g = slot) →
      ∃ g ∈ s'.facts, g.sourceTurnId = reply.turnId ∧ slotOf s' g = slot := by
    rintro ⟨g, hg, hsource, hslot⟩
    refine ⟨f₂ g, ?_, (h₂.alike g).source.trans hsource, ?_⟩
    · change f₂ g ∈ (redo ..).facts
      unfold redo
      rw [h₂.facts]
      exact List.mem_append_left _ (List.mem_map_of_mem hg)
    · exact (h₂.alike g).sameSlot.trans ((hslot' g).trans hslot)
  by_cases hown : ∃ g ∈ s₁.facts, g.sourceTurnId = reply.turnId ∧ slotOf s₁ g = slot
  · exact hstays hown
  rcases hnew with hnew | hnew
  · exact hstays (spoken_persist tables h hsession previous.userMessage hfresh
      (List.sublist_append_left ..) hvalue hnew)
  · -- the first commit has left the line as it was
    obtain ⟨f₁, more₁, h₁⟩ := grown_persist tables h hsession previous.userMessage hfresh none
      (List.sublist_append_left ..)
    have hcarried := carried_persist h hreplied h₁
    have hrest : more₁.filter (fun g => decide (Valid s₁ g) && (slotOf s₁ g == slot)) = [] := by
      refine List.filter_eq_nil_iff.mpr fun g hg hboth => hown ⟨g, ?_, ?_, ?_⟩
      · change g ∈ (persist ..).facts
        rw [h₁.facts]
        exact List.mem_append_right _ hg
      · exact h₁.own g hg _ List.mem_cons_self
      · simpa using (Bool.and_eq_true_iff.mp hboth).2
    have hline₁ : line s₁ slot = (line s slot).map f₁ := by
      change line (persist ..) slot = _
      rw [hcarried.line fun x _ => valid_concat hreplied.turns rfl, hrest, List.append_nil]
    have hline₂ : line s₂ slot =
        ((line s slot).filter fun y => y.sourceTurnId != previous.id).map f₁ := by
      have hfilter : line s₂ slot = (line s₁ slot).filter fun y => y.sourceTurnId != previous.id :=
        line_supersede hreplied.wf hknown hfresh.turn.1
      rw [hfilter, hline₁, List.filter_map]
      congr 1
      refine List.filter_congr fun x _ => ?_
      change ((f₁ x).sourceTurnId != previous.id) = _
      rw [(h₁.alike x).source]
    have hnew₂ : ∀ x, Current (line s₂ slot) x → ¬ Same tables x.value value := by
      intro x hx
      rw [hline₂, current_map h₁.alike] at hx
      obtain ⟨y, hy, rfl⟩ := hx
      rw [(h₁.alike y).value]
      exact hnew y hy
    have hvalue₂ : value ∈ stated s₂ turn (rebuilt tables turn reply again) slot := by
      rw [stated_redo previous hsession hroute hreplied again slot]
      exact hvalue
    obtain ⟨g, hg, hsource, hslot⟩ := spoken_new tables hwf hspeaks hcandidates hvalue₂ hnew₂
    exact ⟨g, hg, hsource, (hslot' g).trans hslot⟩

/-- A successful retry keeps all facts that are held by others and replaced. -/
theorem backed_redone (h : Wf s) (hb : Backed s) (hsession : session ∈ s.sessions)
    (hprevious : previous ∈ s.turns) (hroute : reply.route ≠ "RLM_RECOVERY")
    (hfresh : let turn := turnOf s session.id previous.userMessage reply
      reply.Fresh s (candidates tables turn reply ++ rebuilt tables turn reply again))
    (hkeeps : let turn := turnOf s session.id previous.userMessage reply
      ∀ x ∈ s.facts, Held tables s previous.id (stated s turn (candidates tables turn reply)) x →
        Replaced tables s previous.id (stated s turn (candidates tables turn reply)) x) :
    Backed (redo tables s session previous reply again) := by
  let turn := turnOf s session.id previous.userMessage reply
  let s₁ := persist tables s session previous.userMessage reply none
  let s' := redo tables s session previous reply again
  obtain ⟨hreplied, hknown, hwf₂, hspeaks, hcandidates⟩ := redo_ready h hsession hprevious hfresh
  obtain ⟨f, more, hgrown, hcarried, hvalid⟩ :=
    grown_redo h hsession hprevious hroute hfresh
  obtain ⟨hwf, htables, -⟩ := committed tables hwf₂ hspeaks hcandidates
  have hnew : reply.turnId ∉ s.turns.map (·.id) := hfresh.turn.2
  have hturns : s'.turns = (supersede s₁ previous reply.turnId).turns := by
    change (redo ..).turns = _
    unfold redo
    rw [htables]
  have hspeaks' : Speaks s' turn := by
    change Speaks (redo ..) _
    unfold redo
    rw [htables]
    exact ⟨hspeaks.known, hspeaks.live⟩
  refine ⟨fun x hx id hid => ?_, fun y hy hsupported => ?_⟩
  · change id ∈ s'.turns.map (·.id)
    rw [hturns, ids_supersede hknown, hreplied.turns, List.map_append]
    rcases hgrown.known hb x hx id hid with hold | rfl
    · exact List.mem_append_left _ hold
    · exact List.mem_append_right _ (List.mem_singleton_self _)
  · have hy' : y ∈ s'.facts := hy
    rw [hgrown.facts] at hy'
    rcases List.mem_append.mp hy' with hold | hown
    · obtain ⟨x, hx, rfl⟩ := List.mem_map.mp hold
      by_cases hstays : Valid s x ∧ x.sourceTurnId ≠ previous.id
      · exact hcarried.kept hx hx rfl ((hvalid x hx).mpr hstays) le_rfl
      -- the fact is gone, so another one has to keep it
      obtain ⟨id, hid, hlive⟩ := hsupported
      have hlive₂ : LiveTurn (supersede s₁ previous reply.turnId) id := by
        unfold LiveTurn
        rw [← hturns]
        exact hlive
      obtain ⟨hlive₁, hne⟩ := liveTurn_supersede hfresh.turn.1 hlive₂
      have hheld : Held tables s previous.id
          (stated s turn (candidates tables turn reply)) x := by
        rcases hgrown.supporter hx hid with hbefore | ⟨-, hrest⟩
        · have hother := hb.ne_new h hx hbefore hnew
          exact Or.inl ⟨id, hbefore, hne,
            ((liveTurn_concat hreplied.turns rfl).mp hlive₁).resolve_right hother⟩
        · exact Or.inr hrest
      rcases hkeeps x hx hheld with ⟨other, hother, hsource, hle⟩ | ⟨value, hvalue, hnovel⟩
      · obtain ⟨hmem, hv, hslot⟩ := mem_line.mp hother
        exact hcarried.kept hx hmem hslot ((hvalid other hmem).mpr ⟨hv, hsource⟩) hle
      · obtain ⟨g, hg, hsource, hslot⟩ :=
          spoken_redo h hsession hprevious hroute hfresh hvalue hnovel
        refine hcarried.kept_more hwf hx ?_ (valid_spoken hwf hspeaks' hg hsource) hslot
        have hg' := hg
        rw [hgrown.facts] at hg'
        refine (List.mem_append.mp hg').resolve_left fun hin => ?_
        obtain ⟨z, hz, rfl⟩ := List.mem_map.mp hin
        rw [(hgrown.alike z).source] at hsource
        exact hb.ne_new h hz List.mem_cons_self hnew hsource
    · exact kept_self hy (valid_spoken hwf hspeaks' hy (hgrown.own y hown _ List.mem_cons_self))

end

/-! ## Runs -/

/-- At a successful retry every fact that is held by others is replaced. -/
def Keeps (tables : CaseTables) (s : Store) : Event → Prop
  | .retried sessionId turnId profileId includeLegacyMemory (.answered reply) _ =>
    ∀ session previous,
      latestAnswer s sessionId turnId profileId includeLegacyMemory = .ok (session, previous) →
      failed reply.route = false →
        let turn := turnOf s session.id previous.userMessage reply
        let values := stated s turn (candidates tables turn reply)
        ∀ x ∈ s.facts, Held tables s previous.id values x → Replaced tables s previous.id values x
  | _ => True

theorem backed_opened (h : Wf s) (hb : Backed s) (session : ChatSession) :
    Backed { s with sessions := s.sessions ++ [session] } := by
  have hreads := reads_opened h session
  refine ⟨hb.known, fun x hx hsupported => ?_⟩
  obtain ⟨other, hother, hle⟩ := hb.kept x hx hsupported
  refine ⟨other, ?_, hle⟩
  rw [hreads.line, hreads.sameSlot hx]
  exact hother

theorem step_backed (h : Wf s) (hb : Backed s) {e : Event} (hfresh : Fresh tables s e)
    (hkeeps : Keeps tables s e) : Backed (step tables s e) := by
  have hstep := step_spec h hfresh
  generalize step tables s e = s' at hstep ⊢
  cases hstep with
  | nothing => exact hb
  | opened session hname hnew => exact backed_opened h hb session
  | replied session hsession message reply broken built hids hbuilt =>
    have hreplied := replied_persist tables h hsession message hids broken hbuilt
    obtain ⟨f, more, hgrown⟩ := grown_persist tables h hsession message hids broken hbuilt
    exact backed_replied h hb hids.turn.2 rfl hreplied hgrown
  | undone session hsession previous hlatest reply built hids hbuilt =>
    have hprevious := (mem_liveTurns.mp (List.mem_of_getLast? hlatest)).1
    have hreplied := replied_persist tables h hsession previous.userMessage hids none hbuilt
    obtain ⟨f, more, hgrown⟩ :=
      grown_persist tables h hsession previous.userMessage hids none hbuilt
    exact backed_undone h hb hids.turn.2 rfl hreplied hgrown (h.turnNames previous hprevious)
  | redone session previous reply again turnId profileId includeLegacyMemory he hlatest hroute
      hids =>
    obtain ⟨hsession, -, hlast⟩ := latestAnswer_ok hlatest
    have hprevious := (mem_liveTurns.mp (List.mem_of_getLast? hlast)).1
    subst he
    exact backed_redone h hb hsession hprevious (not_recovery hroute) hids
      (hkeeps session previous hlatest hroute)

/-- In a run whose ids are new, and whose retries replace what others hold, a
fact that a live turn stated or confirmed is always active, or a later one of
its slot is. -/
theorem lasts_along {events : List Event} (h : Along (Fresh tables) (step tables) {} events)
    (hkeeps : Along (Keeps tables) (step tables) {} events) {before : List Event}
    (hbefore : before <+: events) {fact : ConversationFact}
    (hfact : fact ∈ (after tables before).facts) (hsupported : Supported (after tables before) fact) :
    Lasts (after tables before) fact := by
  obtain ⟨rest, rfl⟩ := hbefore
  have hrun := (along_append.mp h).1.and (along_append.mp hkeeps).1
  have hinv : Wf (after tables before) ∧ Backed (after tables before) :=
    hrun.keeps (I := fun s => Wf s ∧ Backed s)
      (fun s e hs he => ⟨(step_keeps hs.1 he.1).1, step_backed hs.1 hs.2 he.1 he.2⟩)
      ⟨wf_start, ⟨by simp, by simp⟩⟩
  exact (lasts_iff hinv.1).mpr (hinv.2.kept fact hfact hsupported)

/-! ## A confirmed fact that is lost -/

/-- A reply that remembers a drink, or nothing. -/
def drink (turnId interpretationId factId : String) (time : Nat)
    (candidates : List ConversationMemoryCandidate) : Reply where
  turnId := turnId
  route := "RLM_CONVERSATION"
  interpretation := some (interpretationId, { confidence := 1, memoryCandidates := candidates })
  mint := fun _ => (factId, time)
  updatedAt := time

def tea : ConversationMemoryCandidate where
  kind := .preference
  subject := "drink"
  value := "tea"
  confidence := 1

def teaFact (supportingTurnIds : List String) (lastConfirmedAt : Option Nat) :
    ConversationFact where
  id := "F1"
  sessionId := "S"
  kind := .preference
  subject := "user.drink"
  predicate := "is"
  value := "tea"
  sourceTurnId := "T1"
  sourceInterpretationId := "I1"
  confidence := 1
  profileMemory := true
  supportingTurnIds := supportingTurnIds
  lastConfirmedAt := lastConfirmedAt
  createdAt := 1

def drinkRecord (id sessionId : String) (candidates : List ConversationMemoryCandidate) :
    ConversationInterpretationRecord where
  id := id
  sessionId := sessionId
  interpretation := { confidence := 1, memoryCandidates := candidates }

theorem extract_nothing (mint : Nat → String × Nat)
    (id sessionId route intent recordId : String) (ordinal : Nat)
    (interpretationId by' : Option String) :
    extract plain mint ⟨id, sessionId, ordinal, "Hello", route, intent, interpretationId, by'⟩
      ⟨recordId, sessionId, { confidence := 1, memoryCandidates := [] }⟩ = [] := by
  have hmatch : identityMatch "Hello" = none := by decide
  simp [extract, drafts, identityDraft, hmatch, objectiveDraft]

theorem extract_tea (mint : Nat → String × Nat) (id sessionId route intent recordId : String)
    (ordinal : Nat) (interpretationId by' : Option String) :
    extract plain mint ⟨id, sessionId, ordinal, "Hello", route, intent, interpretationId, by'⟩
      ⟨recordId, sessionId, { confidence := 1, memoryCandidates := [tea] }⟩ =
    [{ sessionId, kind := .preference, subject := "user.drink", predicate := "is", value := "tea"
       sourceTurnId := id, sourceInterpretationId := recordId, confidence := 1
       profileMemory := true, id := (mint 0).1, createdAt := (mint 0).2 }] := by
  have hmatch : identityMatch "Hello" = none := by decide
  have hsubject : dotted plain "drink" = "drink" := by decide
  have hpredicate : casefold plain (strip "is") = "is" := by decide
  have hvalue : strip "tea" = "tea" := by decide
  simp [extract, drafts, identityDraft, hmatch, objectiveDraft, tea, candidateDraft, hsubject,
    hpredicate, hvalue, distinct]

theorem profile_named : "P" ≠ "" := by decide

def room (id : String) (updatedAt : Nat) : ChatSession := ⟨id, "P", updatedAt, profile_named⟩

/-- Tea is stated in one session and confirmed in another one; then the first
answer is replaced by one that remembers nothing. -/
def confirmed : List Event :=
  [.opened (room "S" 0), .opened (room "R" 0),
    .said "S" "Hello" (.answered (drink "T1" "I1" "F1" 1 [tea])),
    .said "R" "Hello" (.answered (drink "T2" "I2" "F2" 2 [tea])),
    .retried "S" "T1" "P" false (.answered (drink "T3" "I3" "F3" 3 [])) fun _ => ("F4", 4)]

def rooms : Store := { sessions := [room "S" 0, room "R" 0] }

def teaStated : Store where
  sessions := [room "S" 1, room "R" 0]
  turns := [helloTurn "S" 1 "T1" "I1" none]
  interpretations := [drinkRecord "I1" "S" [tea]]
  facts := [teaFact [] none]

def teaConfirmed : Store where
  sessions := [room "S" 1, room "R" 2]
  turns := [helloTurn "S" 1 "T1" "I1" none, helloTurn "R" 1 "T2" "I2" none]
  interpretations := [drinkRecord "I1" "S" [tea], drinkRecord "I2" "R" [tea]]
  facts := [teaFact ["T2"] (some 2)]

def teaLost : Store where
  sessions := [room "S" 3, room "R" 2]
  turns := [helloTurn "S" 1 "T1" "I1" (some "T3"), helloTurn "R" 1 "T2" "I2" none,
    helloTurn "S" 2 "T3" "I3" none]
  interpretations := [drinkRecord "I1" "S" [tea], drinkRecord "I2" "R" [tea],
    drinkRecord "I3" "S" []]
  facts := [teaFact ["T2"] (some 2)]

theorem step_rooms :
    step plain (step plain {} (.opened (room "S" 0))) (.opened (room "R" 0)) = rooms := by
  simp [step, Store.saveChatSession, upsert, rooms, room]

theorem step_stated : step plain rooms
    (.said "S" "Hello" (.answered (drink "T1" "I1" "F1" 1 [tea]))) = teaStated := by
  simp [step, safeReply, persist, turnOf, Store.chatSessions, rooms, room, Store.chatTurns,
    candidates, Reply.record, drink, extract_tea, Store.saveChatTurn, upsert,
    Store.saveConversationInterpretation, commitFacts, commitFact, Commit.start,
    Store.activeAllFacts, Store.unreplaced, Store.globalItems, Store.globalSessions,
    Store.sessionIds, Store.supersededTurns, Store.conversationFacts, byKey, Commit.write,
    Store.saveConversationFact, Store.saveChatSession, teaStated, helloTurn, drinkRecord,
    teaFact, truthy, List.mergeSort, List.MergeSort.Internal.splitInTwo]

theorem step_confirmed : step plain teaStated
    (.said "R" "Hello" (.answered (drink "T2" "I2" "F2" 2 [tea]))) = teaConfirmed := by
  simp [step, safeReply, persist, turnOf, Store.chatSessions, teaStated, room, Store.chatTurns,
    candidates, Reply.record, drink, extract_tea, Store.saveChatTurn, upsert,
    Store.saveConversationInterpretation, commitFacts, commitFact, Commit.start,
    Store.activeAllFacts, Store.unreplaced, Store.globalItems, Store.globalSessions,
    Store.sessionIds, Store.supersededTurns, Store.conversationFacts, byKey, Commit.write,
    Store.saveConversationFact, Store.saveChatSession, teaConfirmed, helloTurn, drinkRecord,
    teaFact, truthy, List.mergeSort, List.MergeSort.Internal.splitInTwo, ConversationFact.key,
    confirm]

theorem step_lost : step plain teaConfirmed
    (.retried "S" "T1" "P" false (.answered (drink "T3" "I3" "F3" 3 [])) fun _ => ("F4", 4)) =
      teaLost := by
  simp [step, retryAnswer, latestAnswer, liveTurns, bind, Except.bind, pure, Except.pure, failed,
    supersede, recommit, commitWithAssociations, safeReply, persist, turnOf, Store.chatSessions,
    teaConfirmed, room, Store.chatTurns, candidates, Reply.record, drink, extract_nothing,
    Store.saveChatTurn, upsert, Store.saveConversationInterpretation, commitFacts, Commit.start,
    Store.saveChatSession, teaLost, helloTurn, drinkRecord, truthy, List.mergeSort,
    List.MergeSort.Internal.splitInTwo]

theorem latest_confirmed :
    (liveTurns teaConfirmed "S").getLast? = some (helloTurn "S" 1 "T1" "I1" none) := by
  simp [liveTurns, Store.chatTurns, teaConfirmed, helloTurn, truthy]

theorem fresh_confirmed : Along (Fresh plain) (step plain) {} confirmed := by
  refine ⟨?_, ?_, ?_, ?_, ?_, trivial⟩
  · simp [Fresh, room]
  · simp [Fresh, room, step, Store.saveChatSession, upsert]
  · rw [step_rooms]
    constructor <;> simp [rooms, turnOf, candidates, Reply.record, drink, extract_tea]
  · rw [step_rooms, step_stated]
    constructor <;> simp [teaStated, turnOf, candidates, Reply.record, drink, extract_tea,
      helloTurn, drinkRecord, teaFact]
  · rw [step_rooms, step_stated, step_confirmed]
    rintro previous hprevious
    obtain rfl := Option.some.inj (latest_confirmed.symm.trans hprevious)
    constructor <;> simp [teaConfirmed, turnOf, candidates, rebuilt, Reply.record, drink,
      extract_nothing, helloTurn, drinkRecord, teaFact]

/-- The turn that stated tea first has been superseded. -/
theorem tea_not_read : teaFact ["T2"] (some 2) ∉ teaLost.activeAllFacts (some "S") none := by
  intro hread
  refine (mem_globalItems.mp (List.mem_of_mem_filter hread)).2.2 ?_
  exact mem_supersededTurns.mpr ⟨helloTurn "S" 1 "T1" "I1" (some "T3"), by simp [teaLost], rfl,
    rfl, by simp [helloTurn, truthy]⟩

/-- Tea is confirmed by a live turn, but no fact about drinks is active. -/
theorem tea_is_lost : Along (Fresh plain) (step plain) {} confirmed ∧
    ¬ ∀ fact ∈ (after plain confirmed).facts, Supported (after plain confirmed) fact →
      Lasts (after plain confirmed) fact := by
  have hafter : after plain confirmed = teaLost := by
    simp [after, confirmed, step_rooms, step_stated, step_confirmed, step_lost]
  rw [hafter]
  refine ⟨fresh_confirmed, fun hall => ?_⟩
  have hfact : teaFact ["T2"] (some 2) ∈ teaLost.facts := List.mem_singleton_self _
  have hsupported : Supported teaLost (teaFact ["T2"] (some 2)) := by
    refine ⟨"T2", by simp [teaFact], helloTurn "R" 1 "T2" "I2" none, by simp [teaLost], rfl, ?_⟩
    simp [helloTurn, truthy]
  obtain ⟨other, hactive, -⟩ := hall _ hfact hsupported
  obtain rfl : other = teaFact ["T2"] (some 2) := List.mem_singleton.mp (active_stored hactive)
  exact tea_not_read hactive

/-- The retry whose answer states tea again. -/
def restating : Event :=
  .retried "S" "T1" "P" false (.answered (drink "T3" "I3" "F3" 3 [tea])) fun _ => ("F4", 4)

/-- Tea is stated and confirmed, and the first answer is replaced by one that
states it again. -/
def restated : List Event := confirmed.take 4 ++ [restating]

def teaRestated : Store where
  sessions := [room "S" 3, room "R" 2]
  turns := [helloTurn "S" 1 "T1" "I1" (some "T3"), helloTurn "R" 1 "T2" "I2" none,
    helloTurn "S" 2 "T3" "I3" none]
  interpretations := [drinkRecord "I1" "S" [tea], drinkRecord "I2" "R" [tea],
    drinkRecord "I3" "S" [tea]]
  facts := [teaFact ["T2", "T3"] (some 3),
    { teaFact [] none with
      id := "F4", sourceTurnId := "T3", sourceInterpretationId := "I3", createdAt := 4 }]

theorem after_confirmed : after plain (confirmed.take 4) = teaConfirmed := by
  simp [after, confirmed, step_rooms, step_stated, step_confirmed]

theorem step_restated : step plain teaConfirmed restating = teaRestated := by
  simp [restating, step, retryAnswer, latestAnswer, liveTurns, bind, Except.bind, pure, Except.pure,
    failed, supersede, recommit, commitWithAssociations, safeReply, persist, turnOf,
    Store.chatSessions, teaConfirmed, room, Store.chatTurns, candidates, Reply.record, drink,
    extract_tea, Store.saveChatTurn, upsert, Store.saveConversationInterpretation, commitFacts,
    commitFact, Commit.start, Store.activeAllFacts, Store.unreplaced, Store.globalItems, Store.globalSessions,
    Store.sessionIds, Store.supersededTurns, Store.conversationFacts, byKey, Commit.write,
    Store.saveConversationFact, ConversationFact.key, confirm, teaFact,
    Store.saveChatSession, teaRestated, helloTurn, drinkRecord, truthy, List.mergeSort,
    List.MergeSort.Internal.splitInTwo]

theorem fresh_restated : Along (Fresh plain) (step plain) {} restated := by
  have hrun := (along_append.mp (List.take_append_drop 4 confirmed ▸ fresh_confirmed)).1
  refine along_append.mpr ⟨hrun, ?_, trivial⟩
  change Fresh plain (after plain (confirmed.take 4)) restating
  rw [after_confirmed]
  rintro previous hprevious
  obtain rfl := Option.some.inj (latest_confirmed.symm.trans hprevious)
  constructor <;> simp [teaConfirmed, turnOf, candidates, rebuilt, Reply.record, drink,
    extract_tea, helloTurn, drinkRecord, teaFact]

theorem keeps_restated : Along (Keeps plain) (step plain) {} restated := by
  refine along_append.mpr ⟨⟨trivial, trivial, trivial, trivial, trivial⟩, ?_, trivial⟩
  change Keeps plain (after plain (confirmed.take 4)) restating
  rw [after_confirmed]
  intro session previous hlatest _ turn values x hx _
  obtain ⟨-, hid, hlast⟩ := latestAnswer_ok hlatest
  obtain rfl := Option.some.inj (latest_confirmed.symm.trans hlast)
  obtain rfl := List.mem_singleton.mp hx
  refine Or.inr ⟨"tea", mem_stated.mpr ?_, Or.inr fun other hother => ?_⟩
  · simp [turn, hid, turnOf, candidates, Reply.record, drink, extract_tea, helloTurn, slotFor, slotOf,
      slotAt, teaFact, ConversationFact.key]
  · obtain ⟨hline, hsource⟩ := List.mem_filter.mp hother.1
    obtain rfl := List.mem_singleton.mp (List.mem_of_mem_filter hline)
    simp [teaFact, helloTurn] at hsource

/-- Tea outlasts the replacement of the answer that stated it first: it is
stated again. -/
theorem tea_lasts_after_retry :
    Lasts (after plain restated) (teaFact ["T2", "T3"] (some 3)) := by
  have hafter : after plain restated = teaRestated := by
    rw [after, restated, List.foldl_append]
    change step plain (after plain (confirmed.take 4)) restating = teaRestated
    rw [after_confirmed, step_restated]
  refine lasts_along fresh_restated keeps_restated List.prefix_rfl ?_ ?_
  · rw [hafter]
    exact List.mem_cons_self
  · rw [hafter]
    refine ⟨"T2", by simp [teaFact], helloTurn "R" 1 "T2" "I2" none, by simp [teaRestated], rfl, ?_⟩
    simp [helloTurn, truthy]

end RlmGraph.Memory.Support
