import RlmGraph.Memory.Retries

/-! # Forks

A line is forked if two of its facts are current. A commit never mends a fork: a
fact that is added supersedes one fact at most and is current itself. A turn
that is withdrawn from between two others leaves a fork behind. -/
namespace RlmGraph.Memory.Forks

open RlmGraph.Lib.PyText RlmGraph.Lib.Rows RlmGraph.Lib.Corrections
open RlmGraph.Memory.Conversation RlmGraph.Memory.Facts RlmGraph.Memory.Chat
open RlmGraph.Memory.Lines RlmGraph.Memory.Commits RlmGraph.Memory.Turns RlmGraph.Memory.Retries

variable {s : Store} {turn : ChatTurn} {fact prior x : ConversationFact} {slot : Slot}
  {tables : CaseTables} {c : Commit}

/-! ## Current facts in a commit -/

theorem current_map {facts : List ConversationFact} {f : ConversationFact → ConversationFact}
    (halike : ∀ y, Alike y (f y)) :
    Current (facts.map f) x ↔ ∃ y, Current facts y ∧ f y = x := by
  unfold Current
  rw [List.mem_map]
  constructor
  · rintro ⟨⟨y, hy, rfl⟩, hnone⟩
    refine ⟨y, ⟨hy, fun other hother hrev => ?_⟩, rfl⟩
    refine hnone _ (List.mem_map_of_mem hother) ?_
    rw [(halike other).revises, hrev, (halike y).id]
  · rintro ⟨y, ⟨hy, hnone⟩, rfl⟩
    refine ⟨⟨y, hy, rfl⟩, fun other hother hrev => ?_⟩
    obtain ⟨z, hz, rfl⟩ := List.mem_map.mp hother
    rw [(halike z).revises, (halike y).id] at hrev
    exact hnone z hz hrev

/-- What a fact supersedes is in its own slot. -/
theorem revises_slot (h : Wf s) (hnew : Addable s fact) (hx : x ∈ s.facts)
    (hrev : fact.supersedesFactId = some x.id) : slotOf s x = slotOf s fact := by
  obtain ⟨prior, hprior, hid, hsame⟩ := hnew.revises _ hrev
  obtain rfl := h.fact_eq hprior hx hid
  exact hsame

/-- Nothing supersedes a fact that is new. -/
theorem unrevised (h : Wf s) (hnew : Addable s fact) :
    ∀ other ∈ s.facts ++ [fact], other.supersedesFactId ≠ some fact.id := by
  intro other hother hrev
  rcases List.mem_append.mp hother with hold | hself
  · obtain ⟨prior, hsub, hid, -⟩ := h.revises other hold _ hrev
    have hprior : prior ∈ s.facts := hsub.subset List.mem_cons_self
    exact hnew.isNew (List.mem_map.mpr ⟨prior, hprior, hid⟩)
  · obtain rfl := List.mem_singleton.mp hself
    obtain ⟨prior, hprior, hid, -⟩ := hnew.revises _ hrev
    exact hnew.isNew (List.mem_map.mpr ⟨prior, hprior, hid⟩)

/-- A valid fact that is added is current, and so are those it does not
supersede. -/
theorem current_added (h : Wf s) (hnew : Addable s fact) (hvalid : Valid s fact) (slot : Slot)
    (x : ConversationFact) :
    Current (line { s with facts := s.facts ++ [fact] } slot) x ↔
      (slotOf s fact = slot ∧ x = fact) ∨
        (Current (line s slot) x ∧ fact.supersedesFactId ≠ some x.id) := by
  rw [line_added]
  by_cases hslot : slotOf s fact = slot
  · rw [if_pos ⟨hvalid, hslot⟩]
    have hrevised := unrevised h hnew
    constructor
    · rintro ⟨hmem, hnone⟩
      rcases List.mem_append.mp hmem with hold | hself
      · refine Or.inr ⟨⟨hold, fun other hother => ?_⟩, ?_⟩
        · exact hnone other (List.mem_append_left _ hother)
        · exact hnone fact (List.mem_append_right _ (List.mem_singleton_self fact))
      · exact Or.inl ⟨hslot, List.mem_singleton.mp hself⟩
    · rintro (⟨-, rfl⟩ | ⟨⟨hmem, hnone⟩, hne⟩)
      · refine ⟨List.mem_append_right _ (List.mem_singleton_self x), fun other hother => ?_⟩
        refine hrevised other ?_
        rcases List.mem_append.mp hother with hold | hself
        · exact List.mem_append_left _ (mem_line.mp hold).1
        · exact List.mem_append_right _ hself
      · exact ⟨List.mem_append_left _ hmem, forall_mem_concat hnone hne⟩
  · rw [if_neg fun hboth => hslot hboth.2, List.append_nil]
    constructor
    · refine fun hcurrent => Or.inr ⟨hcurrent, fun hrev => hslot ?_⟩
      obtain ⟨hmem, -, hx⟩ := mem_line.mp hcurrent.1
      exact (revises_slot h hnew hmem hrev).symm.trans hx
    · rintro (⟨hself, -⟩ | ⟨hcurrent, -⟩)
      · exact absurd hself hslot
      · exact hcurrent

/-- What a commit finds by a key is current in the line of the key. -/
def Finding (turn : ChatTurn) (c : Commit) : Prop :=
  ∀ profileMemory key prior, Proper profileMemory key →
    c.index profileMemory key = some prior →
      Current (line c.store (slotAt c.store turn.sessionId profileMemory key)) prior

theorem finding_start (h : Wf s) (hs : Speaks s turn) :
    Finding turn (Commit.start s turn.sessionId) :=
  fun _ _ prior hproper hprior => (start_iff h hs hproper).1 prior hprior

theorem finding_commitFact (hc : Committing s turn c) (hs : Speaks s turn)
    (hfact : Candidate c.store turn fact) (hfinding : Finding turn c) :
    Finding turn (commitFact tables turn c fact) := by
  rcases commitFact_cases tables turn c fact with
    ⟨prior, hfound, -, heq | ⟨-, heq⟩⟩ | ⟨-, heq⟩
  · rw [heq]
    exact hfinding
  · rw [heq]
    have hprior := hc.holds _ _ prior hfact.proper hfound
    intro profileMemory key other hproper hother
    rw [index_confirm hc hfound hfact.proper hproper] at hother
    obtain ⟨y, hy, rfl⟩ := Option.map_eq_some_iff.mp hother
    rw [slotAt_write ⟨_, write_confirm hc hprior⟩, line_confirm hc hprior,
      current_map (touched_alike turn fact prior)]
    exact ⟨y, hfinding profileMemory key y hproper hy, rfl⟩
  · rw [heq]
    have hstore := store_added hc hs hfact
    have hcurrent := current_added hc.wf (addable_added hc hs hfact) (valid_added hc hs hfact)
    intro profileMemory key other hproper hother
    rw [index_write] at hother
    rw [slotAt_write ⟨_, hstore⟩, hstore, hcurrent, slotOf_added hfact]
    split at hother
    next h =>
      obtain rfl := Option.some.inj hother
      obtain ⟨rfl, rfl⟩ := h
      exact Or.inl ⟨rfl, rfl⟩
    next h =>
      have hfound := hfinding profileMemory key other hproper hother
      refine Or.inr ⟨hfound, fun hrev => h ?_⟩
      obtain ⟨hmem, -, hslot⟩ := mem_line.mp hfound.1
      have hsame := revises_slot hc.wf (addable_added hc hs hfact) hmem hrev
      rw [slotOf_added hfact] at hsame
      obtain ⟨hkind, hkey⟩ := kind_of_slot hsame
      obtain ⟨hkind', hkey'⟩ := kind_of_slot hslot
      exact ⟨hkind'.symm.trans hkind, hkey'.symm.trans hkey⟩

/-! ## Forked lines -/

/-- Two facts of the line are current. -/
def Forked (s : Store) (slot : Slot) : Prop :=
  ∃ a b, Current (line s slot) a ∧ Current (line s slot) b ∧ a.id ≠ b.id

/-- A line in which one fact at most is current. -/
def Single (s : Store) : Prop :=
  ∀ slot a b, Current (line s slot) a → Current (line s slot) b → a = b

theorem single_of_linked (h : Wf s) (hlinked : Linked s) : Single s := by
  intro slot a b ha hb
  rw [current_iff_last h hlinked] at ha hb
  exact Option.some.inj (ha.symm.trans hb)

theorem not_single (h : Forked s slot) : ¬ Single s := by
  obtain ⟨a, b, ha, hb, hne⟩ := h
  exact fun hsingle => hne (congrArg (·.id) (hsingle slot a b ha hb))

theorem forked_touched (h : Forked s slot) :
    Forked { s with facts := s.facts.map (touched turn fact prior) } slot := by
  obtain ⟨a, b, ha, hb, hne⟩ := h
  have halike := touched_alike turn fact prior
  refine ⟨touched turn fact prior a, touched turn fact prior b, ?_, ?_, fun hid => hne ?_⟩
  · rw [line_touched]
    exact (current_map halike).mpr ⟨a, ha, rfl⟩
  · rw [line_touched]
    exact (current_map halike).mpr ⟨b, hb, rfl⟩
  · rwa [(halike a).id, (halike b).id] at hid

theorem forked_added (h : Wf s) (hnew : Addable s fact) (hvalid : Valid s fact)
    (hforked : Forked s slot) : Forked { s with facts := s.facts ++ [fact] } slot := by
  obtain ⟨a, b, ha, hb, hne⟩ := hforked
  have hcurrent := current_added h hnew hvalid slot
  have hother : ∀ x, Current (line s slot) x → x.id ≠ fact.id := fun x hx hid =>
    hnew.isNew (List.mem_map.mpr ⟨x, (mem_line.mp hx.1).1, hid⟩)
  have hinslot : ∀ x, Current (line s slot) x → fact.supersedesFactId = some x.id →
      slotOf s fact = slot := by
    intro x hx hrev
    obtain ⟨hmem, -, hslot⟩ := mem_line.mp hx.1
    exact (revises_slot h hnew hmem hrev).symm.trans hslot
  by_cases hreva : fact.supersedesFactId = some a.id
  · have hrevb : fact.supersedesFactId ≠ some b.id := fun hrevb =>
      hne (Option.some.inj (hreva.symm.trans hrevb))
    refine ⟨fact, b, ?_, ?_, (hother b hb).symm⟩
    · exact (hcurrent fact).mpr (Or.inl ⟨hinslot a ha hreva, rfl⟩)
    · exact (hcurrent b).mpr (Or.inr ⟨hb, hrevb⟩)
  · by_cases hrevb : fact.supersedesFactId = some b.id
    · refine ⟨a, fact, ?_, ?_, hother a ha⟩
      · exact (hcurrent a).mpr (Or.inr ⟨ha, hreva⟩)
      · exact (hcurrent fact).mpr (Or.inl ⟨hinslot b hb hrevb, rfl⟩)
    · exact ⟨a, b, (hcurrent a).mpr (Or.inr ⟨ha, hreva⟩), (hcurrent b).mpr (Or.inr ⟨hb, hrevb⟩), hne⟩

theorem forked_commitFact (hc : Committing s turn c) (hs : Speaks s turn)
    (hfact : Candidate c.store turn fact) (h : Forked c.store slot) :
    Forked (commitFact tables turn c fact).store slot := by
  rcases commitFact_cases tables turn c fact with
    ⟨prior, hfound, -, heq | ⟨-, heq⟩⟩ | ⟨-, heq⟩
  · rw [heq]
    exact h
  · rw [heq, write_confirm hc (hc.holds _ _ prior hfact.proper hfound)]
    exact forked_touched h
  · rw [heq, store_added hc hs hfact]
    exact forked_added hc.wf (addable_added hc hs hfact) (valid_added hc hs hfact) h

/-- A commit leaves forks as they are. -/
theorem forked_commitFacts (tables : CaseTables) (h : Wf s) (hs : Speaks s turn)
    {facts : List ConversationFact} (hfacts : Candidates s turn facts) (hforked : Forked s slot) :
    Forked (commitFacts tables s turn facts) slot :=
  (commit_run tables [] hs (P := fun _ c => Forked c.store slot)
    (fun _ _ _ hc hfact hc' => forked_commitFact hc hs hfact hc')
    (committing_start h hs) hfacts hforked).2

/-- A turn that is withdrawn from between others leaves a fork. -/
theorem forked_supersede (h : Wf s) (hlinked : Linked s) (hturn : turn ∈ s.turns) {by' : String}
    (hby : by' ≠ "")
    (hbetween : Between (fun fact : ConversationFact => fact.sourceTurnId != turn.id)
      (line s slot)) : Forked (supersede s turn by') slot := by
  obtain ⟨before, a, b, rest, hline, ha, hb, z, hz, hkept⟩ := hbetween.split
  have hwf := wf_supersede h hturn by'
  have hnodup := h.nodup_line slot
  have hchain := hlinked slot
  rw [hline] at hnodup hchain
  have hfilter : line (supersede s turn by') slot =
      (line s slot).filter fun fact => fact.sourceTurnId != turn.id := line_supersede h hturn hby
  have ha' : a ∈ line s slot := by rw [hline]; simp
  have hleft : a ∈ line (supersede s turn by') slot := by
    rw [hfilter]
    exact List.mem_filter.mpr ⟨ha', ha⟩
  -- the one fact that supersedes `a` has been withdrawn
  have hcurrent : Current (line (supersede s turn by') slot) a := by
    refine ⟨hleft, fun other hother hrev => ?_⟩
    rw [hfilter] at hother
    obtain ⟨hin, hother⟩ := List.mem_filter.mp hother
    have hpair := h.later ha' hin hrev
    rw [hline] at hpair
    rcases List.mem_cons.mp (mem_of_pair_sublist hnodup hpair) with rfl | hrest
    · rw [hb] at hother
      cases hother
    · have htail : (b :: rest).IsChain fun a b => b.supersedesFactId = some a.id :=
        (List.isChain_append_cons_cons.mp hchain).2.2
      obtain ⟨y, hy, hlink⟩ := exists_link htail hrest
      have hid : y.id = a.id := Option.some.inj (hlink.symm.trans hrev)
      have hyline : y ∈ line s slot := by
        rw [hline]
        exact List.mem_append_right _ (List.mem_cons_of_mem a hy)
      obtain rfl := h.fact_eq (mem_line.mp hyline).1 (mem_line.mp ha').1 hid
      exact (List.nodup_cons.mp (List.nodup_append.mp hnodup).2.1).1 hy
  -- and the last that is kept comes after it
  have hzline : z ∈ rest.filter fun fact => fact.sourceTurnId != turn.id :=
    List.mem_filter.mpr ⟨hz, hkept⟩
  obtain ⟨last, hlast⟩ : ∃ last, (rest.filter fun fact => fact.sourceTurnId != turn.id).getLast? =
      some last := by
    cases hcase : (rest.filter fun fact => fact.sourceTurnId != turn.id).getLast? with
    | some last => exact ⟨last, rfl⟩
    | none =>
      rw [List.getLast?_eq_none_iff.mp hcase] at hzline
      cases hzline
  have hend : (line (supersede s turn by') slot).getLast? = some last := by
    have hsplit : before ++ a :: b :: rest = (before ++ [a, b]) ++ rest := by simp
    rw [hfilter, hline, hsplit, List.filter_append, List.getLast?_append, hlast, Option.some_or]
  refine ⟨a, last, hcurrent, hwf.current_last hend, fun hid => ?_⟩
  have hrest : last ∈ rest := List.mem_of_mem_filter (List.mem_of_getLast? hlast)
  have hlastline : last ∈ line s slot := by
    rw [hline]
    simp [hrest]
  obtain rfl := h.fact_eq (mem_line.mp ha').1 (mem_line.mp hlastline).1 hid
  exact (List.nodup_cons.mp (List.nodup_append.mp hnodup).2.1).1 (List.mem_cons_of_mem b hrest)

end RlmGraph.Memory.Forks
