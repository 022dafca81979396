import RlmGraph.Memory.Lines

/-! # What a commit does to the lines

A candidate whose value repeats the last of its line adds the turn to what
supports that fact; another one is appended to its line and supersedes the last.
All other lines stay as they are. -/
namespace RlmGraph.Memory.Commits

open RlmGraph.Lib.PyText RlmGraph.Lib.Rows RlmGraph.Lib.Corrections
open RlmGraph.Memory.Conversation RlmGraph.Memory.Facts RlmGraph.Memory.Chat
open RlmGraph.Memory.Lines

variable {s : Store} {turn : ChatTurn} {fact prior : ConversationFact} {slot : Slot}
  {tables : CaseTables}

/-! ## A fact that is confirmed -/

/-- Two versions of a fact, apart in what supports it. -/
def Alike (a b : ConversationFact) : Prop :=
  b = { a with supportingTurnIds := b.supportingTurnIds, lastConfirmedAt := b.lastConfirmedAt }

theorem Alike.refl (a : ConversationFact) : Alike a a := rfl

theorem Alike.trans {a b c : ConversationFact} (hab : Alike a b) (hbc : Alike b c) :
    Alike a c := by
  unfold Alike at *
  rw [hbc, hab]

theorem Alike.id {a b : ConversationFact} (h : Alike a b) : b.id = a.id := by rw [h]

theorem Alike.key {a b : ConversationFact} (h : Alike a b) : b.key = a.key := by
  rw [h]
  rfl

theorem Alike.value {a b : ConversationFact} (h : Alike a b) : b.value = a.value := by rw [h]

theorem Alike.source {a b : ConversationFact} (h : Alike a b) :
    b.sourceTurnId = a.sourceTurnId := by rw [h]

theorem Alike.revises {a b : ConversationFact} (h : Alike a b) :
    b.supersedesFactId = a.supersedesFactId := by rw [h]

theorem Alike.valid {a b : ConversationFact} (h : Alike a b) : Valid s b ↔ Valid s a := by
  rw [h]
  rfl

theorem Alike.sameSlot {a b : ConversationFact} (h : Alike a b) : slotOf s b = slotOf s a := by
  rw [h]
  rfl

theorem confirm_alike (turn : ChatTurn) (fact prior : ConversationFact) :
    Alike prior (confirm turn fact prior) := rfl

/-- The table after a fact of it has been confirmed. -/
def touched (turn : ChatTurn) (fact prior x : ConversationFact) : ConversationFact :=
  if x.id = prior.id then confirm turn fact x else x

theorem touched_alike (turn : ChatTurn) (fact prior x : ConversationFact) : Alike x (touched turn fact prior x) := by
  unfold touched
  split
  · exact confirm_alike turn fact x
  · exact Alike.refl x

theorem save_confirm (h : Wf s) (hprior : prior ∈ s.facts) :
    s.saveConversationFact (confirm turn fact prior) =
      { s with facts := s.facts.map (touched turn fact prior) } := by
  unfold Store.saveConversationFact
  congr 1
  have hmem : (confirm turn fact prior).id ∈ s.facts.map (·.id) :=
    List.mem_map_of_mem (f := (·.id)) hprior
  rw [upsert_old hmem]
  refine List.map_congr_left fun x hx => ?_
  change (if x.id = prior.id then _ else _) = _
  unfold touched
  split
  next hid => rw [h.fact_eq hx hprior hid]
  next => rfl

theorem line_map {f : ConversationFact → ConversationFact} (halike : ∀ x, Alike x (f x)) :
    line { s with facts := s.facts.map f } slot = (line s slot).map f := by
  unfold line
  rw [List.filter_map]
  congr 1
  refine List.filter_congr fun x _ => ?_
  have hvalid := (halike x).valid (s := s)
  have hslot := (halike x).sameSlot (s := s)
  change (decide (Valid s _) && (slotOf s _ == slot)) = _
  rw [hslot]
  congr 1
  exact decide_eq_decide.mpr hvalid

theorem line_touched : line { s with facts := s.facts.map (touched turn fact prior) } slot =
    (line s slot).map (touched turn fact prior) :=
  line_map (touched_alike turn fact prior)

theorem wf_touched (h : Wf s) : Wf { s with facts := s.facts.map (touched turn fact prior) } := by
  have halike := touched_alike turn fact prior
  refine { h with factIds := ?_, factNames := ?_, source := ?_, subject := ?_, revises := ?_ }
  · rw [List.map_map]
    have : (fun x => x.id) ∘ touched turn fact prior = (·.id) := funext fun x => (halike x).id
    rw [this]
    exact h.factIds
  · intro y hy
    obtain ⟨x, hx, rfl⟩ := List.mem_map.mp hy
    rw [(halike x).id]
    exact h.factNames x hx
  · intro y hy
    obtain ⟨x, hx, rfl⟩ := List.mem_map.mp hy
    rw [halike x]
    exact h.source x hx
  · intro y hy
    obtain ⟨x, hx, rfl⟩ := List.mem_map.mp hy
    rw [halike x]
    exact h.subject x hx
  · intro y hy id hid
    obtain ⟨x, hx, rfl⟩ := List.mem_map.mp hy
    rw [(halike x).revises] at hid
    obtain ⟨first, hsub, hfirst, hslot⟩ := h.revises x hx id hid
    refine ⟨touched turn fact prior first, hsub.map _, (halike first).id.trans hfirst, ?_⟩
    exact (halike first).sameSlot.trans (hslot.trans (halike x).sameSlot.symm)

/-! ## A fact that is added -/

/-- A fact that may be added: its id is new, it has a source, and it supersedes
nothing but a fact of its slot. -/
structure Addable (s : Store) (fact : ConversationFact) : Prop where
  name : fact.id ≠ ""
  isNew : fact.id ∉ s.facts.map (·.id)
  source : ∃ turn ∈ s.turns, turn.id = fact.sourceTurnId ∧ turn.sessionId = fact.sessionId
  subject : fact.subject.toList.head? = some (if fact.profileMemory then 'u' else 'c')
  revises : ∀ id, fact.supersedesFactId = some id →
    ∃ prior ∈ s.facts, prior.id = id ∧ slotOf s prior = slotOf s fact

theorem save_new (h : Addable s fact) :
    s.saveConversationFact fact = { s with facts := s.facts ++ [fact] } := by
  unfold Store.saveConversationFact
  rw [upsert_new h.isNew]

theorem line_added : line { s with facts := s.facts ++ [fact] } slot =
    line s slot ++ if Valid s fact ∧ slotOf s fact = slot then [fact] else [] := by
  unfold line
  rw [List.filter_append]
  congr 1
  by_cases h : Valid s fact ∧ slotOf s fact = slot
  · rw [if_pos h, List.filter_cons_of_pos]
    · rfl
    · exact Bool.and_eq_true_iff.mpr ⟨decide_eq_true h.1, beq_iff_eq.mpr h.2⟩
  · rw [if_neg h, List.filter_cons_of_neg]
    · rfl
    · intro hboth
      obtain ⟨hvalid, hslot⟩ := Bool.and_eq_true_iff.mp hboth
      exact h ⟨of_decide_eq_true hvalid, beq_iff_eq.mp hslot⟩

theorem wf_added (h : Wf s) (hnew : Addable s fact) :
    Wf { s with facts := s.facts ++ [fact] } := by
  refine { h with
    factIds := ?_
    factNames := forall_mem_concat h.factNames hnew.name
    source := forall_mem_concat h.source hnew.source
    subject := forall_mem_concat h.subject hnew.subject
    revises := forall_mem_concat (fun x hx id hid => ?_) fun id hid => ?_ }
  · rw [List.map_append, List.map_singleton, List.nodup_append]
    refine ⟨h.factIds, List.nodup_singleton _, ?_⟩
    intro a ha b hb hab
    exact hnew.isNew (List.mem_singleton.mp hb ▸ hab ▸ ha)
  · obtain ⟨first, hsub, hfirst⟩ := h.revises x hx id hid
    exact ⟨first, hsub.trans (List.sublist_append_left ..), hfirst⟩
  · obtain ⟨first, hfirst, hrest⟩ := hnew.revises id hid
    exact ⟨first, (List.singleton_sublist.mpr hfirst).append (List.Sublist.refl [fact]), hrest⟩

/-! ## One candidate -/

/-- What a kind of fact is about starts with the letter of its kind. -/
def Proper (profileMemory : Bool) (key : Key) : Prop :=
  key.1.toList.head? = some (if profileMemory then 'u' else 'c')

/-- Values that `casefold` makes equal. -/
def Same (tables : CaseTables) (a b : String) : Prop := casefold tables a = casefold tables b

instance (tables : CaseTables) : DecidableRel (Same tables) :=
  fun _ _ => inferInstanceAs (Decidable (_ = _))

theorem same_equivalence (tables : CaseTables) : Equivalence (Same tables) :=
  ⟨fun _ => rfl, fun h => h.symm, fun h h' => h.trans h'⟩

/-- The slot of a candidate. -/
abbrev slotFor (s : Store) (turn : ChatTurn) (fact : ConversationFact) : Slot :=
  slotAt s turn.sessionId fact.profileMemory fact.key

/-- While a turn is committed: the tables but for the facts are those it started
with, and what is found by a key is in its line. -/
structure Committing (s : Store) (turn : ChatTurn) (c : Commit) : Prop where
  wf : Wf c.store
  tables : c.store = { s with facts := c.store.facts }
  holds : ∀ profileMemory key prior, Proper profileMemory key →
    c.index profileMemory key = some prior →
      prior ∈ line c.store (slotAt c.store turn.sessionId profileMemory key)

/-- A candidate of the turn, with a new id. -/
structure Candidate (s : Store) (turn : ChatTurn) (fact : ConversationFact) : Prop
    extends Extracted turn fact where
  name : fact.id ≠ ""
  isNew : fact.id ∉ s.facts.map (·.id)

theorem Candidate.proper (h : Candidate s turn fact) : Proper fact.profileMemory fact.key :=
  h.subject

variable {c : Commit}

/-- A candidate as it is saved: it supersedes what is found. -/
def added (c : Commit) (fact : ConversationFact) : ConversationFact :=
  { fact with
    supersedesFactId :=
      ((c.index fact.profileMemory fact.key).map (·.id)).or fact.supersedesFactId }

/-- What a candidate does: it repeats the fact that is found, which gains a
supporting turn or stays as it is, or it is saved. -/
theorem commitFact_cases (tables : CaseTables) (turn : ChatTurn) (c : Commit)
    (fact : ConversationFact) :
    (∃ prior, c.index fact.profileMemory fact.key = some prior ∧
        Same tables prior.value fact.value ∧ (commitFact tables turn c fact = c ∨
          (turn.id ≠ prior.sourceTurnId ∧
            commitFact tables turn c fact = c.write (confirm turn fact prior)))) ∨
      ((∀ prior, c.index fact.profileMemory fact.key = some prior →
          ¬ Same tables prior.value fact.value) ∧
        commitFact tables turn c fact = c.write (added c fact)) := by
  unfold commitFact added Same
  cases hfound : c.index fact.profileMemory fact.key with
  | none => exact Or.inr ⟨by simp, rfl⟩
  | some prior =>
    by_cases hsame : casefold tables prior.value = casefold tables fact.value
    · refine Or.inl ⟨prior, rfl, hsame, ?_⟩
      dsimp only
      rw [if_pos hsame]
      split
      next h => exact Or.inr ⟨h.1, rfl⟩
      next => exact Or.inl rfl
    · refine Or.inr ⟨?_, ?_⟩
      · rintro _ ⟨⟩
        exact hsame
      · dsimp only
        rw [if_neg hsame]
        rfl

/-- The turn is in the table, and has not been superseded. -/
structure Speaks (s : Store) (turn : ChatTurn) : Prop where
  known : turn ∈ s.turns
  live : turn.id ∉ s.supersededTurns turn.sessionId

theorem index_write (c : Commit) (fact : ConversationFact) (profileMemory : Bool) (key : Key) :
    (c.write fact).index profileMemory key =
      if profileMemory = fact.profileMemory ∧ key = fact.key then some fact
      else c.index profileMemory key := by
  unfold Commit.write
  by_cases hp : profileMemory = fact.profileMemory
  · subst hp
    by_cases hk : key = fact.key
    · simp [hk]
    · simp [hk]
  · simp [hp]

/-- Facts in the slot of a candidate are of its kind and about the same. -/
theorem kind_of_slot {profileMemory : Bool} {key : Key} {sessionId : String}
    (h : slotOf s prior = slotAt s sessionId profileMemory key) :
    prior.profileMemory = profileMemory ∧ prior.key = key := by
  have hkey : prior.key = key := congrArg Slot.key h
  refine ⟨?_, hkey⟩
  have hscope := congrArg Slot.scope h
  cases hp : prior.profileMemory <;> cases profileMemory <;>
    simp [slotOf, slotAt, hp] at hscope ⊢

/-- The store after the fact that is found has been confirmed. -/
theorem write_confirm (hc : Committing s turn c)
    (hprior : prior ∈ line c.store (slotFor c.store turn fact)) :
    (c.write (confirm turn fact prior)).store =
      { c.store with facts := c.store.facts.map (touched turn fact prior) } :=
  save_confirm hc.wf (mem_line.mp hprior).1

/-- A candidate is saved in its line. -/
theorem addable_added (hc : Committing s turn c) (hs : Speaks s turn)
    (hfact : Candidate c.store turn fact) : Addable c.store (added c fact) where
  name := hfact.name
  isNew := hfact.isNew
  source := by
    refine ⟨turn, ?_, hfact.source.symm, hfact.session.symm⟩
    rw [hc.tables]
    exact hs.known
  subject := hfact.subject
  revises id hid := by
    have hnone : fact.supersedesFactId = none := hfact.replacesNone
    unfold added at hid
    dsimp only at hid
    rw [hnone, Option.or_none] at hid
    obtain ⟨prior, hprior, rfl⟩ := Option.map_eq_some_iff.mp hid
    obtain ⟨hmem, -, hslot⟩ := mem_line.mp (hc.holds _ _ prior hfact.proper hprior)
    refine ⟨prior, hmem, rfl, hslot.trans ?_⟩
    unfold slotOf
    rw [show (added c fact).sessionId = turn.sessionId from hfact.session]
    rfl

theorem slotOf_added (hfact : Candidate c.store turn fact) :
    slotOf c.store (added c fact) = slotFor c.store turn fact := by
  unfold slotOf
  rw [show (added c fact).sessionId = turn.sessionId from hfact.session]
  rfl

theorem valid_added (hc : Committing s turn c) (hs : Speaks s turn)
    (hfact : Candidate c.store turn fact) : Valid c.store (added c fact) := by
  unfold Valid
  rw [show (added c fact).sessionId = turn.sessionId from hfact.session,
    show (added c fact).sourceTurnId = turn.id from hfact.source, hc.tables]
  exact hs.live

theorem line_write_added (hc : Committing s turn c) (hs : Speaks s turn)
    (hfact : Candidate c.store turn fact) :
    line (c.write (added c fact)).store slot =
      line c.store slot ++ if slotFor c.store turn fact = slot then [added c fact] else [] := by
  have hstore : (c.write (added c fact)).store =
      { c.store with facts := c.store.facts ++ [added c fact] } :=
    save_new (addable_added hc hs hfact)
  rw [hstore, line_added, slotOf_added hfact]
  simp [valid_added hc hs hfact]

/-- The facts a key finds after one of them has been confirmed. -/
theorem index_confirm (hc : Committing s turn c)
    (hfound : c.index fact.profileMemory fact.key = some prior)
    (hproper : Proper fact.profileMemory fact.key) {profileMemory : Bool} {key : Key}
    (hkey : Proper profileMemory key) :
    (c.write (confirm turn fact prior)).index profileMemory key =
      (c.index profileMemory key).map (touched turn fact prior) := by
  have hprior := hc.holds _ _ prior hproper hfound
  obtain ⟨hmem, -, hslot⟩ := mem_line.mp hprior
  obtain ⟨hkind, hsame⟩ := kind_of_slot hslot
  rw [index_write]
  split
  next h =>
    have hk : profileMemory = prior.profileMemory := h.1
    have hk' : key = prior.key := h.2
    rw [hk, hk', hkind, hsame, hfound]
    simp [touched]
  next h =>
    cases hx : c.index profileMemory key with
    | none => rfl
    | some x =>
      have hne : x.id ≠ prior.id := by
        intro hid
        obtain ⟨hmem', -, hslot'⟩ := mem_line.mp (hc.holds profileMemory key x hkey hx)
        obtain rfl := hc.wf.fact_eq hmem' hmem hid
        obtain ⟨hkind', hkey'⟩ := kind_of_slot hslot'
        exact h ⟨hkind'.symm, hkey'.symm⟩
      simp [touched, hne]

theorem line_confirm (hc : Committing s turn c)
    (hprior : prior ∈ line c.store (slotFor c.store turn fact)) :
    line (c.write (confirm turn fact prior)).store slot =
      (line c.store slot).map (touched turn fact prior) := by
  rw [write_confirm hc hprior]
  exact line_touched

theorem slotAt_write (hstore : ∃ facts, (c.write fact).store = { c.store with facts := facts })
    (sessionId : String) (profileMemory : Bool) (key : Key) :
    slotAt (c.write fact).store sessionId profileMemory key =
      slotAt c.store sessionId profileMemory key := by
  obtain ⟨facts, hfacts⟩ := hstore
  rw [hfacts]
  rfl

theorem committing_confirm (hc : Committing s turn c)
    (hfound : c.index fact.profileMemory fact.key = some prior)
    (hproper : Proper fact.profileMemory fact.key) :
    Committing s turn (c.write (confirm turn fact prior)) := by
  have hprior := hc.holds _ _ prior hproper hfound
  have hstore := write_confirm hc hprior
  refine ⟨?_, ?_, fun profileMemory key other hkey hother => ?_⟩
  · rw [hstore]
    exact wf_touched hc.wf
  · rw [hstore, hc.tables]
  · rw [index_confirm hc hfound hproper hkey] at hother
    obtain ⟨x, hx, rfl⟩ := Option.map_eq_some_iff.mp hother
    rw [slotAt_write ⟨_, hstore⟩, line_confirm hc hprior]
    exact List.mem_map_of_mem (hc.holds profileMemory key x hkey hx)

theorem store_added (hc : Committing s turn c) (hs : Speaks s turn)
    (hfact : Candidate c.store turn fact) : (c.write (added c fact)).store =
      { c.store with facts := c.store.facts ++ [added c fact] } :=
  save_new (addable_added hc hs hfact)

theorem committing_added (hc : Committing s turn c) (hs : Speaks s turn)
    (hfact : Candidate c.store turn fact) : Committing s turn (c.write (added c fact)) := by
  have hstore := store_added hc hs hfact
  refine ⟨?_, ?_, fun profileMemory key other hkey hother => ?_⟩
  · rw [hstore]
    exact wf_added hc.wf (addable_added hc hs hfact)
  · rw [hstore, hc.tables]
  · rw [index_write] at hother
    rw [slotAt_write ⟨_, hstore⟩, line_write_added hc hs hfact]
    split at hother
    next h =>
      obtain rfl := Option.some.inj hother
      obtain ⟨rfl, rfl⟩ := h
      exact List.mem_append_right _ (by simp [slotFor, added, ConversationFact.key])
    next h => exact List.mem_append_left _ (hc.holds profileMemory key other hkey hother)

theorem Committing.step (hc : Committing s turn c) (tables : CaseTables) (hs : Speaks s turn)
    (hfact : Candidate c.store turn fact) :
    Committing s turn (commitFact tables turn c fact) := by
  rcases commitFact_cases tables turn c fact with
    ⟨prior, hfound, -, heq | ⟨-, heq⟩⟩ | ⟨-, heq⟩
  · rw [heq]
    exact hc
  · rw [heq]
    exact committing_confirm hc hfound hfact.proper
  · rw [heq]
    exact committing_added hc hs hfact

/-! ## All candidates -/

theorem mem_byKey {facts : List ConversationFact} {key : Key}
    (h : byKey facts key = some prior) : prior ∈ facts ∧ prior.key = key := by
  have hmem := List.mem_filter.mp (List.mem_of_getLast? h)
  exact ⟨hmem.1, by simpa using hmem.2⟩

theorem byKey_none {facts : List ConversationFact} {key : Key} (h : byKey facts key = none) :
    ∀ fact ∈ facts, fact.key ≠ key := by
  have hnil := List.getLast?_eq_none_iff.mp h
  intro fact hfact hkey
  have := List.filter_eq_nil_iff.mp hnil fact hfact
  simp [hkey] at this

/-- A fact of the kind its key starts with. -/
theorem Wf.kind (h : Wf s) (hfact : fact ∈ s.facts) {profileMemory : Bool}
    (hproper : Proper profileMemory fact.key) : fact.profileMemory = profileMemory := by
  have heq := (h.subject fact hfact).symm.trans hproper
  cases hp : fact.profileMemory <;> cases profileMemory <;> simp [hp] at heq ⊢

/-- What a commit finds by a key is current in the line of the key. -/
theorem start_iff (h : Wf s) (hs : Speaks s turn) {profileMemory : Bool} {key : Key}
    (hproper : Proper profileMemory key) :
    (∀ prior, (Commit.start s turn.sessionId).index profileMemory key = some prior →
      Current (line s (slotAt s turn.sessionId profileMemory key)) prior) ∧
    ((Commit.start s turn.sessionId).index profileMemory key = none →
      ∀ prior, ¬ Current (line s (slotAt s turn.sessionId profileMemory key)) prior) := by
  cases profileMemory with
  | false =>
    refine ⟨fun prior hprior => ?_, fun hnone prior hcurrent => ?_⟩
    · obtain ⟨hactive, rfl⟩ := mem_byKey hprior
      have hmem : prior ∈ s.facts :=
        (mem_globalItems.mp (List.mem_of_mem_filter hactive)).1
      exact (active_session_iff h).mp ⟨hactive, Wf.kind h hmem hproper⟩
    · have hkey : prior.key = key := congrArg Slot.key (mem_line.mp hcurrent.1).2.2
      obtain ⟨hactive, -⟩ := (active_session_iff h).mpr (by rw [hkey]; exact hcurrent)
      exact byKey_none hnone prior hactive hkey
  | true =>
    obtain ⟨session, hsession, hid⟩ := h.home turn hs.known
    have hslot : slotAt s turn.sessionId true key = ⟨.profile session.profileId, key⟩ := by
      simp [slotAt, ← hid, profileOf_eq h hsession]
    rw [hslot]
    refine ⟨fun prior hprior => ?_, fun hnone prior hcurrent => ?_⟩
    · obtain ⟨hactive, rfl⟩ := mem_byKey hprior
      obtain ⟨hactive, hkind⟩ := List.mem_filter.mp hactive
      rw [← hid] at hactive
      exact (active_profile_iff h hsession).mp ⟨hactive, hkind⟩
    · have hkey : prior.key = key := congrArg Slot.key (mem_line.mp hcurrent.1).2.2
      obtain ⟨hactive, hkind⟩ :=
        (active_profile_iff h hsession).mpr (by rw [hkey]; exact hcurrent)
      refine byKey_none hnone prior (List.mem_filter.mpr ⟨?_, hkind⟩) hkey
      rwa [← hid]

theorem committing_start (h : Wf s) (hs : Speaks s turn) :
    Committing s turn (Commit.start s turn.sessionId) where
  wf := h
  tables := rfl
  holds _ _ prior hproper hprior := ((start_iff h hs hproper).1 prior hprior).1

/-- The facts that are there after a candidate were there, or have its id. -/
theorem ids_commitFact (hc : Committing s turn c) (hs : Speaks s turn)
    (hfact : Candidate c.store turn fact) {id : String}
    (hid : id ∈ (commitFact tables turn c fact).store.facts.map (·.id)) :
    id ∈ c.store.facts.map (·.id) ∨ id = fact.id := by
  rcases commitFact_cases tables turn c fact with
    ⟨prior, hfound, -, heq | ⟨-, heq⟩⟩ | ⟨-, heq⟩
  · rw [heq] at hid
    exact Or.inl hid
  · rw [heq, write_confirm hc (hc.holds _ _ prior hfact.proper hfound), List.map_map] at hid
    have : (fun x => x.id) ∘ touched turn fact prior = (·.id) :=
      funext fun x => (touched_alike turn fact prior x).id
    rw [this] at hid
    exact Or.inl hid
  · rw [heq, store_added hc hs hfact, List.map_append] at hid
    rcases List.mem_append.mp hid with hid | hid
    · exact Or.inl hid
    · exact Or.inr (List.mem_singleton.mp hid)

/-- The candidates of a turn, with ids of their own. -/
structure Candidates (s : Store) (turn : ChatTurn) (facts : List ConversationFact) : Prop where
  each : ∀ fact ∈ facts, Candidate s turn fact
  distinct : (facts.map (·.id)).Nodup

theorem Candidates.tail {facts : List ConversationFact} (h : Candidates c.store turn (fact :: facts))
    (hc : Committing s turn c) (hs : Speaks s turn) :
    Candidates (commitFact tables turn c fact).store turn facts := by
  have hfact := h.each fact List.mem_cons_self
  obtain ⟨hnot, hnodup⟩ := List.nodup_cons.mp h.distinct
  refine ⟨fun x hx => ?_, hnodup⟩
  have hx' := h.each x (List.mem_cons_of_mem _ hx)
  refine { hx' with isNew := fun hid => ?_ }
  rcases ids_commitFact hc hs hfact hid with hold | hsame
  · exact hx'.isNew hold
  · have hmem : x.id ∈ facts.map (·.id) := List.mem_map_of_mem (f := (·.id)) hx
    rw [hsame] at hmem
    exact hnot hmem

/-- What each candidate keeps, a commit keeps; `P` knows which have been
committed. -/
theorem commit_run (tables : CaseTables) {P : List ConversationFact → Commit → Prop}
    {facts : List ConversationFact} (done : List ConversationFact) (hs : Speaks s turn)
    (hstep : ∀ done c fact, Committing s turn c → Candidate c.store turn fact → P done c →
      P (done ++ [fact]) (commitFact tables turn c fact))
    (hc : Committing s turn c) (hfacts : Candidates c.store turn facts) (hP : P done c) :
    Committing s turn (facts.foldl (commitFact tables turn) c) ∧
      P (done ++ facts) (facts.foldl (commitFact tables turn) c) := by
  induction facts generalizing done c with
  | nil => exact ⟨hc, by rwa [List.append_nil]⟩
  | cons fact facts ih =>
    have hfact := hfacts.each fact List.mem_cons_self
    rw [List.foldl_cons, List.append_cons]
    exact ih (done ++ [fact]) (hc.step tables hs hfact) (hfacts.tail hc hs) (hstep done c fact hc hfact hP)

/-! ## Linked lines -/

/-- Who said what in a line. -/
def said (s : Store) (slot : Slot) : List (String × String) :=
  (line s slot).map fun fact => (fact.sourceTurnId, fact.value)

/-- While the lines are linked, what is found by a key is the last of its line. -/
structure Tracking (s : Store) (turn : ChatTurn) (c : Commit) : Prop
    extends Committing s turn c where
  linked : Linked c.store
  last : ∀ profileMemory key, Proper profileMemory key → c.index profileMemory key =
    (line c.store (slotAt c.store turn.sessionId profileMemory key)).getLast?

theorem tracking_start (h : Wf s) (hlinked : Linked s) (hs : Speaks s turn) :
    Tracking s turn (Commit.start s turn.sessionId) := by
  refine { committing_start h hs with linked := hlinked, last := fun profileMemory key hproper => ?_ }
  obtain ⟨hsome, hnone⟩ := start_iff h hs hproper
  cases hfound : (Commit.start s turn.sessionId).index profileMemory key with
  | some prior => exact ((current_iff_last h hlinked).mp (hsome prior hfound)).symm
  | none =>
    symm
    rw [List.getLast?_eq_none_iff]
    by_contra hne
    obtain ⟨fact, hcurrent⟩ := h.exists_current hne
    exact hnone hfound fact hcurrent

theorem said_touched : said { s with facts := s.facts.map (touched turn fact prior) } slot =
    said s slot := by
  unfold said
  rw [line_touched, List.map_map]
  refine List.map_congr_left fun x _ => ?_
  have halike := touched_alike turn fact prior x
  simp [halike.source, halike.value]

theorem linked_touched (h : Linked s) :
    Linked { s with facts := s.facts.map (touched turn fact prior) } := by
  intro slot
  rw [line_touched, List.isChain_map]
  refine (h slot).imp fun a b hab => ?_
  rw [(touched_alike turn fact prior b).revises, (touched_alike turn fact prior a).id]
  exact hab

theorem tracking_confirm (hc : Tracking s turn c)
    (hfound : c.index fact.profileMemory fact.key = some prior)
    (hproper : Proper fact.profileMemory fact.key) :
    Tracking s turn (c.write (confirm turn fact prior)) := by
  have hprior := hc.holds _ _ prior hproper hfound
  have hstore := write_confirm hc.toCommitting hprior
  refine { committing_confirm hc.toCommitting hfound hproper with
    linked := ?_, last := fun profileMemory key hkey => ?_ }
  · rw [hstore]
    exact linked_touched hc.linked
  · rw [slotAt_write ⟨_, hstore⟩, line_confirm hc.toCommitting hprior, List.getLast?_map,
      ← hc.last profileMemory key hkey, index_confirm hc.toCommitting hfound hproper hkey]

theorem tracking_added (hc : Tracking s turn c) (hs : Speaks s turn)
    (hfact : Candidate c.store turn fact) : Tracking s turn (c.write (added c fact)) := by
  have hstore := store_added hc.toCommitting hs hfact
  refine { committing_added hc.toCommitting hs hfact with
    linked := fun slot => ?_, last := fun profileMemory key hkey => ?_ }
  · rw [line_write_added hc.toCommitting hs hfact]
    split
    next h =>
      -- the new fact supersedes what was found, the last of the line
      refine (hc.linked slot).append (List.isChain_singleton _) ?_
      intro last hlast first hfirst
      obtain rfl : added c fact = first := by simpa using hfirst
      rw [← h, ← hc.last _ _ hfact.proper] at hlast
      simp [added, Option.mem_def.mp hlast]
    next => simpa using hc.linked slot
  · rw [slotAt_write ⟨_, hstore⟩, line_write_added hc.toCommitting hs hfact, index_write]
    split
    next h =>
      have hkind : profileMemory = fact.profileMemory := h.1
      have hkey : key = fact.key := h.2
      rw [hkind, hkey, if_pos rfl, List.getLast?_concat]
    next h =>
      have hne : slotFor c.store turn fact ≠ slotAt c.store turn.sessionId profileMemory key := by
        intro hslot
        have hadded := slotOf_added hfact
        rw [hslot] at hadded
        obtain ⟨hkind, hkey⟩ := kind_of_slot hadded
        exact h ⟨hkind.symm, hkey.symm⟩
      rw [if_neg hne, List.append_nil, hc.last profileMemory key hkey]

/-- A candidate is said in its line. -/
theorem Tracking.step (hc : Tracking s turn c) (tables : CaseTables) (hs : Speaks s turn)
    (hfact : Candidate c.store turn fact) :
    Tracking s turn (commitFact tables turn c fact) ∧ ∀ slot,
      said (commitFact tables turn c fact).store slot =
        if slotFor c.store turn fact = slot then
          say (Same tables) turn.id (said c.store slot) fact.value
        else said c.store slot := by
  have hfind := hc.last _ _ hfact.proper
  rcases commitFact_cases tables turn c fact with
    ⟨prior, hfound, hsame, hcase⟩ | ⟨hother, heq⟩
  · have hlast : (line c.store (slotFor c.store turn fact)).getLast? = some prior := by
      rw [← hfind, hfound]
    have hsaid : ∀ slot, said c.store slot = if slotFor c.store turn fact = slot then
        say (Same tables) turn.id (said c.store slot) fact.value else said c.store slot := by
      intro slot
      split
      next h =>
        rw [← h]
        simp [say, said, hlast, hsame]
      next => rfl
    rcases hcase with heq | ⟨-, heq⟩
    · rw [heq]
      exact ⟨hc, hsaid⟩
    · rw [heq]
      refine ⟨tracking_confirm hc hfound hfact.proper, fun slot => ?_⟩
      rw [write_confirm hc.toCommitting (hc.holds _ _ prior hfact.proper hfound), said_touched]
      exact hsaid slot
  · rw [heq]
    refine ⟨tracking_added hc hs hfact, fun slot => ?_⟩
    have hsource : fact.sourceTurnId = turn.id := hfact.source
    unfold said
    rw [line_write_added hc.toCommitting hs hfact, List.map_append]
    split
    next h =>
      rw [← h]
      cases hfound : c.index fact.profileMemory fact.key with
      | none =>
        have hnil : line c.store (slotFor c.store turn fact) = [] := by
          rw [hfound] at hfind
          exact List.getLast?_eq_none_iff.mp hfind.symm
        simp [say, hnil, hsource, added]
      | some prior =>
        have hlast : (line c.store (slotFor c.store turn fact)).getLast? = some prior := by
          rw [← hfind, hfound]
        simp [say, hlast, hother prior hfound, hsource, added]
    next => simp

/-- The values that are stated for a slot. -/
def stated (s : Store) (turn : ChatTurn) (facts : List ConversationFact) (slot : Slot) :
    List String :=
  (facts.filter (slotFor s turn · == slot)).map (·.value)

/-- What is stated depends on what the facts say only. -/
theorem stated_eq (s : Store) (turn : ChatTurn) (facts : List ConversationFact) (slot : Slot) :
    stated s turn facts slot = ((facts.map (·.content)).filter fun x =>
      slotAt s turn.sessionId x.1 x.2.1 == slot).map (·.2.2) := by
  unfold stated
  rw [List.filter_map, List.map_map]
  rfl

/-- A commit keeps the tables as they should be, and adds facts of its own. -/
theorem committed (tables : CaseTables) (h : Wf s) (hs : Speaks s turn)
    {facts : List ConversationFact} (hfacts : Candidates s turn facts) :
    let s' := commitFacts tables s turn facts
    Wf s' ∧ s' = { s with facts := s'.facts } ∧ ∀ id ∈ s'.facts.map (·.id),
      id ∈ s.facts.map (·.id) ∨ id ∈ facts.map (·.id) := by
  have hrun := commit_run tables [] hs
    (P := fun done c => ∀ id ∈ c.store.facts.map (·.id),
      id ∈ s.facts.map (·.id) ∨ id ∈ done.map (·.id))
    (fun done c fact hc hfact hP id hid => by
      rcases ids_commitFact hc hs hfact hid with hold | hsame
      · rcases hP id hold with hs' | hdone
        · exact Or.inl hs'
        · exact Or.inr (by rw [List.map_append]; exact List.mem_append_left _ hdone)
      · exact Or.inr (by simp [hsame]))
    (committing_start h hs) hfacts (fun id hid => Or.inl hid)
  exact ⟨hrun.1.wf, hrun.1.tables, hrun.2⟩

/-- A commit says its values in linked lines, one after the other. -/
theorem said_committed (tables : CaseTables) (h : Wf s) (hlinked : Linked s) (hs : Speaks s turn)
    {facts : List ConversationFact} (hfacts : Candidates s turn facts) :
    Linked (commitFacts tables s turn facts) ∧ ∀ slot,
      said (commitFacts tables s turn facts) slot =
        sayAll (Same tables) turn.id (stated s turn facts slot) (said s slot) := by
  have hrun := commit_run tables [] hs
    (P := fun done c => Tracking s turn c ∧ ∀ slot, said c.store slot =
      sayAll (Same tables) turn.id (stated s turn done slot) (said s slot))
    (fun done c fact hc hfact hP => by
      obtain ⟨hstep, hsaid⟩ := hP.1.step tables hs hfact
      refine ⟨hstep, fun slot => ?_⟩
      have hslot : slotFor c.store turn fact = slotFor s turn fact := by
        rw [slotFor, hc.tables]
        rfl
      rw [hsaid slot, hP.2 slot, hslot, stated, stated, List.filter_append]
      by_cases heq : slotFor s turn fact = slot
      · simp [heq, sayAll]
      · simp [heq, sayAll])
    (committing_start h hs) hfacts ⟨tracking_start h hlinked hs, fun _ => rfl⟩
  exact ⟨hrun.2.1.linked, hrun.2.2⟩

end RlmGraph.Memory.Commits
