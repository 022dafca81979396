import RlmGraph.Lib.Corrections
import RlmGraph.Memory.Chat

/-! # Lines of facts

The valid facts about one thing, in the session or in the profile they belong
to, form a line in the order they were saved in. A fact is active iff nothing in
its line supersedes it, and the last of a line always is. If each fact of a line
supersedes the one before it, the last is the only one. -/
namespace RlmGraph.Memory.Lines

open RlmGraph.Lib.PyText RlmGraph.Lib.Rows RlmGraph.Lib.Corrections
open RlmGraph.Memory.Conversation RlmGraph.Memory.Facts RlmGraph.Memory.Chat

/-! ## Slots -/

/-- Where a fact counts: in its session or in its profile. -/
inductive Scope where
  | session (id : String)
  | profile (id : String)
  deriving DecidableEq

/-- What a fact is about, and where. -/
structure Slot where
  scope : Scope
  key : Key
  deriving DecidableEq

/-- The profile of a session. -/
def profileOf (s : Store) (sessionId : String) : String :=
  ((s.sessions.find? (·.id == sessionId)).map (·.profileId)).getD ""

/-- The slot of facts that are committed in a session, of its profile or its own. -/
def slotAt (s : Store) (sessionId : String) (profileMemory : Bool) (key : Key) : Slot where
  scope := if profileMemory then .profile (profileOf s sessionId) else .session sessionId
  key := key

def slotOf (s : Store) (fact : ConversationFact) : Slot :=
  slotAt s fact.sessionId fact.profileMemory fact.key

/-- The valid facts of a slot, in the order they were saved in. -/
def line (s : Store) (slot : Slot) : List ConversationFact :=
  s.facts.filter fun fact => decide (Valid s fact) && (slotOf s fact == slot)

/-- What holds of the tables whatever is said. -/
structure Wf (s : Store) : Prop where
  sessionIds : (s.sessions.map (·.id)).Nodup
  sessionNames : ∀ session ∈ s.sessions, session.id ≠ ""
  turnIds : (s.turns.map (·.id)).Nodup
  turnNames : ∀ turn ∈ s.turns, turn.id ≠ ""
  factIds : (s.facts.map (·.id)).Nodup
  factNames : ∀ fact ∈ s.facts, fact.id ≠ ""
  home : ∀ turn ∈ s.turns, ∃ session ∈ s.sessions, session.id = turn.sessionId
  source : ∀ fact ∈ s.facts,
    ∃ turn ∈ s.turns, turn.id = fact.sourceTurnId ∧ turn.sessionId = fact.sessionId
  subject : ∀ fact ∈ s.facts,
    fact.subject.toList.head? = some (if fact.profileMemory then 'u' else 'c')
  revises : ∀ fact ∈ s.facts, ∀ id, fact.supersedesFactId = some id →
    ∃ prior, List.Sublist [prior, fact] s.facts ∧ prior.id = id ∧ slotOf s prior = slotOf s fact

variable {s : Store} {fact : ConversationFact} {slot : Slot}

@[simp] theorem mem_line :
    fact ∈ line s slot ↔ fact ∈ s.facts ∧ Valid s fact ∧ slotOf s fact = slot := by
  simp [line]

theorem Wf.fact_eq (h : Wf s) {a b : ConversationFact} (ha : a ∈ s.facts) (hb : b ∈ s.facts)
    (hid : a.id = b.id) : a = b :=
  List.inj_on_of_nodup_map h.factIds ha hb hid

theorem profileOf_eq (h : Wf s) {session : ChatSession} (hsession : session ∈ s.sessions) :
    profileOf s session.id = session.profileId := by
  simp [profileOf, find?_of_mem h.sessionIds hsession]

/-- A fact belongs to a session that is there. -/
theorem Wf.session (h : Wf s) (hfact : fact ∈ s.facts) :
    ∃ session ∈ s.sessions, session.id = fact.sessionId := by
  obtain ⟨turn, hturn, -, hsession⟩ := h.source fact hfact
  rw [← hsession]
  exact h.home turn hturn

/-! ## Active facts -/

/-- A fact of a line that nothing in it supersedes. -/
def Current (facts : List ConversationFact) (fact : ConversationFact) : Prop :=
  fact ∈ facts ∧ ∀ other ∈ facts, other.supersedesFactId ≠ some fact.id

/-- Each fact of the line supersedes the one before it. -/
def Linked (s : Store) : Prop :=
  ∀ slot, (line s slot).IsChain fun a b => b.supersedesFactId = some a.id

/-- The active facts of a list of sessions, of one kind, are those that are
current in their lines. -/
theorem active_iff (h : Wf s) (fallback : Option String) (ids : Option (List String))
    {profileMemory : Bool} {scope : Scope}
    (hscope : ∀ fact ∈ s.facts, (fact.sessionId ∈ s.globalSessions fallback ids ∧
      fact.profileMemory = profileMemory) ↔ (slotOf s fact).scope = scope) :
    (fact ∈ s.activeAllFacts fallback ids ∧ fact.profileMemory = profileMemory) ↔
      Current (line s ⟨scope, fact.key⟩) fact := by
  have hslot : ∀ other : ConversationFact, (slotOf s other).key = other.key := fun _ => rfl
  constructor
  · rintro ⟨hactive, hkind⟩
    have hmem : fact ∈ s.facts := by
      have := List.mem_of_mem_filter hactive
      exact (mem_globalItems.mp this).1
    obtain ⟨hitem, hnone⟩ := (mem_unreplaced (h.factNames fact hmem)).mp hactive
    obtain ⟨-, hsession, hvalid⟩ := mem_globalItems.mp hitem
    refine ⟨mem_line.mpr ⟨hmem, hvalid, ?_⟩, fun other hother => ?_⟩
    · have := (hscope fact hmem).mp ⟨hsession, hkind⟩
      rw [← this]
      rfl
    · obtain ⟨hother, hvalid', hslot'⟩ := mem_line.mp hother
      have hin := (hscope other hother).mpr (by rw [hslot'])
      exact hnone other (mem_globalItems.mpr ⟨hother, hin.1, hvalid'⟩)
  · rintro ⟨hline, hnone⟩
    obtain ⟨hmem, hvalid, hslot'⟩ := mem_line.mp hline
    obtain ⟨hsession, hkind⟩ := (hscope fact hmem).mpr (by rw [hslot'])
    refine ⟨(mem_unreplaced (h.factNames fact hmem)).mpr
      ⟨mem_globalItems.mpr ⟨hmem, hsession, hvalid⟩, fun other hother hrev => ?_⟩, hkind⟩
    obtain ⟨hother, -, hvalid'⟩ := mem_globalItems.mp hother
    obtain ⟨prior, hsub, hid, hsame⟩ := h.revises other hother _ hrev
    have hprior : prior = fact :=
      h.fact_eq (hsub.subset List.mem_cons_self) hmem hid
    refine hnone other (mem_line.mpr ⟨hother, hvalid', ?_⟩) hrev
    rw [← hsame, hprior, hslot']

theorem active_session_iff (h : Wf s) {id : String} :
    (fact ∈ s.activeFacts id ∧ fact.profileMemory = false) ↔
      Current (line s ⟨.session id, fact.key⟩) fact := by
  refine active_iff h (some id) (some [id]) fun other _ => ?_
  rw [globalSessions_some]
  cases hp : other.profileMemory <;> simp [slotOf, slotAt, hp]

theorem mem_sessionIds {profileId id : String} (hp : profileId ≠ "") :
    id ∈ s.sessionIds (some profileId) false ↔
      ∃ session ∈ s.sessions, session.id = id ∧ session.profileId = profileId := by
  simp only [Store.sessionIds, truthy, List.mem_map, List.mem_filter, mem_chatSessions]
  constructor
  · rintro ⟨session, ⟨hmem, hprofile⟩, hid⟩
    have heq : profileId = session.profileId := by simpa [hp] using hprofile
    exact ⟨session, hmem, hid, heq.symm⟩
  · rintro ⟨session, hmem, hid, hprofile⟩
    exact ⟨session, ⟨hmem, by simp [hprofile]⟩, hid⟩

/-- The sessions of a profile, by the profile or by one of its sessions. -/
theorem mem_globalSessions (h : Wf s) {session : ChatSession} (hsession : session ∈ s.sessions)
    {id : String} : id ∈ s.globalSessions (some session.id) none ↔
      ∃ other ∈ s.sessions, other.id = id ∧ other.profileId = session.profileId := by
  have hname := h.sessionNames session hsession
  have hfind : (s.chatSessions.find? fun other => session.id == other.id) = some session := by
    cases hf : s.chatSessions.find? fun other => session.id == other.id with
    | none =>
      have := List.find?_eq_none.mp hf session (mem_chatSessions.mpr hsession)
      simp at this
    | some other =>
      have hmem := mem_chatSessions.mp (List.mem_of_find?_eq_some hf)
      have hid : session.id = other.id := by simpa using List.find?_some hf
      rw [List.inj_on_of_nodup_map h.sessionIds hmem hsession hid.symm]
  have hown : session.id ∈ s.sessionIds (some session.profileId) false :=
    (mem_sessionIds session.profiled).mpr ⟨session, hsession, rfl, rfl⟩
  rw [← mem_sessionIds session.profiled]
  simp [Store.globalSessions, truthy, hname, hfind, hown]

theorem active_profile_iff (h : Wf s) {session : ChatSession} (hsession : session ∈ s.sessions) :
    (fact ∈ s.activeAllFacts (some session.id) none ∧ fact.profileMemory = true) ↔
      Current (line s ⟨.profile session.profileId, fact.key⟩) fact := by
  refine active_iff h (some session.id) none fun other hother => ?_
  rw [mem_globalSessions h hsession]
  obtain ⟨own, hown, hid⟩ := h.session hother
  have hprofile : profileOf s other.sessionId = own.profileId := by
    rw [← hid, profileOf_eq h hown]
  constructor
  · rintro ⟨⟨found, hfound, hfid, hfp⟩, hkind⟩
    have heq : found = own := List.inj_on_of_nodup_map h.sessionIds hfound hown (hfid.trans hid.symm)
    simp [slotOf, slotAt, hkind, hprofile, ← heq, hfp]
  · intro heq
    cases hkind : other.profileMemory with
    | true =>
      have : own.profileId = session.profileId := by
        simpa [slotOf, slotAt, hkind, hprofile] using heq
      exact ⟨⟨own, hown, hid, this⟩, rfl⟩
    | false => simp [slotOf, slotAt, hkind] at heq

/-! ## The last of a line -/

theorem Wf.nodup_line (h : Wf s) (slot : Slot) : (line s slot).Nodup :=
  (List.Nodup.of_map _ h.factIds).sublist List.filter_sublist

/-- A fact that supersedes one of a line, and is in it, comes later in it. -/
theorem Wf.later (h : Wf s) {other : ConversationFact} (hfact : fact ∈ line s slot)
    (hother : other ∈ line s slot) (hrev : other.supersedesFactId = some fact.id) :
    List.Sublist [fact, other] (line s slot) := by
  obtain ⟨hstored, hvalid, hslot⟩ := mem_line.mp hother
  obtain ⟨hmem, hvalid', hslot'⟩ := mem_line.mp hfact
  obtain ⟨prior, hsub, hid, -⟩ := h.revises other hstored _ hrev
  obtain rfl : prior = fact := h.fact_eq (hsub.subset List.mem_cons_self) hmem hid
  have hboth := hsub.filter fun fact => decide (Valid s fact) && (slotOf s fact == slot)
  rw [line]
  simpa [hvalid, hslot, hvalid', hslot'] using hboth

/-- Facts are superseded by later ones of their line. -/
theorem Wf.current_last (h : Wf s) (hlast : (line s slot).getLast? = some fact) :
    Current (line s slot) fact := by
  obtain ⟨before, hline⟩ := List.getLast?_eq_some_iff.mp hlast
  have hmem : fact ∈ line s slot := List.mem_of_getLast? hlast
  refine ⟨hmem, fun other hother hrev => ?_⟩
  -- the last of the line would come before another one
  have hpair := h.later hmem hother hrev
  have hnodup := h.nodup_line slot
  rw [hline] at hpair hnodup
  exact absurd (mem_of_pair_sublist hnodup hpair) List.not_mem_nil

theorem Wf.exists_current (h : Wf s) (hne : line s slot ≠ []) :
    ∃ fact, Current (line s slot) fact :=
  ⟨_, h.current_last (List.getLast?_eq_some_getLast hne)⟩

/-- In a linked line only the last fact is current. -/
theorem current_iff_last (h : Wf s) (hlinked : Linked s) :
    Current (line s slot) fact ↔ (line s slot).getLast? = some fact := by
  refine ⟨fun ⟨hmem, hnone⟩ => ?_, h.current_last⟩
  obtain ⟨before, rest, hline⟩ := List.append_of_mem hmem
  cases rest with
  | nil => rw [hline, List.getLast?_concat]
  | cons next rest =>
    have hchain := hlinked slot
    rw [hline] at hchain
    have hrev : next.supersedesFactId = some fact.id :=
      (List.isChain_append_cons_cons.mp hchain).2.1
    exact absurd hrev (hnone next (by rw [hline]; simp))

end RlmGraph.Memory.Lines
