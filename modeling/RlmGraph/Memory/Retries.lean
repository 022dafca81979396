import RlmGraph.Lib.Interleavings
import RlmGraph.Memory.Turns

/-! # What events do to the lines

An event changes nothing, opens a session, adds a turn that says its values,
adds a turn and takes it back, or adds a turn, takes the one before it back, and
says its values once more (`step_cases`). -/
namespace RlmGraph.Memory.Retries

open RlmGraph.Lib RlmGraph.Lib.PyText RlmGraph.Lib.Rows RlmGraph.Lib.Corrections
open RlmGraph.Lib.Interleavings
open RlmGraph.Memory.Conversation RlmGraph.Memory.Facts RlmGraph.Memory.Chat
open RlmGraph.Memory.Lines RlmGraph.Memory.Commits RlmGraph.Memory.Turns

variable {s : Store} {turn previous : ChatTurn} {session : ChatSession} {reply : Reply}
  {tables : CaseTables} {sessionId turnId profileId : String} {includeLegacyMemory : Bool}

/-! ## The latest answer -/

theorem latestAnswer_ok
    (h : latestAnswer s sessionId turnId profileId includeLegacyMemory = .ok (session, previous)) :
    session ∈ s.sessions ∧ session.id = sessionId ∧
      (liveTurns s sessionId).getLast? = some previous := by
  unfold latestAnswer at h
  split at h
  · cases h
  next found hfound =>
    split at h
    · cases h
    split at h
    · cases h
    next last hlast =>
      split at h
      · cases h
      split at h
      · cases h
      obtain ⟨rfl, rfl⟩ := Prod.mk.inj (Except.ok.inj h)
      obtain ⟨hmem, hid⟩ := find?_session hfound
      exact ⟨hmem, hid, hlast⟩

theorem mem_liveTurns : turn ∈ liveTurns s sessionId ↔
    turn ∈ s.turns ∧ turn.sessionId = sessionId ∧ truthy turn.supersededByTurnId = false := by
  simp [liveTurns, and_assoc]

theorem chatTurns_find (h : Wf s) (hturn : turn ∈ s.turns) :
    (s.chatTurns turn.sessionId).find? (·.id == turn.id) = some turn := by
  cases hfound : (s.chatTurns turn.sessionId).find? (·.id == turn.id) with
  | none =>
    have hnot := List.find?_eq_none.mp hfound turn (mem_chatTurns.mpr ⟨hturn, rfl⟩)
    simp at hnot
  | some other =>
    have hmem := (mem_chatTurns.mp (List.mem_of_find?_eq_some hfound)).1
    have hid : other.id = turn.id := by simpa using List.find?_some hfound
    rw [List.inj_on_of_nodup_map h.turnIds hmem hturn hid]

/-! ## The replacement is committed again -/

theorem interpretations_commitFacts (facts : List ConversationFact) :
    (commitFacts tables s turn facts).interpretations = s.interpretations := by
  have hwrite : ∀ (c : Commit) (fact : ConversationFact),
      (commitFact tables turn c fact).store.interpretations = c.store.interpretations := by
    intro c fact
    rcases commitFact_cases tables turn c fact with ⟨_, _, _, heq | ⟨_, heq⟩⟩ | ⟨_, heq⟩ <;>
      rw [heq] <;> rfl
  have hfold : ∀ c : Commit, (facts.foldl (commitFact tables turn) c).store.interpretations =
      c.store.interpretations := by
    induction facts with
    | nil => exact fun _ => rfl
    | cons fact facts ih =>
      intro c
      rw [List.foldl_cons, ih, hwrite]
  exact hfold _

/-- The record of a reply is found by its id. -/
theorem find_record (tables : CaseTables) (session : ChatSession) (message : String)
    {built : List ConversationFact} (hfresh : reply.Fresh s built) (hroute : reply.route ≠ "RLM_RECOVERY") (broken : Option Nat) :
    let turn := turnOf s session.id message reply
    (persist tables s session message reply broken).interpretations.find? (fun record =>
        record.sessionId == turn.sessionId && some record.id == turn.interpretationId) =
      reply.record session.id := by
  intro turn
  have hkept : (persist tables s session message reply broken).interpretations =
      (recorded s session message reply).interpretations := by
    rw [persist_eq]
    cases broken with
    | some n => exact interpretations_commitFacts _
    | none =>
      change (committedReply ..).interpretations = _
      exact interpretations_commitFacts _
  rw [hkept]
  cases hint : reply.interpretation with
  | none =>
    have hrecord : reply.record session.id = none := by simp [Reply.record, hint]
    rw [hrecord]
    refine List.find?_eq_none.mpr fun record _ => ?_
    simp [turn, turnOf, hint]
  | some x =>
    have hrecord : reply.record session.id = some ⟨x.1, session.id, x.2⟩ := by
      simp [Reply.record, hint]
    have hnew : x.1 ∉ s.interpretations.map (·.id) := hfresh.interpretation x (by simp [hint])
    have htable : (recorded s session message reply).interpretations =
        s.interpretations ++ [⟨x.1, session.id, x.2⟩] := by
      unfold recorded
      rw [hrecord]
      simp only [hroute, ne_eq, not_false_eq_true, if_true]
      exact upsert_new hnew
    rw [htable, hrecord]
    refine find?_append_new (List.find?_eq_none.mpr fun record hmem => ?_) (by
      simp [turn, turnOf, hint])
    have hne : record.id ≠ x.1 := fun heq => hnew (List.mem_map.mpr ⟨record, hmem, heq⟩)
    simp [turn, turnOf, hint, hne]

/-- The second commit of a reply. -/
theorem recommit_eq {message : String} {built : List ConversationFact}
    (hfresh : reply.Fresh s built) (hroute : reply.route ≠ "RLM_RECOVERY")
    (again : Nat → String × Nat) :
    let turn := turnOf s session.id message reply
    let s' := supersede (persist tables s session message reply none) previous reply.turnId
    recommit tables s' turn again = commitFacts tables s' turn (rebuilt tables turn reply again) := by
  intro turn s'
  have hfind := find_record tables session message hfresh hroute none
  have hfind' : s'.interpretations.find? (fun record =>
      record.sessionId == turn.sessionId && some record.id == turn.interpretationId) =
      reply.record turn.sessionId := hfind
  unfold recommit rebuilt
  rw [hfind']
  cases reply.record turn.sessionId <;> rfl

/-! ## Steps -/

/-- A successful retry: the replacement is said, the old turn is taken back, and
the replacement is said once more. -/
def redo (tables : CaseTables) (s : Store) (session : ChatSession) (previous : ChatTurn)
    (reply : Reply) (again : Nat → String × Nat) : Store :=
  let turn := turnOf s session.id previous.userMessage reply
  commitFacts tables
    (supersede (persist tables s session previous.userMessage reply none) previous reply.turnId)
    turn (rebuilt tables turn reply again)

theorem retryAnswer_answered (h : Wf s)
    (hlatest : latestAnswer s session.id turnId profileId includeLegacyMemory =
      .ok (session, previous)) {again : Nat → String × Nat}
    (hfresh : let turn := turnOf s session.id previous.userMessage reply
      reply.Fresh s (candidates tables turn reply ++ rebuilt tables turn reply again)) :
    retryAnswer tables s session.id turnId profileId includeLegacyMemory (.answered reply) again =
      .ok (if failed reply.route then
          supersede (persist tables s session previous.userMessage reply none)
            (turnOf s session.id previous.userMessage reply) previous.id
        else redo tables s session previous reply again) := by
  obtain ⟨hsession, -, -⟩ := latestAnswer_ok hlatest
  have hreplied := replied_persist tables h hsession previous.userMessage hfresh none
    (List.sublist_append_left ..)
  have hfind : ((persist tables s session previous.userMessage reply none).chatTurns
      session.id).find? (·.id == reply.turnId) =
      some (turnOf s session.id previous.userMessage reply) :=
    chatTurns_find hreplied.wf hreplied.speaks.known
  unfold retryAnswer
  rw [hlatest]
  simp only [bind, Except.bind, safeReply, hfind]
  by_cases hroute : failed reply.route = true
  · rw [if_pos hroute]
    exact if_pos hroute
  · have hne : reply.route ≠ "RLM_RECOVERY" := by
      intro heq
      simp [failed, heq] at hroute
    rw [if_neg hroute]
    unfold redo
    rw [← recommit_eq hfresh hne again]
    exact if_neg hroute

/-- What an event may do to the tables. -/
inductive Step (tables : CaseTables) (s : Store) (e : Event) : Store → Prop where
  | nothing : Step tables s e s
  | opened (session : ChatSession) (hname : session.id ≠ "")
      (hnew : session.id ∉ s.sessions.map (·.id)) :
      Step tables s e { s with sessions := s.sessions ++ [session] }
  | replied (session : ChatSession) (hsession : session ∈ s.sessions) (message : String)
      (reply : Reply) (broken : Option Nat) (built : List ConversationFact)
      (hfresh : reply.Fresh s built)
      (hbuilt : List.Sublist (candidates tables (turnOf s session.id message reply) reply) built) :
      Step tables s e (persist tables s session message reply broken)
  | undone (session : ChatSession) (hsession : session ∈ s.sessions) (previous : ChatTurn)
      (hlatest : (liveTurns s session.id).getLast? = some previous) (reply : Reply)
      (built : List ConversationFact) (hfresh : reply.Fresh s built)
      (hbuilt : List.Sublist
        (candidates tables (turnOf s session.id previous.userMessage reply) reply) built) :
      Step tables s e (supersede (persist tables s session previous.userMessage reply none)
        (turnOf s session.id previous.userMessage reply) previous.id)
  | redone (session : ChatSession) (previous : ChatTurn) (reply : Reply)
      (again : Nat → String × Nat) (turnId profileId : String) (includeLegacyMemory : Bool)
      (he : e = .retried session.id turnId profileId includeLegacyMemory (.answered reply) again)
      (hlatest : latestAnswer s session.id turnId profileId includeLegacyMemory =
        .ok (session, previous))
      (hroute : failed reply.route = false)
      (hfresh : let turn := turnOf s session.id previous.userMessage reply
        reply.Fresh s (candidates tables turn reply ++ rebuilt tables turn reply again)) :
      Step tables s e (redo tables s session previous reply again)

theorem step_spec (h : Wf s) {e : Event} (hfresh : Fresh tables s e) :
    Step tables s e (step tables s e) := by
  cases e with
  | opened session =>
    have heq : step tables s (.opened session) = { s with sessions := s.sessions ++ [session] } :=
      saveChatSession_new hfresh.2
    rw [heq]
    exact .opened session hfresh.1 hfresh.2
  | said sessionId message outcome =>
    unfold step
    dsimp only
    split
    next session hfound =>
      obtain ⟨hsession, rfl⟩ := find?_session hfound
      cases outcome with
      | recovered => exact .nothing
      | broken reply n =>
        exact .replied session hsession message reply (some n) _ hfresh (List.Sublist.refl _)
      | answered reply =>
        exact .replied session hsession message reply none _ hfresh (List.Sublist.refl _)
    next => exact .nothing
  | retried sessionId turnId profileId includeLegacyMemory outcome again =>
    unfold step retryAnswer
    dsimp only
    cases hlatest : latestAnswer s sessionId turnId profileId includeLegacyMemory with
    | error error => exact .nothing
    | ok x =>
      obtain ⟨session, previous⟩ := x
      obtain ⟨hsession, rfl, hlast⟩ := latestAnswer_ok hlatest
      have hfresh := hfresh previous hlast
      cases outcome with
      | recovered => exact .nothing
      | broken reply n =>
        exact .replied session hsession previous.userMessage reply (some n) _ hfresh
          (List.sublist_append_left ..)
      | answered reply =>
        have hanswer : retryAnswer tables s session.id turnId profileId includeLegacyMemory
            (.answered reply) again = _ := retryAnswer_answered h hlatest hfresh
        unfold retryAnswer at hanswer
        rw [hlatest] at hanswer
        rw [hanswer]
        dsimp only
        split
        next => exact .undone session hsession previous hlast reply _ hfresh
                  (List.sublist_append_left ..)
        next hroute =>
          exact .redone session previous reply again turnId profileId includeLegacyMemory rfl
            hlatest (by simpa using hroute) hfresh

/-! ## What a step leaves -/

variable {slot : Slot} {fact : ConversationFact}

/-- Who said something in a line is a turn of the tables. -/
theorem said_source (h : Wf s) {entry : String × String} (hentry : entry ∈ said s slot) :
    entry.1 ∈ s.turns.map (·.id) := by
  obtain ⟨fact, hfact, rfl⟩ := List.mem_map.mp hentry
  obtain ⟨turn, hturn, hid, -⟩ := h.source fact (mem_line.mp hfact).1
  exact List.mem_map.mpr ⟨turn, hturn, hid⟩

theorem said_ne_new (h : Wf s) {turnId : String} (hnew : turnId ∉ s.turns.map (·.id)) :
    ∀ entry ∈ said s slot, entry.1 ≠ turnId :=
  fun _ hentry heq => hnew (heq ▸ said_source h hentry)

theorem between_said {turnId : String} :
    Between (fun entry : String × String => entry.1 != turnId) (said s slot) ↔
      Between (fun fact : ConversationFact => fact.sourceTurnId != turnId) (line s slot) :=
  between_map fun _ => rfl

/-- A turn that has just been added stands last. -/
theorem apart_of_replied {facts : List ConversationFact} {s' : Store} (h : Wf s)
    (hlinked : Linked s) (hreplied : Replied tables s turn facts s')
    (hnew : turn.id ∉ s.turns.map (·.id)) : Apart s' turn.id := by
  intro slot hbetween
  obtain ⟨more, hmore, hwho⟩ := sayAll_eq (Same tables) turn.id (stated s turn facts slot)
    (said s slot)
  have hsaid := hreplied.said hlinked slot
  rw [hmore] at hsaid
  rw [← between_said, hsaid] at hbetween
  refine not_between_of_last (fun entry hentry => ?_) (fun entry hentry => ?_) hbetween
  · simpa using said_ne_new h hnew entry hentry
  · simp [hwho entry hentry]

/-- A reply that is taken back leaves the lines as they were. -/
theorem undone_spec (h : Wf s) (hsession : session ∈ s.sessions) (message : String)
    {built : List ConversationFact} (hfresh : reply.Fresh s built)
    (hbuilt : List.Sublist (candidates tables (turnOf s session.id message reply) reply) built)
    {by' : String} (hby : by' ≠ "") :
    let s' := supersede (persist tables s session message reply none)
      (turnOf s session.id message reply) by'
    Wf s' ∧ (Linked s → Linked s' ∧ ∀ slot, said s' slot = said s slot) := by
  intro s'
  have hreplied := replied_persist tables h hsession message hfresh none hbuilt
  have hknown := hreplied.speaks.known
  have hnew : (turnOf s session.id message reply).id ∉ s.turns.map (·.id) := hfresh.turn.2
  refine ⟨wf_supersede hreplied.wf hknown by', fun hlinked => ⟨?_, fun slot => ?_⟩⟩
  · exact linked_supersede hreplied.wf (hreplied.linked hlinked) hknown hby
      (apart_of_replied h hlinked hreplied hnew)
  · change said (supersede _ _ _) slot = _
    rw [said_supersede hreplied.wf hknown hby, hreplied.said hlinked]
    exact retract_sayAll (said_ne_new h hnew) _

theorem stated_rebuilt (s : Store) (hroute : reply.route ≠ "RLM_RECOVERY")
    (again : Nat → String × Nat) (slot : Slot) :
    stated s turn (rebuilt tables turn reply again) slot =
      stated s turn (candidates tables turn reply) slot := by
  unfold rebuilt candidates
  cases reply.record turn.sessionId with
  | none => rfl
  | some record =>
    dsimp only
    rw [if_pos hroute, stated_eq, stated_eq, content_extract]

/-- Once the old turn is withdrawn the replacement may be committed again. -/
theorem redo_ready (h : Wf s) (hsession : session ∈ s.sessions) (hprevious : previous ∈ s.turns)
    {again : Nat → String × Nat}
    (hfresh : let turn := turnOf s session.id previous.userMessage reply
      reply.Fresh s (candidates tables turn reply ++ rebuilt tables turn reply again)) :
    let turn := turnOf s session.id previous.userMessage reply
    let s₁ := persist tables s session previous.userMessage reply none
    let s₂ := supersede s₁ previous reply.turnId
    Replied tables s turn (candidates tables turn reply) s₁ ∧ previous ∈ s₁.turns ∧
      Wf s₂ ∧ Speaks s₂ turn ∧ Candidates s₂ turn (rebuilt tables turn reply again) := by
  intro turn s₁ s₂
  have hreplied := replied_persist tables h hsession previous.userMessage hfresh none
    (List.sublist_append_left ..)
  have hknown : previous ∈ s₁.turns := by
    rw [hreplied.turns]
    exact List.mem_append_left _ hprevious
  have hne : turn.id ≠ previous.id := fun heq =>
    hfresh.turn.2 (List.mem_map.mpr ⟨previous, hprevious, heq.symm⟩)
  have hby : reply.turnId ≠ "" := hfresh.turn.1
  refine ⟨hreplied, hknown, wf_supersede hreplied.wf hknown reply.turnId, ?_, ?_⟩
  · refine ⟨mem_supersede.mpr (Or.inr ⟨hreplied.speaks.known, hne⟩), fun hsup => ?_⟩
    rcases (supersededTurns_supersede hreplied.wf hknown hby).mp hsup with hold | ⟨heq, -⟩
    · exact hreplied.speaks.live hold
    · exact hne heq
  · have hdistinct := hfresh.distinct
    rw [List.map_append, List.nodup_append] at hdistinct
    refine candidates_of_fresh (fun fact hfact => ?_) (fun fact hfact => ?_) hdistinct.2.1
    · unfold rebuilt at hfact
      split at hfact
      · exact extracted hfact
      · cases hfact
    · obtain ⟨hname, hnew⟩ := hfresh.facts fact (List.mem_append_right _ hfact)
      refine ⟨hname, fun hid => ?_⟩
      rcases hreplied.ids fact.id hid with hold | hsame
      · exact hnew hold
      · exact hdistinct.2.2 fact.id hsame fact.id (List.mem_map_of_mem (f := (·.id)) hfact) rfl

/-- It states the same values again. -/
theorem stated_redo (previous : ChatTurn) (hsession : session ∈ s.sessions) (hroute : reply.route ≠ "RLM_RECOVERY")
    {s₁ : Store} {facts : List ConversationFact} {message : String}
    (hreplied : Replied tables s (turnOf s session.id message reply) facts s₁)
    (again : Nat → String × Nat) (slot : Slot) :
    let turn := turnOf s session.id message reply
    stated (supersede s₁ previous reply.turnId) turn (rebuilt tables turn reply again) slot =
      stated s turn (candidates tables turn reply) slot := by
  intro turn
  rw [← stated_rebuilt s hroute again slot, stated_eq, stated_eq]
  have hprofile : profileOf (supersede s₁ previous reply.turnId) session.id =
      profileOf s session.id := hreplied.profile session hsession
  have hslot : ∀ x : Bool × Key × String,
      slotAt (supersede s₁ previous reply.turnId) turn.sessionId x.1 x.2.1 =
        slotAt s turn.sessionId x.1 x.2.1 := by
    intro x
    unfold slotAt
    rw [show turn.sessionId = session.id from rfl, hprofile]
  simp only [hslot]

theorem redone_spec (h : Wf s) (hsession : session ∈ s.sessions) (hprevious : previous ∈ s.turns)
    (hroute : reply.route ≠ "RLM_RECOVERY") {again : Nat → String × Nat}
    (hfresh : let turn := turnOf s session.id previous.userMessage reply
      reply.Fresh s (candidates tables turn reply ++ rebuilt tables turn reply again)) :
    let turn := turnOf s session.id previous.userMessage reply
    let s₁ := persist tables s session previous.userMessage reply none
    let s' := redo tables s session previous reply again
    Wf s' ∧ (Linked s → Apart s₁ previous.id → Linked s' ∧ ∀ slot,
      let values := stated s turn (candidates tables turn reply) slot
      said s' slot = sayAll (Same tables) turn.id values
        (retract previous.id (sayAll (Same tables) turn.id values (said s slot)))) := by
  intro turn s₁ s'
  let s₂ := supersede s₁ previous reply.turnId
  obtain ⟨hreplied, hknown, hwf, hspeaks, hcandidates⟩ := redo_ready h hsession hprevious hfresh
  have hby : reply.turnId ≠ "" := hfresh.turn.1
  refine ⟨(committed tables hwf hspeaks hcandidates).1, fun hlinked hapart => ?_⟩
  have hlinked₂ : Linked s₂ :=
    linked_supersede hreplied.wf (hreplied.linked hlinked) hknown hby hapart
  obtain ⟨hlinked', hsaid⟩ := said_committed tables hwf hlinked₂ hspeaks hcandidates
  refine ⟨hlinked', fun slot => ?_⟩
  have hstated := stated_redo previous hsession hroute hreplied again slot
  have hretract : said s₂ slot = retract previous.id (said s₁ slot) :=
    said_supersede hreplied.wf hknown hby
  refine (hsaid slot).trans ?_
  rw [hstated, hretract, hreplied.said hlinked]

/-! ## Runs -/

/-- At a successful retry, no valid fact of the old turn stands in its line
between facts of other turns, and where one follows a fact of another turn the
replacement says nothing new. -/
def Clean (tables : CaseTables) (s : Store) : Event → Prop
  | .retried sessionId turnId profileId includeLegacyMemory (.answered reply) _ =>
    ∀ session previous,
      latestAnswer s sessionId turnId profileId includeLegacyMemory = .ok (session, previous) →
      failed reply.route = false → ∀ slot,
        let turn := turnOf s session.id previous.userMessage reply
        Removable (Same tables) previous.id (stated s turn (candidates tables turn reply) slot)
          (said s slot)
  | _ => True

/-- Then the old turn stands apart once the replacement has been committed. -/
theorem apart_iff (h : Wf s) (hlinked : Linked s) (hsession : session ∈ s.sessions)
    (hprevious : previous ∈ s.turns) {built : List ConversationFact}
    (hfresh : reply.Fresh s built) (hbuilt : List.Sublist
      (candidates tables (turnOf s session.id previous.userMessage reply) reply) built) :
    let turn := turnOf s session.id previous.userMessage reply
    Apart (persist tables s session previous.userMessage reply none) previous.id ↔
      ∀ slot, Removable (Same tables) previous.id
        (stated s turn (candidates tables turn reply) slot) (said s slot) := by
  intro turn
  have hreplied := replied_persist tables h hsession previous.userMessage hfresh none hbuilt
  have hne : turn.id ≠ previous.id := fun heq =>
    hfresh.turn.2 (List.mem_map.mpr ⟨previous, hprevious, heq.symm⟩)
  refine forall_congr' fun slot => ?_
  rw [← between_said, hreplied.said hlinked slot]
  exact (removable_iff hne).symm

theorem not_recovery (h : failed reply.route = false) : reply.route ≠ "RLM_RECOVERY" := by
  intro heq
  simp [failed, heq] at h

theorem step_keeps (h : Wf s) {e : Event} (hfresh : Fresh tables s e) :
    Wf (step tables s e) ∧ (Linked s → Clean tables s e → Linked (step tables s e)) := by
  have hstep := step_spec h hfresh
  generalize step tables s e = s' at hstep ⊢
  cases hstep with
  | nothing => exact ⟨h, fun hlinked _ => hlinked⟩
  | opened session hname hnew =>
    exact ⟨wf_opened h hname hnew, fun hlinked _ => (reads_opened h session).linked hlinked⟩
  | replied session hsession message reply broken built hfresh hbuilt =>
    have hreplied := replied_persist tables h hsession message hfresh broken hbuilt
    exact ⟨hreplied.wf, fun hlinked _ => hreplied.linked hlinked⟩
  | undone session hsession previous hlatest reply built hfresh hbuilt =>
    have hprevious := (mem_liveTurns.mp (List.mem_of_getLast? hlatest)).1
    obtain ⟨hwf, hrest⟩ := undone_spec h hsession previous.userMessage hfresh hbuilt
      (h.turnNames previous hprevious)
    exact ⟨hwf, fun hlinked _ => (hrest hlinked).1⟩
  | redone session previous reply again turnId profileId includeLegacyMemory he hlatest hroute
      hids =>
    obtain ⟨hsession, -, hlast⟩ := latestAnswer_ok hlatest
    have hprevious := (mem_liveTurns.mp (List.mem_of_getLast? hlast)).1
    obtain ⟨hwf, hrest⟩ := redone_spec h hsession hprevious (not_recovery hroute) hids
    refine ⟨hwf, fun hlinked hclean => (hrest hlinked ?_).1⟩
    subst he
    exact (apart_iff h hlinked hsession hprevious hids (List.sublist_append_left ..)).mpr
      (hclean session previous hlatest hroute)

theorem wf_start : Wf {} := by
  constructor <;> simp

theorem linked_start : Linked {} := fun _ => List.IsChain.nil

/-- The tables after a run whose ids are new. -/
theorem wf_after {events : List Event}
    (h : Along (Fresh tables) (step tables) {} events) : Wf (after tables events) :=
  h.keeps (fun _ _ hwf hfresh => (step_keeps hwf hfresh).1) wf_start

/-- In runs whose retries are clean each fact of a line supersedes the one
before it. -/
theorem linked_after {events : List Event}
    (h : Along (fun s e => Fresh tables s e ∧ Clean tables s e) (step tables) {} events) :
    Wf (after tables events) ∧ Linked (after tables events) :=
  h.keeps (I := fun s => Wf s ∧ Linked s)
    (fun _ _ hs he => ⟨(step_keeps hs.1 he.1).1, (step_keeps hs.1 he.1).2 hs.2 he.2⟩)
    ⟨wf_start, linked_start⟩

end RlmGraph.Memory.Retries
