import RlmGraph.Memory.Forks

/-! # One active fact about one thing

A run leaves one active fact about one thing, in each session and in each
profile, as long as no answer is withdrawn that is linked to others on both
sides. A correction whose own correction replaces it comes back. -/
namespace RlmGraph.Memory.OneFact

open RlmGraph.Lib RlmGraph.Lib.PyText RlmGraph.Lib.Rows RlmGraph.Lib.Corrections
open RlmGraph.Lib.Interleavings
open RlmGraph.Memory.Conversation RlmGraph.Memory.Facts RlmGraph.Memory.Chat
open RlmGraph.Memory.Lines RlmGraph.Memory.Commits RlmGraph.Memory.Turns RlmGraph.Memory.Retries
open RlmGraph.Memory.Forks

variable {s : Store} {fact : ConversationFact} {tables : CaseTables}

/-! ## Active facts by what they are about -/

/-- The active facts of a session that are about it. -/
def sessionFacts (s : Store) (sessionId : String) : List ConversationFact :=
  (s.activeFacts sessionId).filter (!·.profileMemory)

/-- The active facts of the profile of a session. -/
def profileFacts (s : Store) (sessionId : String) : List ConversationFact :=
  (s.activeAllFacts (some sessionId) none).filter (·.profileMemory)

/-- No session, and no profile, has two active facts about one thing. -/
def OnePerKey (s : Store) : Prop :=
  ∀ session ∈ s.sessions, ((sessionFacts s session.id).map (·.key)).Nodup ∧
    ((profileFacts s session.id).map (·.key)).Nodup

theorem mem_sessionFacts (h : Wf s) {id : String} :
    fact ∈ sessionFacts s id ↔ Current (line s ⟨.session id, fact.key⟩) fact := by
  rw [← active_session_iff h]
  simp [sessionFacts]

theorem mem_profileFacts (h : Wf s) {session : ChatSession} (hsession : session ∈ s.sessions) :
    fact ∈ profileFacts s session.id ↔
      Current (line s ⟨.profile session.profileId, fact.key⟩) fact := by
  rw [← active_profile_iff h hsession]
  simp [profileFacts]

theorem nodup_globalItems (h : Wf s) {fallback : Option String} {ids : Option (List String)}
    (hids : (s.globalSessions fallback ids).Nodup) : (s.globalItems fallback ids).Nodup := by
  unfold Store.globalItems
  refine (List.mergeSort_perm _ _).nodup_iff.mpr (List.nodup_flatMap.mpr ⟨fun id _ => ?_, ?_⟩)
  · refine List.Nodup.filter _ ((List.mergeSort_perm _ _).nodup_iff.mpr ?_)
    exact (List.Nodup.of_map _ h.factIds).filter _
  · refine hids.imp fun {a b} hne fact ha hb => hne ?_
    have ha := (mem_conversationFacts.mp (List.mem_of_mem_filter ha)).2
    have hb := (mem_conversationFacts.mp (List.mem_of_mem_filter hb)).2
    exact ha.symm.trans hb

theorem nodup_sessionIds (h : Wf s) (profileId : Option String) (includeLegacyMemory : Bool) :
    (s.sessionIds profileId includeLegacyMemory).Nodup := by
  have hids : (s.chatSessions.map (·.id)).Nodup :=
    ((List.mergeSort_perm _ _).map _).nodup_iff.mpr h.sessionIds
  exact hids.sublist (List.filter_sublist.map _)

theorem nodup_fallback {chosen : List String} (hchosen : chosen.Nodup) (fallback : Option String) :
    (match fallback with
      | some id => if id ≠ "" ∧ id ∉ chosen then chosen ++ [id] else chosen
      | none => chosen).Nodup := by
  split
  next id =>
    split
    next hnew =>
      refine List.nodup_append.mpr ⟨hchosen, List.nodup_singleton id, ?_⟩
      rintro a ha b hb rfl
      exact hnew.2 (List.mem_singleton.mp hb ▸ ha)
    next => exact hchosen
  next => exact hchosen

theorem nodup_globalSessions (h : Wf s) (fallback : Option String) :
    (s.globalSessions fallback none).Nodup := by
  refine nodup_fallback ?_ fallback
  dsimp only
  split
  · split
    · exact nodup_sessionIds h _ _
    · exact List.nodup_nil
  · exact nodup_sessionIds h _ _

/-- One fact of each line is current iff no two active facts are about the same. -/
theorem onePerKey_iff (h : Wf s) : OnePerKey s ↔ Single s := by
  constructor
  · intro hone slot a b ha hb
    obtain ⟨hmem, -, hslot⟩ := mem_line.mp ha.1
    have hkeya : a.key = slot.key := congrArg Slot.key hslot
    have hkeyb : b.key = slot.key := congrArg Slot.key (mem_line.mp hb.1).2.2
    obtain ⟨session, hsession, hid⟩ := h.session hmem
    have hscope : slot.scope = if a.profileMemory then .profile session.profileId
        else .session session.id := by
      rw [← hslot, ← profileOf_eq h hsession, hid]
      rfl
    obtain ⟨hone, hone'⟩ := hone session hsession
    cases hkind : a.profileMemory with
    | false =>
      have hline : ∀ x, x.key = slot.key → Current (line s slot) x →
          x ∈ sessionFacts s session.id := by
        intro x hx hcurrent
        refine (mem_sessionFacts h).mpr ?_
        rw [hkind] at hscope
        rwa [hx, show (Scope.session session.id) = slot.scope from hscope.symm]
      exact List.inj_on_of_nodup_map hone (hline a hkeya ha) (hline b hkeyb hb)
        (hkeya.trans hkeyb.symm)
    | true =>
      have hline : ∀ x, x.key = slot.key → Current (line s slot) x →
          x ∈ profileFacts s session.id := by
        intro x hx hcurrent
        refine (mem_profileFacts h hsession).mpr ?_
        rw [hkind] at hscope
        rwa [hx, show (Scope.profile session.profileId) = slot.scope from hscope.symm]
      exact List.inj_on_of_nodup_map hone' (hline a hkeya ha) (hline b hkeyb hb)
        (hkeya.trans hkeyb.symm)
  · intro hsingle session hsession
    constructor
    · refine List.Nodup.map_on (fun a ha b hb hkey => ?_) ?_
      · rw [mem_sessionFacts h] at ha hb
        exact hsingle _ a b ha (by rwa [hkey])
      · refine List.Nodup.filter _ (List.Nodup.filter _ (nodup_globalItems h ?_))
        rw [globalSessions_some]
        exact List.nodup_singleton session.id
    · refine List.Nodup.map_on (fun a ha b hb hkey => ?_) ?_
      · rw [mem_profileFacts h hsession] at ha hb
        exact hsingle _ a b ha (by rwa [hkey])
      · exact List.Nodup.filter _ (List.Nodup.filter _
          (nodup_globalItems h (nodup_globalSessions h _)))

/-! ## Runs -/

/-- A retry that is not clean leaves a fork behind. -/
theorem single_step (h : Wf s) (hlinked : Linked s) {e : Event} (hfresh : Fresh tables s e)
    (hsingle : Single (step tables s e)) : Clean tables s e := by
  cases e with
  | opened session => trivial
  | said sessionId message outcome => trivial
  | retried sessionId turnId profileId includeLegacyMemory outcome again =>
    cases outcome with
    | recovered => trivial
    | broken reply n => trivial
    | answered reply =>
      intro session previous hlatest hroute
      obtain ⟨hsession, rfl, hlast⟩ := latestAnswer_ok hlatest
      have hids := hfresh previous hlast
      have hprevious := (mem_liveTurns.mp (List.mem_of_getLast? hlast)).1
      refine (apart_iff h hlinked hsession hprevious hids (List.sublist_append_left ..)).mp ?_
      intro slot hbetween
      obtain ⟨hreplied, hknown, hwf, hspeaks, hcandidates⟩ :=
        redo_ready h hsession hprevious hids
      have hforked := forked_supersede hreplied.wf (hreplied.linked hlinked) hknown
        hids.turn.1 hbetween
      have hafter := forked_commitFacts tables hwf hspeaks hcandidates hforked
      have hstep : step tables s (.retried session.id turnId profileId includeLegacyMemory
          (.answered reply) again) = redo tables s session previous reply again := by
        unfold step
        dsimp only
        rw [retryAnswer_answered h hlatest hids, if_neg (by simp [hroute])]
      rw [hstep] at hsingle
      exact not_single hafter hsingle

/-- In a run whose ids are new, no two active facts are ever about one thing iff
every retry is clean. -/
theorem onePerKey_along_iff {events : List Event}
    (h : Along (Fresh tables) (step tables) {} events) :
    (∀ before, before <+: events → OnePerKey (after tables before)) ↔
      Along (Clean tables) (step tables) {} events := by
  constructor
  · induction events using List.reverseRecOn with
    | nil => exact fun _ => trivial
    | append_singleton events e ih =>
      intro hone
      obtain ⟨hfresh, hlast, -⟩ := along_append.mp h
      have hclean := ih hfresh fun before hbefore =>
        hone before (hbefore.trans (List.prefix_append events [e]))
      obtain ⟨hwf, hlinked⟩ := linked_after (hfresh.and hclean)
      have hend := hone (events ++ [e]) List.prefix_rfl
      rw [onePerKey_iff (wf_after h)] at hend
      refine along_append.mpr ⟨hclean, single_step hwf hlinked hlast ?_, trivial⟩
      have hrun : after tables (events ++ [e]) = step tables (after tables events) e := by
        simp [after]
      rwa [hrun] at hend
  · rintro hclean before ⟨rest, rfl⟩
    obtain ⟨hwf, hlinked⟩ := linked_after ((along_append.mp h).1.and (along_append.mp hclean).1)
    exact (onePerKey_iff hwf).mpr (single_of_linked hwf hlinked)

/-! ## A corrected correction -/

def plain : CaseTables := ⟨id, id, id⟩

/-- A reply that states what the conversation is about, and the rows it leads to
in session `S`. -/
def objective (turnId interpretationId factId value : String) (time : Nat) : Reply where
  turnId := turnId
  route := "RLM_CONVERSATION"
  interpretation := some (interpretationId, { confidence := 1, objectiveUpdate := some value })
  mint := fun _ => (factId, time)
  updatedAt := time

def helloTurn (sessionId : String) (ordinal : Nat) (id interpretationId : String)
    (by' : Option String) : ChatTurn where
  id := id
  sessionId := sessionId
  ordinal := ordinal
  userMessage := "Hello"
  route := "RLM_CONVERSATION"
  intent := "CONVERSE"
  interpretationId := some interpretationId
  supersededByTurnId := by'

def objectiveRecord (id value : String) : ConversationInterpretationRecord where
  id := id
  sessionId := "S"
  interpretation := { confidence := 1, objectiveUpdate := some value }

def objectiveFact (turnId interpretationId id value : String) (time : Nat)
    (prior : Option String) : ConversationFact where
  id := id
  sessionId := "S"
  kind := .objective
  subject := "conversation.active_objective"
  predicate := "is"
  value := value
  sourceTurnId := turnId
  sourceInterpretationId := interpretationId
  confidence := 1
  supersedesFactId := prior
  createdAt := time

theorem extract_objective (mint : Nat → String × Nat) (id sessionId route intent recordId : String)
    (ordinal : Nat) (interpretationId by' : Option String) {value : String} (h : value ≠ "") :
    extract plain mint ⟨id, sessionId, ordinal, "Hello", route, intent, interpretationId, by'⟩
      ⟨recordId, sessionId, { confidence := 1, objectiveUpdate := some value }⟩ =
    [{ sessionId, kind := .objective, subject := "conversation.active_objective"
       predicate := "is", value, sourceTurnId := id, sourceInterpretationId := recordId
       confidence := 1, id := (mint 0).1, createdAt := (mint 0).2 }] := by
  have hmatch : identityMatch "Hello" = none := by decide
  simp [extract, drafts, identityDraft, hmatch, objectiveDraft, h]

def session (updatedAt : Nat) : ChatSession := ⟨"S", "P", updatedAt, by decide⟩

/-- Somebody says tea, corrects it to milk, and has this answer replaced by one
that says water. -/
def corrected : List Event :=
  [.opened (session 0), .said "S" "Hello" (.answered (objective "T1" "I1" "F1" "tea" 1)),
    .said "S" "Hello" (.answered (objective "T2" "I2" "F2" "milk" 2)),
    .retried "S" "T2" "P" false (.answered (objective "T3" "I3" "F3" "water" 3))
      fun _ => ("F4", 4)]

def opened : Store := { sessions := [session 0] }

def teaSaid : Store where
  sessions := [session 1]
  turns := [helloTurn "S" 1 "T1" "I1" none]
  interpretations := [objectiveRecord "I1" "tea"]
  facts := [objectiveFact "T1" "I1" "F1" "tea" 1 none]

def milkSaid : Store where
  sessions := [session 2]
  turns := [helloTurn "S" 1 "T1" "I1" none, helloTurn "S" 2 "T2" "I2" none]
  interpretations := [objectiveRecord "I1" "tea", objectiveRecord "I2" "milk"]
  facts := [objectiveFact "T1" "I1" "F1" "tea" 1 none,
    objectiveFact "T2" "I2" "F2" "milk" 2 (some "F1")]

def waterSaid : Store where
  sessions := [session 3]
  turns := [helloTurn "S" 1 "T1" "I1" none, helloTurn "S" 2 "T2" "I2" (some "T3"),
    helloTurn "S" 3 "T3" "I3" none]
  interpretations := [objectiveRecord "I1" "tea", objectiveRecord "I2" "milk",
    objectiveRecord "I3" "water"]
  facts := [objectiveFact "T1" "I1" "F1" "tea" 1 none,
    objectiveFact "T2" "I2" "F2" "milk" 2 (some "F1"),
    objectiveFact "T3" "I3" "F3" "water" 3 (some "F2")]

theorem casefold_tea : casefold plain "tea" = "tea" := by decide

theorem casefold_milk : casefold plain "milk" = "milk" := by decide

theorem casefold_water : casefold plain "water" = "water" := by decide

theorem step_opened : step plain {} (.opened (session 0)) = opened := by
  simp [step, Store.saveChatSession, upsert, opened]

theorem step_tea : step plain opened
    (.said "S" "Hello" (.answered (objective "T1" "I1" "F1" "tea" 1))) = teaSaid := by
  simp [step, safeReply, persist, turnOf, Store.chatSessions, opened, session, Store.chatTurns,
    candidates, Reply.record, objective, extract_objective, Store.saveChatTurn, upsert,
    Store.saveConversationInterpretation, commitFacts, commitFact, Commit.start,
    Store.activeFacts, Store.unreplaced, Store.globalItems, Store.globalSessions,
    Store.supersededTurns, Store.conversationFacts, byKey, Commit.write,
    Store.saveConversationFact, Store.saveChatSession, teaSaid, helloTurn, objectiveRecord,
    objectiveFact]

theorem step_milk : step plain teaSaid
    (.said "S" "Hello" (.answered (objective "T2" "I2" "F2" "milk" 2))) = milkSaid := by
  simp [step, safeReply, persist, turnOf, Store.chatSessions, teaSaid, session, Store.chatTurns,
    candidates, Reply.record, objective, extract_objective, Store.saveChatTurn, upsert,
    Store.saveConversationInterpretation, commitFacts, commitFact, Commit.start,
    Store.activeFacts, Store.unreplaced, Store.globalItems, Store.globalSessions,
    Store.supersededTurns, Store.conversationFacts, byKey, Commit.write,
    Store.saveConversationFact, Store.saveChatSession, milkSaid, helloTurn, objectiveRecord,
    objectiveFact, truthy, ConversationFact.key, casefold_tea, casefold_milk]

theorem step_water : step plain milkSaid
    (.retried "S" "T2" "P" false (.answered (objective "T3" "I3" "F3" "water" 3))
      fun _ => ("F4", 4)) = waterSaid := by
  simp [step, retryAnswer, latestAnswer, liveTurns, bind, Except.bind, pure, Except.pure, failed,
    supersede, recommit, commitWithAssociations, safeReply, persist, turnOf, Store.chatSessions,
    milkSaid, session, Store.chatTurns, candidates, Reply.record, objective, extract_objective,
    Store.saveChatTurn, upsert, Store.saveConversationInterpretation, commitFacts, commitFact,
    Commit.start, Store.activeFacts, Store.unreplaced, Store.globalItems, Store.globalSessions,
    Store.supersededTurns, Store.conversationFacts, byKey, Commit.write,
    Store.saveConversationFact, Store.saveChatSession, waterSaid, helloTurn, objectiveRecord,
    objectiveFact, truthy, ConversationFact.key, casefold_milk, casefold_water,
    List.mergeSort, List.MergeSort.Internal.splitInTwo]

theorem after_corrected : after plain corrected = waterSaid := by
  simp [after, corrected, step_opened, step_tea, step_milk, step_water]

theorem latest_milk :
    (liveTurns milkSaid "S").getLast? = some (helloTurn "S" 2 "T2" "I2" none) := by
  simp [liveTurns, Store.chatTurns, milkSaid, helloTurn, truthy, List.mergeSort,
    List.MergeSort.Internal.splitInTwo]

theorem fresh_corrected : Along (Fresh plain) (step plain) {} corrected := by
  refine ⟨?_, ?_, ?_, ?_, trivial⟩
  · simp [Fresh, session]
  · rw [step_opened]
    constructor <;> simp [opened, turnOf, candidates, Reply.record, objective, extract_objective]
  · rw [step_opened, step_tea]
    constructor <;> simp [teaSaid, turnOf, candidates, Reply.record, objective, extract_objective,
      helloTurn, objectiveRecord, objectiveFact]
  · rw [step_opened, step_tea, step_milk]
    rintro previous hprevious
    obtain rfl := Option.some.inj (latest_milk.symm.trans hprevious)
    constructor <;> simp [milkSaid, turnOf, candidates, rebuilt, Reply.record, objective,
      extract_objective, helloTurn, objectiveRecord, objectiveFact]

/-- Tea is active again, beside water. -/
theorem sessionFacts_corrected : sessionFacts (after plain corrected) "S" =
    [objectiveFact "T1" "I1" "F1" "tea" 1 none,
      objectiveFact "T3" "I3" "F3" "water" 3 (some "F2")] := by
  rw [after_corrected]
  simp [sessionFacts, Store.activeFacts, Store.unreplaced, Store.globalItems,
    Store.globalSessions, Store.supersededTurns, Store.conversationFacts, Store.chatTurns,
    waterSaid, helloTurn, objectiveFact, truthy, List.mergeSort,
    List.MergeSort.Internal.splitInTwo]

/-- The retry that replaces milk brings back tea. -/
theorem tea_comes_back :
    Along (Fresh plain) (step plain) {} corrected ∧ ¬ OnePerKey (after plain corrected) := by
  refine ⟨fresh_corrected, fun hone => ?_⟩
  have hsession : session 3 ∈ (after plain corrected).sessions := by
    simp [after_corrected, waterSaid]
  have hnodup := (hone _ hsession).1
  change ((sessionFacts _ "S").map _).Nodup at hnodup
  rw [sessionFacts_corrected] at hnodup
  simp [objectiveFact, ConversationFact.key] at hnodup

/-- The retry whose answer states milk again. -/
def repeating : Event :=
  .retried "S" "T2" "P" false (.answered (objective "T3" "I3" "F3" "milk" 3)) fun _ => ("F4", 4)

theorem after_milk : after plain (corrected.take 3) = milkSaid := by
  simp [after, corrected, step_opened, step_tea, step_milk]

theorem fresh_repeating :
    Along (Fresh plain) (step plain) {} (corrected.take 3 ++ [repeating]) := by
  have hrun := (along_append.mp (List.take_append_drop 3 corrected ▸ fresh_corrected)).1
  refine along_append.mpr ⟨hrun, ?_, trivial⟩
  change Fresh plain (after plain (corrected.take 3)) repeating
  rw [after_milk]
  rintro previous hprevious
  obtain rfl := Option.some.inj (latest_milk.symm.trans hprevious)
  constructor <;> simp [milkSaid, turnOf, candidates, rebuilt, Reply.record, objective,
    extract_objective, helloTurn, objectiveRecord, objectiveFact]

theorem said_milk (slot : Slot) :
    List.Sublist (said milkSaid slot) [("T1", "tea"), ("T2", "milk")] :=
  List.Sublist.map _ (List.filter_sublist)

theorem clean_repeating :
    Along (Clean plain) (step plain) {} (corrected.take 3 ++ [repeating]) := by
  refine along_append.mpr ⟨⟨trivial, trivial, trivial, trivial⟩, ?_, trivial⟩
  change Clean plain (after plain (corrected.take 3)) repeating
  rw [after_milk]
  intro session previous hlatest _ slot turn
  obtain ⟨-, hid, hlast⟩ := latestAnswer_ok hlatest
  obtain rfl := Option.some.inj (latest_milk.symm.trans hlast)
  have hsaid := said_milk slot
  constructor
  · rintro ⟨a, b, c, hsub, -⟩
    exact absurd (hsub.trans hsaid).length_le (by simp)
  · rintro ⟨a, b, hsub, -⟩ last hend value hvalue
    -- tea and milk are both in the line, so milk is the last of it
    have hline : said milkSaid slot = [("T1", "tea"), ("T2", "milk")] :=
      hsaid.eq_of_length_le (by simpa using hsub.length_le)
    rw [hline] at hend
    obtain rfl := Option.some.inj hend
    obtain ⟨fact, hfact, rfl⟩ := List.mem_map.mp hvalue
    have hmilk : fact.value = "milk" := by
      simp [turn, hid, turnOf, candidates, Reply.record, objective, extract_objective,
        helloTurn] at hfact
      rw [hfact.1]
    rw [hmilk]
    rfl

/-- A correction whose answer is replaced by one that repeats it leaves one
active fact about one thing. -/
theorem onePerKey_after_retry : OnePerKey (after plain (corrected.take 3 ++ [repeating])) :=
  (onePerKey_along_iff fresh_repeating).mpr clean_repeating _ List.prefix_rfl

end RlmGraph.Memory.OneFact
