import Mathlib.Data.Prod.Lex
import Mathlib.Data.Rat.Floor
import RlmGraph.Lib.PyError
import RlmGraph.Lib.Ranking
import RlmGraph.Memory.ContinuityRuns

/-! # The token cache of the memory ranker

The terms of a memory are computed once and kept under its identifier. A cache
of more than 5000 entries releases the unprotected ones of the least importance,
and the entry that was just made is one of them: a request is served if and only
if some other entry is released before it (`served_iff`). -/
namespace RlmGraph.Memory.TokenCache
open RlmGraph.Lib RlmGraph.Lib.Ranking RlmGraph.Lib.Rows
open RlmGraph.Memory.Continuity RlmGraph.Memory.ContinuityRuns

structure TokenEntry where
  terms : List String
  concepts : List String
  vector : List Rat
  importance : ℚ
  protect : Bool
  accessCount : Nat

/-- `token_cache`, in the order of insertion. -/
abbrev Cache := List (String × TokenEntry)

def Cache.ids (cache : Cache) : List String := cache.map Prod.fst

def tokenEntry (host : Host) (text : String) (importance : ℚ) (protect : Bool) : TokenEntry where
  terms := tokenizeMemory host text
  concepts := extractMemoryConcepts host text
  vector := host.hashedVector (tokenizeMemory host text)
  importance := importance
  protect := protect
  accessCount := 0

/-- What the entries that may be released are sorted by. -/
def releaseKey (item : String × TokenEntry) : ℚ ×ₗ ℕ ×ₗ String :=
  toLex (item.2.importance, toLex (item.2.accessCount, item.1))

def releasedFirst (a b : String × TokenEntry) : Bool := decide (releaseKey a ≤ releaseKey b)

/-- `_release_unimportant`. -/
def releaseUnimportant (cache : Cache) : Cache :=
  let excess := cache.length - maxEntries
  if excess = 0 then cache
  else
    let candidates := cache.filter (!·.2.protect)
    let released := (firsts releasedFirst excess candidates).map Prod.fst
    cache.filter fun item => !released.contains item.1

def rememberText (host : Host) (memoryId text : String) (importance : ℚ) (protect : Bool)
    (cache : Cache) : Cache :=
  if memoryId ∈ cache.ids then cache
  else releaseUnimportant (cache ++ [(memoryId, tokenEntry host text importance protect)])

/-- `terms`. -/
def termsOf (host : Host) (memoryId text : String) (cache : Cache) :
    Except PyError (List String) × Cache :=
  let cache := rememberText host memoryId text (1 / 2) false cache
  match cache.find? (·.1 == memoryId) with
  | none => (.error (.key memoryId), cache)
  | some (_, entry) =>
    (.ok entry.terms,
      upsert Prod.fst (memoryId, { entry with accessCount := entry.accessCount + 1 }) cache)

/-! ## What is released -/

section
variable {cache : Cache} {item : String × TokenEntry}

theorem ranks_candidates (hids : cache.ids.Nodup) :
    Ranks releasedFirst (cache.filter (!·.2.protect)) where
  trans a b c hab hbc := by
    rw [releasedFirst, decide_eq_true_iff] at *
    exact hab.trans hbc
  total a b := by
    rw [releasedFirst, releasedFirst, Bool.or_eq_true, decide_eq_true_iff, decide_eq_true_iff]
    exact le_total _ _
  antisymm a ha b hb hab hba := by
    rw [releasedFirst, decide_eq_true_iff] at hab hba
    have hkey : releaseKey a = releaseKey b := le_antisymm hab hba
    have hid : a.1 = b.1 := congrArg (fun key => (ofLex (ofLex key).2).2) hkey
    exact List.inj_on_of_nodup_map hids (List.mem_of_mem_filter ha) (List.mem_of_mem_filter hb) hid
  nodup := (List.Nodup.of_map _ hids).filter _

theorem releaseUnimportant_short (h : cache.length ≤ maxEntries) :
    releaseUnimportant cache = cache := by
  have hexcess : cache.length - maxEntries = 0 := Nat.sub_eq_zero_of_le h
  unfold releaseUnimportant
  rw [hexcess]
  rfl

theorem length_filter_not {α : Type} (p : α → Bool) (items : List α) :
    (items.filter fun item => !p item).length = items.length - items.countP p := by
  induction items with
  | nil => rfl
  | cons item items ih =>
    have hle : items.countP p ≤ items.length := List.countP_le_length
    rw [List.filter_cons, List.countP_cons]
    cases p item with
    | true => simp [ih]
    | false =>
      simp [ih]
      omega

/-- The first of the candidates are released. -/
theorem mem_released (hids : cache.ids.Nodup) (hitem : item ∈ cache) {k : Nat} :
    ((firsts releasedFirst k (cache.filter (!·.2.protect))).map Prod.fst).contains item.1 = true ↔
      item ∈ firsts releasedFirst k (cache.filter (!·.2.protect)) := by
  rw [List.contains_iff_mem, List.mem_map]
  constructor
  · rintro ⟨other, hother, heq⟩
    have hcandidate := ((mem_firsts_iff (ranks_candidates hids)).mp hother).1
    rwa [← List.inj_on_of_nodup_map hids (List.mem_of_mem_filter hcandidate) hitem heq]
  · exact fun h => ⟨item, h, rfl⟩

/-- An entry is kept if it is protected, or if enough candidates go first. -/
theorem mem_releaseUnimportant (hids : cache.ids.Nodup) : item ∈ releaseUnimportant cache ↔
    item ∈ cache ∧ (item.2.protect = true ∨
      cache.length - maxEntries ≤ above releasedFirst (cache.filter (!·.2.protect)) item) := by
  unfold releaseUnimportant
  dsimp only
  split
  · next hexcess =>
    rw [hexcess]
    exact ⟨fun h => ⟨h, .inr (Nat.zero_le _)⟩, And.left⟩
  · rw [List.mem_filter, Bool.not_eq_true', Bool.eq_false_iff]
    refine and_congr_right fun hitem => ?_
    rw [ne_eq, mem_released hids hitem, mem_firsts_iff (ranks_candidates hids), List.mem_filter]
    cases hprotect : item.2.protect with
    | true => simp
    | false => simp [hitem]

/-- As many are released as there are too many, or all candidates. -/
theorem length_releaseUnimportant (hids : cache.ids.Nodup) :
    (releaseUnimportant cache).length =
      cache.length - min (cache.length - maxEntries) (cache.countP (!·.2.protect)) := by
  unfold releaseUnimportant
  dsimp only
  split
  · next hexcess => rw [hexcess, Nat.zero_min, Nat.sub_zero]
  · have hperm := List.mergeSort_perm (cache.filter (!·.2.protect)) releasedFirst
    have hreleased : (cache.filter fun item => ((firsts releasedFirst (cache.length - maxEntries)
        (cache.filter (!·.2.protect))).map Prod.fst).contains item.1).Perm
        (firsts releasedFirst (cache.length - maxEntries) (cache.filter (!·.2.protect))) := by
      refine (List.perm_ext_iff_of_nodup ((List.Nodup.of_map _ hids).filter _) ?_).mpr fun item => ?_
      · exact ((hperm.nodup_iff.mpr (ranks_candidates hids).nodup).sublist (List.take_sublist _ _))
      · rw [List.mem_filter]
        constructor
        · exact fun ⟨hitem, hmem⟩ => (mem_released hids hitem).mp hmem
        · intro hfirst
          have hitem := List.mem_of_mem_filter ((mem_firsts_iff (ranks_candidates hids)).mp hfirst).1
          exact ⟨hitem, (mem_released hids hitem).mpr hfirst⟩
    rw [length_filter_not, List.countP_eq_length_filter, hreleased.length_eq, firsts,
      List.length_take, hperm.length_eq, List.countP_eq_length_filter]

/-- No protected entry is released. -/
theorem filter_protect_releaseUnimportant (hids : cache.ids.Nodup) :
    (releaseUnimportant cache).filter (·.2.protect) = cache.filter (·.2.protect) := by
  unfold releaseUnimportant
  dsimp only
  split
  · rfl
  · rw [List.filter_filter]
    refine List.filter_congr fun item hitem => ?_
    cases hprotect : item.2.protect with
    | false => rfl
    | true =>
      have hnot : ¬((firsts releasedFirst (cache.length - maxEntries)
          (cache.filter (!·.2.protect))).map Prod.fst).contains item.1 = true := by
        rw [mem_released hids hitem, mem_firsts_iff (ranks_candidates hids), List.mem_filter, hprotect]
        simp
      simpa using hnot

end

/-! ## Calls -/

inductive Call where
  | rememberText (memoryId text : String) (importance : ℚ) (protect : Bool)
  | terms (memoryId text : String)

def Call.memoryId : Call → String
  | rememberText memoryId _ _ _ | terms memoryId _ => memoryId

def Call.text : Call → String
  | rememberText _ text _ _ | terms _ text => text

/-- The cache after a call. -/
def Call.after (host : Host) (cache : Cache) : Call → Cache
  | rememberText memoryId text importance protect =>
    TokenCache.rememberText host memoryId text importance protect cache
  | terms memoryId text => (termsOf host memoryId text cache).2

/-- The text first remembered for each identifier since it was absent. -/
def Call.firstTexts (texts : String → String) (cache : Cache) (call : Call) : String → String :=
  if call.memoryId ∈ cache.ids then texts else Function.update texts call.memoryId call.text

/-- What is kept of the first texts, and how much. -/
structure Kept (host : Host) (texts : String → String) (cache : Cache) : Prop where
  ids : cache.ids.Nodup
  recalled : ∀ item ∈ cache, item.2.terms = tokenizeMemory host (texts item.1)
  bounded : cache.length ≤ max maxEntries (cache.countP (·.2.protect))

/-- What a call does right: a request is answered with the terms of the first text,
every protected entry stays, and the cache stays within its bound. -/
structure Right (host : Host) (texts : String → String) (cache : Cache) (call : Call) : Prop where
  answers : ∀ memoryId text, call = .terms memoryId text → (termsOf host memoryId text cache).1 =
    .ok (tokenizeMemory host (call.firstTexts texts cache memoryId))
  protects : ∀ item ∈ cache, item.2.protect = true →
    ∃ entry, (item.1, entry) ∈ call.after host cache ∧ entry.protect = true
  admits : ∀ memoryId text importance, call = .rememberText memoryId text importance true →
    memoryId ∉ cache.ids →
      ∃ entry, (memoryId, entry) ∈ call.after host cache ∧ entry.protect = true
  bounded : (call.after host cache).length ≤
    max maxEntries ((call.after host cache).countP (·.2.protect))

/-- A request for a memory that a full cache does not have finds an unprotected entry
that is released before the one it makes. -/
def Spares (cache : Cache) (call : Call) : Prop :=
  ∀ memoryId text, call = .terms memoryId text → memoryId ∉ cache.ids → maxEntries ≤ cache.length →
    ∃ item ∈ cache, item.2.protect = false ∧ releaseKey item < toLex (1 / 2, toLex (0, memoryId))

section
variable {host : Host} {texts : String → String} {cache : Cache} {memoryId text : String}
  {importance : ℚ} {protect : Bool}

theorem nodup_added (h : cache.ids.Nodup) (hnew : memoryId ∉ cache.ids) (entry : TokenEntry) :
    Cache.ids (cache ++ [(memoryId, entry)]) |>.Nodup :=
  nodup_concat h hnew

theorem ids_releaseUnimportant (h : cache.ids.Nodup) : (releaseUnimportant cache).ids.Nodup := by
  have hsub : (releaseUnimportant cache).Sublist cache := by
    unfold releaseUnimportant
    dsimp only
    split
    · exact List.Sublist.refl cache
    · exact List.filter_sublist
  exact h.sublist (hsub.map Prod.fst)

theorem bounded_releaseUnimportant (h : cache.ids.Nodup) : (releaseUnimportant cache).length ≤
    max maxEntries ((releaseUnimportant cache).countP (·.2.protect)) := by
  have hprotected : (releaseUnimportant cache).countP (·.2.protect) =
      cache.countP (·.2.protect) := by
    rw [List.countP_eq_length_filter, filter_protect_releaseUnimportant h,
      ← List.countP_eq_length_filter]
  have hsplit := length_filter_not (fun item : String × TokenEntry => item.2.protect) cache
  rw [hprotected, length_releaseUnimportant h, List.countP_eq_length_filter, hsplit]
  have hle : cache.countP (·.2.protect) ≤ cache.length := List.countP_le_length
  omega

/-- Remembering a text keeps the first texts. -/
theorem kept_rememberText (h : Kept host texts cache) : Kept host
    (if memoryId ∈ cache.ids then texts else Function.update texts memoryId text)
    (rememberText host memoryId text importance protect cache) := by
  unfold rememberText
  by_cases hold : memoryId ∈ cache.ids
  · rw [if_pos hold, if_pos hold]
    exact h
  · rw [if_neg hold, if_neg hold]
    have hids := nodup_added h.ids hold (tokenEntry host text importance protect)
    refine ⟨ids_releaseUnimportant hids, fun item hitem => ?_, bounded_releaseUnimportant hids⟩
    obtain hitem | hitem := List.mem_append.mp ((mem_releaseUnimportant hids).mp hitem).1
    · have hne : item.1 ≠ memoryId := fun heq => hold (heq ▸ List.mem_map_of_mem hitem)
      rw [Function.update_of_ne hne]
      exact h.recalled item hitem
    · rw [List.mem_singleton.mp hitem, Function.update_self]
      rfl

/-- The entry of a memory that is there. -/
theorem find?_of_ids (h : memoryId ∈ cache.ids) :
    ∃ entry, cache.find? (·.1 == memoryId) = some (memoryId, entry) := by
  obtain ⟨item, hitem, rfl⟩ := List.mem_map.mp h
  have hsome : (cache.find? (·.1 == item.1)).isSome = true :=
    List.find?_isSome.mpr ⟨item, hitem, beq_self_eq_true _⟩
  obtain ⟨found, hfound⟩ := Option.isSome_iff_exists.mp hsome
  have hkey : found.1 = item.1 := by simpa using List.find?_some hfound
  exact ⟨found.2, by rw [hfound, ← hkey]⟩

/-- Counting an access changes neither the terms nor the protection. -/
theorem kept_touched {entry : TokenEntry} (h : Kept host texts cache)
    (hmem : (memoryId, entry) ∈ cache) : Kept host texts
      (upsert Prod.fst (memoryId, { entry with accessCount := entry.accessCount + 1 }) cache) := by
  have hold : memoryId ∈ cache.map Prod.fst := List.mem_map_of_mem hmem
  refine ⟨nodup_upsert h.ids, fun item hitem => ?_, ?_⟩
  · obtain rfl | ⟨hitem, -⟩ := mem_upsert.mp hitem
    · exact h.recalled (memoryId, entry) hmem
    · exact h.recalled item hitem
  · have hlength := congrArg List.length (@map_key_upsert_old _ _ _ Prod.fst
      (memoryId, { entry with accessCount := entry.accessCount + 1 }) cache hold)
    have hcount := @length_filter_upsert_old _ _ _ Prod.fst
      (memoryId, { entry with accessCount := entry.accessCount + 1 }) cache (·.2.protect) hold
      fun item hitem hkey => by
        rw [List.inj_on_of_nodup_map h.ids hitem hmem hkey]
    rw [List.length_map, List.length_map] at hlength
    rw [hlength, List.countP_eq_length_filter, hcount, ← List.countP_eq_length_filter]
    exact h.bounded

/-- A request either finds its memory, and answers, or does not. -/
theorem termsOf_cases (host : Host) (memoryId text : String) (cache : Cache) :
    (memoryId ∉ (rememberText host memoryId text (1 / 2) false cache).ids ∧
      termsOf host memoryId text cache =
        (.error (.key memoryId), rememberText host memoryId text (1 / 2) false cache)) ∨
    ∃ entry, (memoryId, entry) ∈ rememberText host memoryId text (1 / 2) false cache ∧
      termsOf host memoryId text cache = (.ok entry.terms,
        upsert Prod.fst (memoryId, { entry with accessCount := entry.accessCount + 1 })
          (rememberText host memoryId text (1 / 2) false cache)) := by
  by_cases hmem : memoryId ∈ (rememberText host memoryId text (1 / 2) false cache).ids
  · obtain ⟨entry, hfind⟩ := find?_of_ids hmem
    refine .inr ⟨entry, List.mem_of_find?_eq_some hfind, ?_⟩
    unfold termsOf
    dsimp only
    rw [hfind]
  · have hfind : (rememberText host memoryId text (1 / 2) false cache).find? (·.1 == memoryId) = none :=
      List.find?_eq_none.mpr fun item hitem heq =>
        hmem (List.mem_map.mpr ⟨item, hitem, beq_iff_eq.mp heq⟩)
    refine .inl ⟨hmem, ?_⟩
    unfold termsOf
    dsimp only
    rw [hfind]

/-- **Every call keeps the first texts.** -/
theorem kept_after (h : Kept host texts cache) (call : Call) :
    Kept host (call.firstTexts texts cache) (call.after host cache) := by
  cases call with
  | rememberText memoryId text importance protect => exact kept_rememberText h
  | terms memoryId text =>
    have hkept : Kept host ((Call.terms memoryId text).firstTexts texts cache)
        (rememberText host memoryId text (1 / 2) false cache) := kept_rememberText h
    change Kept host _ (termsOf host memoryId text cache).2
    obtain ⟨-, heq⟩ | ⟨entry, hmem, heq⟩ := termsOf_cases host memoryId text cache
    · rw [heq]
      exact hkept
    · rw [heq]
      exact kept_touched hkept hmem

/-- A protected entry, old or new, is there after its text is remembered. -/
theorem protect_rememberText (h : cache.ids.Nodup) {item : String × TokenEntry}
    (hprotect : item.2.protect = true)
    (hitem : item ∈ cache ∨ memoryId ∉ cache.ids ∧
      item = (memoryId, tokenEntry host text importance protect)) :
    item ∈ rememberText host memoryId text importance protect cache := by
  unfold rememberText
  by_cases hold : memoryId ∈ cache.ids
  · rw [if_pos hold]
    exact hitem.resolve_right fun hnew => hnew.1 hold
  · rw [if_neg hold, mem_releaseUnimportant (nodup_added h hold _)]
    refine ⟨List.mem_append.mpr (hitem.imp_right fun hnew => ?_), .inl hprotect⟩
    exact List.mem_singleton.mpr hnew.2

/-- The entry that a request makes stays if there is room, or another one goes first. -/
theorem requested_mem_iff (h : Kept host texts cache) (hnew : memoryId ∉ cache.ids) :
    memoryId ∈ (rememberText host memoryId text (1 / 2) false cache).ids ↔
      (maxEntries ≤ cache.length → ∃ item ∈ cache, item.2.protect = false ∧
        releaseKey item < toLex (1 / 2, toLex (0, memoryId))) := by
  have hids := nodup_added h.ids hnew (tokenEntry host text (1 / 2) false)
  have hentry : memoryId ∈ (rememberText host memoryId text (1 / 2) false cache).ids ↔
      (memoryId, tokenEntry host text (1 / 2) false) ∈
        releaseUnimportant (cache ++ [(memoryId, tokenEntry host text (1 / 2) false)]) := by
    unfold rememberText
    rw [if_neg hnew]
    constructor
    · intro hmem
      obtain ⟨item, hitem, hkey⟩ := List.mem_map.mp hmem
      obtain hold | hsame := List.mem_append.mp ((mem_releaseUnimportant hids).mp hitem).1
      · exact absurd (hkey ▸ List.mem_map_of_mem hold) hnew
      · rw [List.mem_singleton.mp hsame] at hitem
        exact hitem
    · exact fun hmem => List.mem_map.mpr ⟨_, hmem, rfl⟩
  have hself : above releasedFirst [(memoryId, tokenEntry host text (1 / 2) false)]
      (memoryId, tokenEntry host text (1 / 2) false) = 0 := by
    simp [above, releasedFirst]
  have hnone : (tokenEntry host text (1 / 2) false).protect = false := rfl
  have habove : above releasedFirst ((cache ++ [(memoryId, tokenEntry host text (1 / 2) false)]).filter
      (!·.2.protect)) (memoryId, tokenEntry host text (1 / 2) false) =
      (cache.filter (!·.2.protect)).countP fun item =>
        releaseKey item < toLex (1 / 2, toLex (0, memoryId)) := by
    rw [List.filter_append, List.filter_cons_of_pos (by rw [hnone]; rfl), List.filter_nil, above_append,
      hself, Nat.add_zero]
    refine List.countP_congr fun item _ => ?_
    rw [releasedFirst, Bool.not_eq_true', decide_eq_false_iff_not, not_le, decide_eq_true_iff]
    rfl
  have hsome : 0 < (cache.filter (!·.2.protect)).countP (fun item =>
      decide (releaseKey item < toLex (1 / 2, toLex (0, memoryId)))) ↔
      ∃ item ∈ cache, item.2.protect = false ∧
        releaseKey item < toLex (1 / 2, toLex (0, memoryId)) := by
    simp only [List.countP_pos_iff, List.mem_filter, Bool.not_eq_true', decide_eq_true_iff, and_assoc]
  have hfull : (∃ item ∈ cache, item.2.protect = false ∧
      releaseKey item < toLex (1 / 2, toLex (0, memoryId))) → cache.length ≤ maxEntries := by
    intro ⟨item, hitem, hprotect, _⟩
    have hless : cache.countP (·.2.protect) < cache.length := by
      refine lt_of_le_of_ne List.countP_le_length fun hall => ?_
      have hprotected := List.countP_eq_length.mp hall item hitem
      rw [hprotect] at hprotected
      cases hprotected
    have hbounded := h.bounded
    omega
  rw [hentry, mem_releaseUnimportant hids, habove, List.length_append, List.length_singleton,
    ← hsome]
  rw [← hsome] at hfull
  constructor
  · rintro ⟨-, hprotect | hexcess⟩ hlong
    · rw [hnone] at hprotect
      cases hprotect
    · omega
  · intro hspared
    refine ⟨List.mem_append_right _ (List.mem_singleton.mpr rfl), .inr ?_⟩
    by_cases hlong : maxEntries ≤ cache.length
    · have hpositive := hspared hlong
      have hlength := hfull hpositive
      omega
    · omega

/-- A protected entry stays protected when an access is counted. -/
theorem protect_touched {entry : TokenEntry} (h : cache.ids.Nodup) (hmem : (memoryId, entry) ∈ cache)
    {item : String × TokenEntry} (hitem : item ∈ cache) (hprotect : item.2.protect = true) :
    ∃ found, (item.1, found) ∈
      upsert Prod.fst (memoryId, { entry with accessCount := entry.accessCount + 1 }) cache ∧
        found.protect = true := by
  by_cases hkey : item.1 = memoryId
  · have hsame : item = (memoryId, entry) := List.inj_on_of_nodup_map h hitem hmem hkey
    rw [hsame] at hprotect ⊢
    exact ⟨_, mem_upsert.mpr (.inl rfl), hprotect⟩
  · exact ⟨item.2, mem_upsert.mpr (.inr ⟨hitem, hkey⟩), hprotect⟩

/-- What a call does right but for the answer. -/
theorem protects_after (h : Kept host texts cache) (call : Call) {item : String × TokenEntry}
    (hitem : item ∈ cache) (hprotect : item.2.protect = true) :
    ∃ entry, (item.1, entry) ∈ call.after host cache ∧ entry.protect = true := by
  cases call with
  | rememberText memoryId text importance protect =>
    exact ⟨item.2, protect_rememberText h.ids hprotect (.inl hitem), hprotect⟩
  | terms memoryId text =>
    have hremembered : item ∈ rememberText host memoryId text (1 / 2) false cache :=
      protect_rememberText h.ids hprotect (.inl hitem)
    change ∃ entry, (item.1, entry) ∈ (termsOf host memoryId text cache).2 ∧ _
    obtain ⟨-, heq⟩ | ⟨entry, hmem, heq⟩ := termsOf_cases host memoryId text cache
    · rw [heq]
      exact ⟨item.2, hremembered, hprotect⟩
    · rw [heq]
      exact protect_touched (kept_rememberText h).ids hmem hremembered hprotect

/-- **A call is right if a request spares the entry it makes.** -/
theorem right_iff (h : Kept host texts cache) (call : Call) :
    Right host texts cache call ↔ Spares cache call := by
  constructor
  · rintro hright memoryId text rfl hnew hlong
    have hanswer := hright.answers memoryId text rfl
    obtain ⟨-, heq⟩ | ⟨entry, hmem, -⟩ := termsOf_cases host memoryId text cache
    · rw [heq] at hanswer
      cases hanswer
    · exact (requested_mem_iff h hnew).mp (List.mem_map_of_mem hmem) hlong
  · intro hspares
    refine ⟨?_, fun item hitem hprotect => protects_after h call hitem hprotect, ?_,
      (kept_after h call).bounded⟩
    · rintro memoryId text rfl
      have hkept : Kept host ((Call.terms memoryId text).firstTexts texts cache)
          (rememberText host memoryId text (1 / 2) false cache) := kept_rememberText h
      obtain ⟨hmissing, -⟩ | ⟨entry, hmem, heq⟩ := termsOf_cases host memoryId text cache
      · have hnew : memoryId ∉ cache.ids := fun hold => hmissing (by
          unfold rememberText
          rwa [if_pos hold])
        exact absurd ((requested_mem_iff h hnew).mpr (hspares memoryId text rfl hnew)) hmissing
      · rw [heq, ← hkept.recalled (memoryId, entry) hmem]
    · rintro memoryId text importance rfl hnew
      exact ⟨_, protect_rememberText h.ids rfl (.inr ⟨hnew, rfl⟩), rfl⟩

end

/-! ## Runs -/

/-- Every call of a run is right. -/
def Served (host : Host) (texts : String → String) (cache : Cache) : List Call → Prop
  | [] => True
  | call :: calls => Right host texts cache call ∧
    Served host (call.firstTexts texts cache) (call.after host cache) calls

/-- Every request of a run spares the entry it makes. -/
def Spared (host : Host) (cache : Cache) : List Call → Prop
  | [] => True
  | call :: calls => Spares cache call ∧ Spared host (call.after host cache) calls

/-- **A run is served if every request spares the entry it makes.** -/
theorem served_iff (host : Host) (texts : String → String) (cache : Cache)
    (h : Kept host texts cache) (calls : List Call) :
    Served host texts cache calls ↔ Spared host cache calls := by
  induction calls generalizing texts cache with
  | nil => exact Iff.rfl
  | cons call calls ih => exact and_congr (right_iff h call) (ih _ _ (kept_after h call))

theorem kept_nil (host : Host) : Kept host (fun _ => "") [] where
  ids := List.nodup_nil
  recalled _ hitem := nomatch hitem
  bounded := Nat.zero_le _

/-! ## A full cache -/

section
variable {host : Host} {texts : String → String} {cache : Cache} {calls more : List Call}

/-- The rest of a run, where its first part has led. -/
theorem Served.rest (h : Kept host texts cache) (hserved : Served host texts cache (calls ++ more)) :
    ∃ texts', Kept host texts' (calls.foldl (Call.after host) cache) ∧
      Served host texts' (calls.foldl (Call.after host) cache) more := by
  induction calls generalizing texts cache with
  | nil => exact ⟨texts, h, hserved⟩
  | cons call calls ih => exact ih (kept_after h call) hserved.2

/-- Texts that fit are all there. -/
theorem after_rememberText (host : Host) (text : String) (importance : ℚ) {ids : List String}
    (hids : (cache.ids ++ ids).Nodup) (hlength : cache.length + ids.length ≤ maxEntries) :
    (ids.map fun id => Call.rememberText id text importance false).foldl (Call.after host) cache =
      cache ++ ids.map fun id => (id, tokenEntry host text importance false) := by
  induction ids generalizing cache with
  | nil => simp
  | cons id ids ih =>
    have hnew : id ∉ cache.ids := fun hold =>
      (List.nodup_append.mp hids).2.2 id hold id List.mem_cons_self rfl
    have hadded : (Call.rememberText id text importance false).after host cache =
        cache ++ [(id, tokenEntry host text importance false)] := by
      change rememberText host id text importance false cache = _
      unfold rememberText
      rw [if_neg hnew, releaseUnimportant_short]
      rw [List.length_append]
      exact (Nat.add_le_add_left (Nat.succ_le_succ (Nat.zero_le _)) _).trans hlength
    rw [List.map_cons, List.foldl_cons, hadded, ih]
    · simp
    · simpa [Cache.ids, List.append_assoc] using hids
    · rw [List.length_append, List.length_singleton]
      rw [List.length_cons] at hlength
      omega

end

/-- As many identifiers as the cache may hold. -/
@[irreducible]
def manyIds : List String := (List.range maxEntries).map fun n => String.ofList (List.replicate (n + 1) 'M')

/-- As many memories of one importance as the cache may hold. -/
def manyCalls (importance : ℚ) : List Call :=
  manyIds.map fun id => Call.rememberText id "The kettle is on." importance false

def manyEntries (importance : ℚ) : Cache :=
  manyIds.map fun id => (id, tokenEntry plainHost "The kettle is on." importance false)

theorem manyIds_nodup : manyIds.Nodup := by
  unfold manyIds
  refine List.nodup_range.map fun m n hmn => ?_
  have hlength := congrArg (fun text => text.toList.length) hmn
  simpa using hlength

theorem mem_manyIds {id : String} :
    id ∈ manyIds ↔ ∃ n < maxEntries, String.ofList (List.replicate (n + 1) 'M') = id := by
  unfold manyIds
  rw [List.mem_map]
  simp only [List.mem_range]

theorem length_manyIds : manyIds.length = maxEntries := by
  unfold manyIds
  rw [List.length_map, List.length_range]

theorem after_manyCalls (importance : ℚ) :
    (manyCalls importance).foldl (Call.after plainHost) [] = manyEntries importance := by
  have hfits : ([] : Cache).length + manyIds.length ≤ maxEntries := by
    rw [List.length_nil, Nat.zero_add]
    exact length_manyIds.le
  have hnodup : (Cache.ids [] ++ manyIds).Nodup := by
    rw [Cache.ids, List.map_nil, List.nil_append]
    exact manyIds_nodup
  rw [manyCalls, after_rememberText plainHost _ importance hnodup hfits, List.nil_append]
  rfl

theorem new_manyEntries (importance : ℚ) : "" ∉ (manyEntries importance).ids := by
  intro hmem
  obtain ⟨item, hitem, hkey⟩ := List.mem_map.mp hmem
  obtain ⟨id, hid, rfl⟩ := List.mem_map.mp hitem
  obtain ⟨n, -, rfl⟩ := mem_manyIds.mp hid
  have hempty := congrArg (fun text => text.toList.length) hkey
  simp at hempty

theorem spared_append {host : Host} {cache : Cache} {calls more : List Call} :
    Spared host cache (calls ++ more) ↔
      Spared host cache calls ∧ Spared host (calls.foldl (Call.after host) cache) more := by
  induction calls generalizing cache with
  | nil => simp [Spared]
  | cons call calls ih => exact (and_congr_right fun _ => ih).trans and_assoc.symm

theorem spared_manyCalls (importance : ℚ) : Spared plainHost [] (manyCalls importance) := by
  unfold manyCalls
  generalize ([] : Cache) = cache
  induction manyIds generalizing cache with
  | nil => trivial
  | cons id ids ih => exact ⟨(fun memoryId text heq => nomatch heq), ih _⟩

/-- A memory is asked for when the cache is full of less important ones: one of
them is released. -/
theorem served_iff_kettle : Served plainHost (fun _ => "") []
    (manyCalls (1 / 4) ++ [.terms "" "The kettle is off."]) := by
  have hfirst : "M" ∈ manyIds := mem_manyIds.mpr ⟨0, by decide, rfl⟩
  have hentry : ("M", tokenEntry plainHost "The kettle is on." (1 / 4) false) ∈
      manyEntries (1 / 4) := List.mem_map.mpr ⟨"M", hfirst, rfl⟩
  have hlast : Spares (manyEntries (1 / 4)) (.terms "" "The kettle is off.") := by
    intro memoryId text _ _ _
    refine ⟨_, hentry, rfl, Prod.Lex.toLex_lt_toLex.mpr (Or.inl ?_)⟩
    change (1 / 4 : ℚ) < 1 / 2
    norm_num
  rw [served_iff plainHost (fun _ => "") [] (kept_nil plainHost), spared_append, after_manyCalls]
  exact ⟨spared_manyCalls (1 / 4), hlast, trivial⟩

/-- The request for one more memory finds the entry it made released. -/
theorem full_cache_refuses : ¬∀ calls, Served plainHost (fun _ => "") [] calls := by
  intro h
  obtain ⟨texts, hkept, hserved⟩ :=
    (h (manyCalls 1 ++ [.terms "" "The kettle is off."])).rest (kept_nil plainHost)
  rw [after_manyCalls] at hkept hserved
  have hspares := (right_iff hkept _).mp hserved.1
  obtain ⟨item, hitem, -, hless⟩ := hspares "" "The kettle is off." rfl (new_manyEntries 1)
    (length_manyIds.symm.trans (List.length_map _).symm).le
  obtain ⟨id, -, rfl⟩ := List.mem_map.mp hitem
  have himportance : (1 : ℚ) ≤ 1 / 2 := by
    obtain hlt | ⟨heq, -⟩ := Prod.Lex.toLex_lt_toLex.mp hless
    · exact hlt.le
    · exact heq.le
  norm_num at himportance

end RlmGraph.Memory.TokenCache
