import RlmGraph.Memory.Continuity
import RlmGraph.Lib.Results

/-! # Runs of the continuity memory

Requests whose texts stay on one line, whose identifier has a character that is
no white space, and which find fewer than 5000 records keep the records and
their index in step, so the memory stays open (`memory_stays_open`). A text
with a line break that JSON does not escape closes the memory for good
(`separator_locks_memory`). A call that is repeated is compared with its own
moment and so never finds its record (`repeated_never_returned`). -/
namespace RlmGraph.Memory.ContinuityRuns
open RlmGraph.Lib.JsonText RlmGraph.Lib.JsonLines RlmGraph.Lib.PyText RlmGraph.Lib.Rows
open RlmGraph.Lib.Results RlmGraph.Memory.Continuity

variable {host : Host} {q : Request} {r : ContinuityMemoryRecord} {rs : List ContinuityMemoryRecord}
  {s s' : Store} {entries : Entries} {now : String}

/-! ## Records in their file -/

theorem recordJson_get? (r : ContinuityMemoryRecord) (key : String) :
    (canon (recordJson r)).get? key =
      (List.lookup key (bodyFields r.toBody ++ [("content_sha256", .str r.contentSha256)])).map canon := by
  rw [recordJson, canon_get? (by simp [bodyFields])]

theorem mapM_str (texts : List String) :
    (texts.map Json.str).mapM (fun | .str s => some s | _ => none) = some texts := by
  induction texts with
  | nil => rfl
  | cons text texts ih =>
    rw [List.map_cons, List.mapM_cons, ih]
    rfl

/-- A record is read back as it was written. -/
theorem recordOfJson_recordJson (r : ContinuityMemoryRecord) :
    recordOfJson (canon (recordJson r)) = some r := by
  have horder : textsAt (canon (recordJson r)) "field_order" = some r.fieldOrder := by
    rw [textsAt, recordJson_get?]
    simp only [bodyFields, List.cons_append, List.lookup, beq_self_eq_true, String.reduceBEq,
      Option.map_some, canon_arr, List.map_map, Function.comp_def, canon_str]
    exact mapM_str r.fieldOrder
  simp [recordOfJson, horder, textAt, flagAt, recordJson_get?, bodyFields, List.lookup]

theorem records_of_file (hfile : s.file = dumpLines style (rs.map recordJson))
    (hline : ∀ r ∈ rs, OneLine (recordJson r)) : records s = some rs := by
  have hload : loadLines s.file = some (rs.map fun r => canon (recordJson r)) := by
    rw [hfile, loadLines_dumpLines style, List.map_map]
    · rfl
    · intro v hv
      obtain ⟨r, hr, rfl⟩ := List.mem_map.mp hv
      exact hline r hr
  simp only [records, hload, Option.bind_eq_bind, Option.bind_some]
  clear hfile hline hload
  induction rs with
  | nil => rfl
  | cons r rs ih =>
    rw [List.map_cons, List.mapM_cons, recordOfJson_recordJson, ih]
    rfl

/-! ## Requests -/

theorem require_ok {ok : Bool} {e : ContinuityError} {u : Unit} (h : require ok e = .ok u) :
    ok = true := by
  cases ok with
  | true => rfl
  | false => cases h

/-- What a validated request has. -/
structure Valid (q : Request) : Prop where
  texts : [q.projectScope, q.originTaskId, q.claimType, q.semanticRule, q.workerModel].all
    (!isBlankText ·) = true
  fieldOrder : fieldOrderOk q.fieldOrder = true
  canary : isCanary q.runCanary = true
  output : isDigest q.workerOutputDigest = true
  validator : isDigest q.semanticValidatorDigest = true
  test : isDigest q.testResultDigest = true
  patch : isDigest q.candidatePatchDigest = true
  status : statusOk q.verificationStatus = true
  provenance :
    provenanceOk q.verificationStatus q.candidatePromoted q.createdAfterValidation = true

theorem validate_ok {u : Unit} (h : validate q = .ok u) : Valid q := by
  obtain ⟨_, htexts, h⟩ := bind_ok h
  obtain ⟨_, horder, h⟩ := bind_ok h
  obtain ⟨_, hcanary, h⟩ := bind_ok h
  obtain ⟨_, houtput, h⟩ := bind_ok h
  obtain ⟨_, hvalidator, h⟩ := bind_ok h
  obtain ⟨_, htest, h⟩ := bind_ok h
  obtain ⟨_, hpatch, h⟩ := bind_ok h
  obtain ⟨_, hstatus, h⟩ := bind_ok h
  exact ⟨require_ok htexts, require_ok horder, require_ok hcanary, require_ok houtput,
    require_ok hvalidator, require_ok htest, require_ok hpatch, require_ok hstatus, require_ok h⟩

/-- The free texts of a request. -/
def Request.texts (q : Request) : List String :=
  [q.id, q.projectScope, q.originTaskId, q.claimType, q.semanticRule, q.workerModel] ++ q.fieldOrder

/-- No free text has a line break that JSON leaves as it is, and the identifier
is not blank. -/
structure Request.Clean (q : Request) : Prop where
  plain : ∀ text ∈ Request.texts q, plain text = true
  named : isBlankText q.id = false

theorem plain_of_digits {alphabet : List Char} {text : String}
    (halphabet : ∀ c ∈ alphabet, isWideBreak c = false) (h : text.toList.all (alphabet.contains ·) = true) :
    ∀ c ∈ text.toList, isWideBreak c = false := by
  intro c hc
  have hmem := List.all_eq_true.mp h c hc
  exact halphabet c (by simpa using hmem)

theorem plain_digest {text : String} (h : isDigest text = true) :
    ∀ c ∈ text.toList, isWideBreak c = false := by
  rw [isDigest, Bool.and_eq_true] at h
  exact plain_of_digits (forall_false_of_all (by decide)) h.2

theorem plain_canary {text : String} (h : isCanary text = true) :
    ∀ c ∈ text.toList, isWideBreak c = false := by
  rw [isCanary, Bool.and_eq_true] at h
  exact plain_of_digits (forall_false_of_all (by decide)) h.2

theorem plain_iff {text : String} : plain text = true ↔ ∀ c ∈ text.toList, isWideBreak c = false := by
  simp [plain]

theorem plain_status {status : String} (h : statusOk status = true) :
    ∀ c ∈ status.toList, isWideBreak c = false := by
  rw [statusOk, Bool.or_eq_true, beq_iff_eq, beq_iff_eq] at h
  rcases h with rfl | rfl <;> exact forall_false_of_all (by decide)

/-- **The record of a clean request stands on one line.** -/
theorem oneLine_record (hvalid : Valid q) (hclean : Request.Clean q) :
    OneLine (recordJson (q.record host)) := by
  have hplain : ∀ text ∈ Request.texts q, ∀ c ∈ text.toList, isWideBreak c = false :=
    fun text htext => plain_iff.mp (hclean.plain text htext)
  have hstr : ∀ text ∈ Request.texts q, OneLine (.str text) := fun text htext => .str (hplain text htext)
  have horder : OneLine (.arr (q.fieldOrder.map .str)) := by
    refine .arr fun item hitem => ?_
    obtain ⟨text, htext, rfl⟩ := List.mem_map.mp hitem
    exact hstr text (List.mem_append_right _ htext)
  have hcreated : OneLine (.str (host.isoformat q.moment)) :=
    .str (plain_iff.mp (host.isoformat_text q.moment).2)
  refine .obj ?_ ?_
  · simp only [bodyFields, List.cons_append, List.nil_append, List.forall_mem_cons]
    and_intros <;> first | exact forall_false_of_all (by decide) | exact List.forall_mem_nil _
  · simp only [bodyFields, List.cons_append, List.nil_append, List.forall_mem_cons]
    refine ⟨hstr q.id ?_, hstr q.projectScope ?_, hstr q.originTaskId ?_, hstr q.claimType ?_,
      hstr q.semanticRule ?_, horder, .str (plain_canary hvalid.canary),
      .str (plain_status hvalid.status), hstr q.workerModel ?_, .str (plain_digest hvalid.output),
      .str (plain_digest hvalid.validator), .str (plain_digest hvalid.test),
      .str (plain_digest hvalid.patch), .bool _, .bool _, hcreated,
      .str (plain_digest (host.sha256_digest _)), by simp⟩
    all_goals simp [Request.texts]

/-- A record that passes every check has no errors. -/
theorem recordErrors_eq_nil
    (htexts : [r.memoryId, r.projectScope, r.originTaskId, r.claimType, r.semanticRule, r.workerModel,
      r.createdAt].all (!isBlankText ·) = true)
    (horder : fieldOrderOk r.fieldOrder = true) (hcanary : isCanary r.runCanary = true)
    (hstatus : statusOk r.verificationStatus = true) (hdigests : ∀ d ∈ digestsOf r, isDigest d.2 = true)
    (htime : host.fromisoformat r.createdAt = true)
    (hhash : contentSha256 host r.toBody = r.contentSha256)
    (hprovenance :
      provenanceOk r.verificationStatus r.candidatePromoted r.createdAfterValidation = true) :
    recordErrors host r = [] := by
  have hnone : ((digestsOf r).flatMap fun d =>
      errorUnless (isDigest d.2) ("Invalid " ++ d.1 ++ " digest: " ++ host.repr r.memoryId)) = [] := by
    refine List.flatMap_eq_nil_iff.mpr fun d hd => ?_
    rw [hdigests d hd]
    rfl
  rw [recordErrors, htexts, horder, hcanary, hstatus, hnone, htime, hhash, hprovenance,
    beq_self_eq_true]
  rfl

/-- **The record of a clean request has no errors.** -/
theorem recordErrors_record (hvalid : Valid q) (hclean : Request.Clean q) :
    recordErrors host (q.record host) = [] := by
  have hnamed : (!isBlankText q.id) = true := by
    rw [hclean.named]
    rfl
  have hcreated : (!isBlankText (host.isoformat q.moment)) = true := by
    rw [(host.isoformat_text q.moment).1]
    rfl
  have htexts := hvalid.texts
  simp only [List.all_cons, List.all_nil, Bool.and_true, Bool.and_eq_true] at htexts
  obtain ⟨hscope, horigin, hclaim, hrule, hworker⟩ := htexts
  refine recordErrors_eq_nil ?_ hvalid.fieldOrder hvalid.canary hvalid.status ?_
    (host.fromisoformat_isoformat q.moment) rfl hvalid.provenance
  · simp only [List.all_cons, List.all_nil, Bool.and_true, Bool.and_eq_true]
    exact ⟨hnamed, hscope, horigin, hclaim, hrule, hworker, hcreated⟩
  · simp only [digestsOf, List.forall_mem_cons]
    exact ⟨hvalid.output, hvalid.validator, hvalid.test, hvalid.patch, host.sha256_digest _,
      fun _ h => (by cases h)⟩

theorem recordsErrors_eq_nil {seen : List String} (hids : (rs.map (·.memoryId)).Nodup)
    (hseen : ∀ r ∈ rs, r.memoryId ∉ seen) (hsound : ∀ r ∈ rs, recordErrors host r = []) :
    recordsErrors host seen rs = [] := by
  induction rs generalizing seen with
  | nil => rfl
  | cons r rs ih =>
    rw [List.map_cons, List.nodup_cons] at hids
    have hnew : (!seen.contains r.memoryId) = true := by
      simpa using hseen r List.mem_cons_self
    have hrest : ∀ r' ∈ rs, r'.memoryId ∉ r.memoryId :: seen := by
      intro r' hr' hmem
      rcases List.mem_cons.mp hmem with heq | hmem
      · exact hids.1 (heq ▸ List.mem_map_of_mem hr')
      · exact hseen r' (List.mem_cons_of_mem r hr') hmem
    rw [recordsErrors, hnew, hsound r List.mem_cons_self,
      ih hids.2 hrest fun r' hr' => hsound r' (List.mem_cons_of_mem r hr')]
    rfl

/-! ## The index -/

/-- An entry has the tokens of a record. -/
structure EntryFor (host : Host) (r : ContinuityMemoryRecord) (entry : Entry) : Prop where
  fingerprint : entry.fingerprint = host.sha256 (searchable r.toBody)
  terms : entry.terms = tokenizeMemory host (searchable r.toBody)
  concepts : entry.concepts = extractMemoryConcepts host (searchable r.toBody)
  vector : entry.vector = host.hashedVector (tokenizeMemory host (searchable r.toBody))

/-- The index has one entry for each record, and no other entries. -/
structure Indexed (host : Host) (rs : List ContinuityMemoryRecord) (entries : Entries) : Prop where
  nodup : (entries.map Prod.fst).Nodup
  keys : ∀ id, id ∈ entries.map Prod.fst ↔ id ∈ rs.map (·.memoryId)
  tokens : ∀ r ∈ rs, ∃ entry, (r.memoryId, entry) ∈ entries ∧ EntryFor host r entry

theorem indexed_nil : Indexed host [] [] where
  nodup := List.nodup_nil
  keys _ := Iff.rfl
  tokens _ h := by cases h

theorem newEntry_for (r : ContinuityMemoryRecord) (now : String) (importance : Rat) :
    EntryFor host r (newEntry host now (searchable r.toBody) importance) := ⟨rfl, rfl, rfl, rfl⟩

theorem entryErrors_eq_nil (h : Indexed host rs entries) (hr : r ∈ rs) :
    entryErrors host entries r = [] := by
  obtain ⟨entry, hmem, hentry⟩ := h.tokens r hr
  have hlookup : entries.lookup r.memoryId = some entry := (lookup_eq_some_iff h.nodup _ _).mpr hmem
  rw [entryErrors, hlookup]
  simp only [entryChecks, newEntry, hentry.fingerprint, hentry.terms, hentry.concepts, hentry.vector,
    beq_self_eq_true]
  rfl

theorem tokenErrors_eq_nil {saved : Option Entries} (h : Indexed host rs entries)
    (hsaved : saved = some entries ∨ saved = none ∧ rs = []) : tokenErrors host saved rs = [] := by
  rcases hsaved with rfl | ⟨rfl, rfl⟩
  · have hsame : sameMembers (entries.map (·.1)) (rs.map (·.memoryId)) = true := by
      rw [sameMembers, Bool.and_eq_true, List.all_eq_true, List.all_eq_true]
      refine ⟨fun id hid => ?_, fun id hid => ?_⟩
      · exact List.contains_iff_mem.mpr ((h.keys id).mp hid)
      · exact List.contains_iff_mem.mpr ((h.keys id).mpr hid)
    have hentries : rs.flatMap (entryErrors host entries) = [] :=
      List.flatMap_eq_nil_iff.mpr fun r hr => entryErrors_eq_nil h hr
    rw [tokenErrors, hsame, hentries]
    rfl
  · rfl

/-- A new record gets an entry as long as there is room. -/
theorem Indexed.add (h : Indexed host rs entries) (hnew : r.memoryId ∉ rs.map (·.memoryId))
    (hroom : entries.length < maxEntries) (now : String) (importance : Rat) :
    Indexed host (rs ++ [r])
        (indexRemember host now r.memoryId (searchable r.toBody) importance entries).2 ∧
      (indexRemember host now r.memoryId (searchable r.toBody) importance entries).2.length =
        entries.length + 1 := by
  have hkey : r.memoryId ∉ entries.map Prod.fst := fun hmem => hnew ((h.keys _).mp hmem)
  have hlookup : entries.lookup r.memoryId = none := by
    cases hfound : entries.lookup r.memoryId with
    | none => rfl
    | some entry => exact absurd (List.mem_map_of_mem ((lookup_eq_some_iff h.nodup _ _).mp hfound)) hkey
  have hentries : (indexRemember host now r.memoryId (searchable r.toBody) importance entries).2 =
      entries ++ [(r.memoryId, newEntry host now (searchable r.toBody) importance)] := by
    rw [indexRemember, hlookup]
    show releaseUnimportant (upsert Prod.fst _ entries) = _
    rw [upsert_new hkey, releaseUnimportant, if_pos]
    rw [List.length_append, List.length_singleton]
    exact hroom
  rw [hentries]
  refine ⟨⟨?_, fun id => ?_, fun r' hr' => ?_⟩, by simp⟩
  · exact nodup_concat h.nodup hkey
  · rw [List.map_append, List.map_append, List.mem_append, List.mem_append, h.keys]
    rfl
  · rcases List.mem_append.mp hr' with hr' | hr'
    · obtain ⟨entry, hmem, hentry⟩ := h.tokens r' hr'
      exact ⟨entry, List.mem_append_left _ hmem, hentry⟩
    · rw [List.mem_singleton.mp hr']
      exact ⟨_, List.mem_append_right _ (List.mem_singleton_self _), newEntry_for r now importance⟩

/-- Reading the entry of a record notes the access and changes no tokens. -/
theorem Indexed.touch (h : Indexed host rs entries) (hids : (rs.map (·.memoryId)).Nodup) (hr : r ∈ rs)
    (now : String) (importance : Rat) :
    Indexed host rs (indexRemember host now r.memoryId (searchable r.toBody) importance entries).2 ∧
      (indexRemember host now r.memoryId (searchable r.toBody) importance entries).2.length =
        entries.length := by
  obtain ⟨cached, hmem, hcached⟩ := h.tokens r hr
  have hlookup : entries.lookup r.memoryId = some cached := (lookup_eq_some_iff h.nodup _ _).mpr hmem
  have hkey : r.memoryId ∈ entries.map Prod.fst := List.mem_map_of_mem hmem
  obtain ⟨touched, htouched, hentries⟩ : ∃ touched, EntryFor host r touched ∧
      (indexRemember host now r.memoryId (searchable r.toBody) importance entries).2 =
        upsert Prod.fst (r.memoryId, touched) entries := by
    refine ⟨_, ?_, by simp only [indexRemember, hlookup, newEntry, hcached.fingerprint, if_true]; rfl⟩
    exact ⟨rfl, hcached.terms, hcached.concepts, hcached.vector⟩
  have hkeys : (upsert Prod.fst (r.memoryId, touched) entries).map Prod.fst = entries.map Prod.fst :=
    map_key_upsert_old hkey
  rw [hentries]
  refine ⟨⟨?_, fun id => ?_, fun r' hr' => ?_⟩, ?_⟩
  · rw [hkeys]
    exact h.nodup
  · rw [hkeys]
    exact h.keys id
  · by_cases hsame : r'.memoryId = r.memoryId
    · obtain rfl := List.inj_on_of_nodup_map hids hr' hr hsame
      exact ⟨touched, mem_upsert.mpr (Or.inl rfl), htouched⟩
    · obtain ⟨entry, hmem', hentry⟩ := h.tokens r' hr'
      exact ⟨entry, mem_upsert.mpr (Or.inr ⟨hmem', hsame⟩), hentry⟩
  · rw [← List.length_map Prod.fst, hkeys, List.length_map]

theorem Indexed.candidates (h : Indexed host rs entries) (hids : (rs.map (·.memoryId)).Nodup)
    {part : List ContinuityMemoryRecord} (hsub : ∀ r ∈ part, r ∈ rs) (now : String)
    (query : List String) (projectScope : String) :
    Indexed host rs (candidatesOf host now query projectScope part entries).2 ∧
      (candidatesOf host now query projectScope part entries).2.length = entries.length := by
  induction part generalizing entries with
  | nil => exact ⟨h, rfl⟩
  | cons r rest ih =>
    obtain ⟨htouch, hlength⟩ := h.touch hids (hsub r List.mem_cons_self) now (1 / 2)
    obtain ⟨hrest, hlength'⟩ := ih htouch fun r' hr' => hsub r' (List.mem_cons_of_mem r hr')
    exact ⟨hrest, hlength'.trans hlength⟩

/-! ## Runs -/

/-- The files hold the records, and the index agrees with them. -/
structure Holds (host : Host) (rs : List ContinuityMemoryRecord) (s : Store) : Prop where
  file : s.file = dumpLines style (rs.map recordJson)
  lines : ∀ r ∈ rs, OneLine (recordJson r)
  sound : ∀ r ∈ rs, recordErrors host r = []
  ids : (rs.map (·.memoryId)).Nodup
  saved : s.saved = some s.entries ∨ s.saved = none ∧ rs = []
  indexed : Indexed host rs s.entries

theorem holds_empty (host : Host) : Holds host [] {} where
  file := rfl
  lines _ h := by cases h
  sound _ h := by cases h
  ids := List.nodup_nil
  saved := Or.inr ⟨rfl, rfl⟩
  indexed := indexed_nil

theorem Holds.records (h : Holds host rs s) : records s = some rs := records_of_file h.file h.lines

/-- **Files that agree pass the check.** -/
theorem Holds.verifies (h : Holds host rs s) : verifyIntegrity host s = [] := by
  have hrecords : recordsErrors host [] rs = [] :=
    recordsErrors_eq_nil h.ids (fun _ _ => List.not_mem_nil) h.sound
  rw [verifyIntegrity, h.records]
  show recordsErrors host [] rs ++ tokenErrors host s.saved rs = []
  rw [hrecords, tokenErrors_eq_nil h.indexed h.saved]
  rfl

theorem Holds.checks (h : Holds host rs s) (message : String) :
    checkIntegrity host message s = .ok () := by
  rw [checkIntegrity, h.verifies]
  rfl

/-- A request does not meet the defects: its texts stay on one line, it has a
name, and there is room for its entry unless its record is there. -/
def Meets (s : Store) (q : Request) : Prop :=
  Request.Clean q ∧ (s.entries.length < maxEntries ∨ q.id ∈ s.entries.map Prod.fst)

theorem Holds.remember (h : Holds host rs s) (hmeets : Meets s q)
    (hremember : remember host q s = .ok (r, s')) :
    (r ∈ rs ∧ s' = s) ∨ (r ∉ rs ∧ Holds host (rs ++ [r]) s') := by
  obtain ⟨_, hvalidate, hremember⟩ := bind_ok hremember
  have hvalid := validate_ok hvalidate
  obtain ⟨_, -, hremember⟩ := bind_ok hremember
  rw [h.records] at hremember
  dsimp only [Option.getD_some] at hremember
  split at hremember
  · rename_i existing hfound
    obtain ⟨_, -, hremember⟩ := bind_ok hremember
    cases hremember
    exact Or.inl ⟨List.mem_of_find?_eq_some hfound, rfl⟩
  · rename_i hnone
    cases hremember
    have hnew : q.id ∉ rs.map (·.memoryId) := by
      intro hmem
      obtain ⟨other, hother, hid⟩ := List.mem_map.mp hmem
      have hne := List.find?_eq_none.mp hnone other hother
      exact hne (beq_iff_eq.mpr hid)
    have hroom : s.entries.length < maxEntries := by
      rcases hmeets.2 with hroom | hkey
      · exact hroom
      · exact absurd ((h.indexed.keys _).mp hkey) hnew
    have hindexed := (h.indexed.add (r := q.record host) hnew hroom (host.isoformat q.moment)
      (if (q.record host).verificationStatus = "VERIFIED" then 1 else 1 / 10)).1
    refine Or.inr ⟨fun hmem => hnew (List.mem_map_of_mem hmem), ?_, ?_, ?_, ?_, Or.inl rfl, hindexed⟩
    · show s.file ++ _ = _
      rw [h.file, List.map_append, List.map_singleton, dumpLines_append]
    · exact forall_mem_concat h.lines (oneLine_record hvalid hmeets.1)
    · exact forall_mem_concat h.sound (recordErrors_record hvalid hmeets.1)
    · exact nodup_concat h.ids hnew

theorem Holds.retrieve (h : Holds host rs s) {query projectScope : String}
    {reply : ContinuityRetrieval}
    (hretrieve : retrieve host now query projectScope s = .ok (reply, s')) : Holds host rs s' := by
  obtain ⟨_, -, hretrieve⟩ := bind_ok hretrieve
  obtain ⟨_, -, hretrieve⟩ := bind_ok hretrieve
  obtain ⟨_, -, hretrieve⟩ := bind_ok hretrieve
  rw [h.records] at hretrieve
  cases hretrieve
  dsimp only [Option.getD_some]
  split
  · exact h
  · exact { h with
      saved := Or.inl rfl
      indexed := (h.indexed.candidates h.ids (fun _ hr => hr) now _ projectScope).1 }

theorem Holds.reopen (h : Holds host rs s) : Holds host rs (reopen s) := by
  have hentries : s.saved.getD [] = s.entries := by
    rcases h.saved with hsaved | ⟨hsaved, rfl⟩
    · rw [hsaved]
      rfl
    · rw [hsaved]
      have hkeys := h.indexed.keys
      cases hempty : s.entries with
      | nil => rfl
      | cons p rest =>
        have hkey := (hkeys p.1).mp (by rw [hempty]; exact List.mem_cons_self)
        cases hkey
  rw [Continuity.reopen, hentries]
  exact h

/-- Accepted calls one after the other, each `remember` under a condition on
the store it finds, with the records they returned. -/
inductive Run (host : Host) (meets : Store → Request → Prop) :
    List ContinuityMemoryRecord → Store → Prop
  | empty : Run host meets [] {}
  | remember {returned : List ContinuityMemoryRecord} {s s' : Store} {q : Request}
      {r : ContinuityMemoryRecord} (h : Run host meets returned s) (hmeets : meets s q)
      (hremember : remember host q s = .ok (r, s')) : Run host meets (returned ++ [r]) s'
  | retrieve {returned : List ContinuityMemoryRecord} {s s' : Store} {now query projectScope : String}
      {reply : ContinuityRetrieval} (h : Run host meets returned s)
      (hretrieve : retrieve host now query projectScope s = .ok (reply, s')) : Run host meets returned s'
  | reopen {returned : List ContinuityMemoryRecord} {s : Store} (h : Run host meets returned s) :
      Run host meets returned (reopen s)

theorem eraseDups_concat {α : Type} [DecidableEq α] (xs : List α) (x : α) :
    (xs ++ [x]).eraseDups = if x ∈ xs then xs.eraseDups else xs.eraseDups ++ [x] := by
  rw [List.eraseDups_append]
  by_cases hx : x ∈ xs
  · simp [List.removeAll, hx]
  · simp [List.removeAll, hx, List.eraseDups_cons]

theorem Run.holds {returned : List ContinuityMemoryRecord} (h : Run host Meets returned s) :
    Holds host returned.eraseDups s := by
  induction h with
  | empty => exact holds_empty host
  | remember _ hmeets hremember ih =>
    rw [eraseDups_concat]
    rcases ih.remember hmeets hremember with ⟨hold, rfl⟩ | ⟨hnew, hholds⟩
    · rw [if_pos (List.mem_eraseDups.mp hold)]
      exact ih
    · rw [if_neg (fun hmem => hnew (List.mem_eraseDups.mpr hmem))]
      exact hholds
  | retrieve _ hretrieve ih => exact ih.retrieve hretrieve
  | reopen _ ih => exact ih.reopen

/-- A refusal for failed integrity. -/
def refused {α : Type} (result : Except ContinuityError α) : Prop :=
  ∃ message, result = .error (.integrity message)

section
variable {α β : Type}

theorem not_refused_ok (a : α) : ¬refused (.ok a : Except ContinuityError α) := by
  rintro ⟨message, h⟩
  cases h

theorem not_refused_require {ok : Bool} {message : String} : ¬refused (require ok (.value message)) := by
  rintro ⟨_, h⟩
  cases ok <;> cases h

theorem not_refused_bind {x : Except ContinuityError α} {f : α → Except ContinuityError β}
    (hx : ¬refused x) (hf : ∀ a, ¬refused (f a)) : ¬refused (x >>= f) := by
  cases x with
  | error e =>
    rintro ⟨message, h⟩
    cases h
    exact hx ⟨message, rfl⟩
  | ok a => exact hf a

end

theorem validate_not_refused (q : Request) : ¬refused (validate q) := by
  refine not_refused_bind not_refused_require fun _ => ?_
  refine not_refused_bind not_refused_require fun _ => ?_
  refine not_refused_bind not_refused_require fun _ => ?_
  refine not_refused_bind not_refused_require fun _ => ?_
  refine not_refused_bind not_refused_require fun _ => ?_
  refine not_refused_bind not_refused_require fun _ => ?_
  refine not_refused_bind not_refused_require fun _ => ?_
  refine not_refused_bind not_refused_require fun _ => ?_
  exact not_refused_require

theorem Holds.remember_open (h : Holds host rs s) (q : Request) :
    ¬refused (Continuity.remember host q s) := by
  refine not_refused_bind (validate_not_refused q) fun _ => ?_
  rw [h.checks]
  refine not_refused_bind (not_refused_ok ()) fun _ => ?_
  split
  · exact not_refused_bind not_refused_require fun _ => not_refused_ok _
  · exact not_refused_ok _

theorem Holds.retrieve_open (h : Holds host rs s) (now query projectScope : String) :
    ¬refused (Continuity.retrieve host now query projectScope s) := by
  refine not_refused_bind not_refused_require fun _ => ?_
  refine not_refused_bind not_refused_require fun _ => ?_
  rw [h.checks]
  exact not_refused_bind (not_refused_ok ()) fun _ => not_refused_ok _

/-- **The memory stays open.** In a run whose requests stay on one line, have a
name and find room, the check finds no error, the records are the ones that
were returned, and no call is refused for failed integrity. -/
theorem memory_stays_open {returned : List ContinuityMemoryRecord} (h : Run host Meets returned s) :
    verifyIntegrity host s = [] ∧ records s = some returned.eraseDups ∧
      (∀ q, ¬refused (remember host q s)) ∧
      ∀ now query projectScope, ¬refused (retrieve host now query projectScope s) := by
  have hholds := h.holds
  exact ⟨hholds.verifies, hholds.records, hholds.remember_open, hholds.retrieve_open⟩

/-! ## A sample record -/

def zeros : String := String.ofList (List.replicate 64 '0')

def plainHost : Host where
  sha256 _ := zeros
  sha256_digest _ := by decide
  isoformat _ := "2026-01-01T00:00:00+00:00"
  fromisoformat text := text == "2026-01-01T00:00:00+00:00"
  fromisoformat_isoformat _ := rfl
  isoformat_text _ := by decide
  tables := ⟨id, id, id⟩
  hashedVector _ := []
  repr text := text

def ruleRequest (rule : String) : Request where
  projectScope := "P"
  originTaskId := "T"
  claimType := "ORDER"
  semanticRule := rule
  fieldOrder := ["a", "b", "c"]
  runCanary := "0123456789AB"
  verificationStatus := "PROPOSED"
  workerModel := "worker"
  workerOutputDigest := zeros
  semanticValidatorDigest := zeros
  testResultDigest := zeros
  candidatePatchDigest := zeros
  candidatePromoted := false
  createdAfterValidation := true
  memoryId := some "M"

/-- The store after the first request. -/
def after (q : Request) : Store := ((remember plainHost q {}).toOption.map (·.2)).getD {}

theorem remember_plain {q : Request} (h : (remember plainHost q {}).toOption.isSome = true) :
    ∃ r, remember plainHost q {} = .ok (r, after q) := by
  obtain ⟨⟨r, s⟩, hreply⟩ := Option.isSome_iff_exists.mp h
  refine ⟨r, ?_⟩
  rw [after, hreply]
  cases hremember : remember plainHost q {} with
  | error e =>
    rw [hremember] at hreply
    cases hreply
  | ok reply =>
    rw [hremember] at hreply
    cases hreply
    rfl

theorem meets_sample : Meets {} (ruleRequest "keep order") := by
  refine ⟨⟨?_, by decide⟩, Or.inl (by decide)⟩
  decide

/-- A second request finds the memory open. -/
theorem memory_stays_open_sample : verifyIntegrity plainHost (after (ruleRequest "keep order")) = [] ∧
    ¬refused (remember plainHost (ruleRequest "keep colour") (after (ruleRequest "keep order"))) := by
  obtain ⟨r, hremember⟩ := remember_plain (q := ruleRequest "keep order") (by decide +kernel)
  have hopen := memory_stays_open (.remember .empty meets_sample hremember)
  exact ⟨hopen.1, hopen.2.2.1 _⟩

/-- The store after a rule with a line separator. -/
def locked : Store := after (ruleRequest "keep\u2028order")

theorem locked_remembered : ∃ r, remember plainHost (ruleRequest "keep\u2028order") {} = .ok (r, locked) :=
  remember_plain (by decide +kernel)

theorem locked_eq : locked = ({} : Store).append plainHost "2026-01-01T00:00:00+00:00"
    ((ruleRequest "keep\u2028order").record plainHost) := by
  obtain ⟨r, hremember⟩ := locked_remembered
  obtain ⟨_, -, hremember⟩ := bind_ok hremember
  obtain ⟨_, -, hremember⟩ := bind_ok hremember
  have hnone : records {} = some [] := rfl
  rw [hnone] at hremember
  exact (Prod.mk.inj (Except.ok.inj hremember)).2.symm

/-- The separator cuts the line of the record in two, and neither part is a value. -/
theorem records_locked : records locked = none := by
  have hfile : locked.file = print style (canon (recordJson
      ((ruleRequest "keep\u2028order").record plainHost))) ++ ['\n'] := by
    rw [locked_eq, Store.append, dumpLine, dumps, String.toList_ofList]
    rfl
  have hload : loadLines (print style (canon (recordJson
      ((ruleRequest "keep\u2028order").record plainHost))) ++ ['\n']) = none := by
    unfold loadLines loads
    simp only [String.toList_ofList]
    decide +kernel
  rw [records, hfile, hload]
  rfl

theorem locked_unreadable : verifyIntegrity plainHost locked = ["Unreadable continuity memory"] := by
  rw [verifyIntegrity, records_locked]

/-- A memory that fails its check takes no request. -/
theorem remember_of_failed {host : Host} {q : Request} {s : Store} {e : ContinuityError}
    (hvalid : validate q = .ok ())
    (hcheck : checkIntegrity host "Existing continuity memory failed integrity: " s = .error e) :
    remember host q s = .error e := by
  simp only [remember, hvalid, hcheck, bind, Except.bind]

/-- **A line separator in a rule closes the memory**: the request is accepted,
and the next one is refused. -/
theorem separator_locks_memory : ∃ returned s, Run plainHost (fun _ _ => True) returned s ∧
    verifyIntegrity plainHost s ≠ [] ∧ refused (remember plainHost (ruleRequest "keep order") s) := by
  obtain ⟨r, hremember⟩ := locked_remembered
  have hvalid : validate (ruleRequest "keep order") = .ok () := by decide +kernel
  have hcheck : checkIntegrity plainHost "Existing continuity memory failed integrity: " locked =
      .error (.integrity ("Existing continuity memory failed integrity: " ++
        "; ".intercalate ["Unreadable continuity memory"])) := by
    rw [checkIntegrity, locked_unreadable]
    rfl
  refine ⟨_, locked, .remember .empty trivial hremember, ?_, ?_⟩
  · rw [locked_unreadable]
    exact List.cons_ne_nil _ _
  · exact ⟨_, remember_of_failed hvalid hcheck⟩

/-! ## Repeated calls -/

/-- An accepted call returns a record with the moment of the call, be it an old
record that is found or a new one. -/
theorem record_of_remember (hremember : remember host q s = .ok (r, s')) : r = q.record host := by
  obtain ⟨_, -, hremember⟩ := bind_ok hremember
  obtain ⟨_, -, hremember⟩ := bind_ok hremember
  split at hremember
  · obtain ⟨_, hsame, hremember⟩ := bind_ok hremember
    obtain ⟨rfl, -⟩ := Prod.mk.inj (Except.ok.inj hremember)
    exact beq_iff_eq.mp (require_ok hsame)
  · exact (Prod.mk.inj (Except.ok.inj hremember)).1.symm

/-- Another record under an identifier that is taken is refused. -/
theorem Holds.conflicts (h : Holds host rs s) (hr : r ∈ rs) (hvalid : validate q = .ok ())
    (hid : q.id = r.memoryId) (hother : q.record host ≠ r) :
    Continuity.remember host q s =
      .error (.value "Continuity memory identifier has conflicting content.") := by
  have hfound : rs.find? (·.memoryId == (q.record host).memoryId) = some r := by
    rw [show (q.record host).memoryId = r.memoryId from hid]
    exact find?_of_mem h.ids hr
  have hbeq : (r == q.record host) = false := beq_eq_false_iff_ne.mpr (Ne.symm hother)
  simp only [Continuity.remember, hvalid, h.checks, h.records, Option.getD_some, hfound, hbeq, require,
    bind, Except.bind, Bool.false_eq_true, if_false]

/-- The same call at another moment. -/
def Request.at (q : Request) (moment : Nat) : Request := { q with moment }

theorem record_at_ne {later : Nat} (hlater : host.isoformat later ≠ host.isoformat q.moment) :
    (Request.at q later).record host ≠ q.record host :=
  fun hsame => hlater (congrArg (·.createdAt) hsame)

/-- **A repeated call never returns the record of the first**: the record it
compares has a moment of its own, whatever the calls between have left. -/
theorem repeated_never_returned {later : Nat} {s₂ : Store}
    (hfirst : remember host q s = .ok (r, s'))
    (hlater : host.isoformat later ≠ host.isoformat q.moment) :
    remember host (Request.at q later) s₂ ≠ .ok (r, s₂) := by
  intro hagain
  exact record_at_ne hlater ((record_of_remember hagain).symm.trans (record_of_remember hfirst))

/-- A host whose clock shows one microsecond after the start of the year. -/
def clockHost : Host where
  sha256 _ := zeros
  sha256_digest _ := by decide
  isoformat moment :=
    if moment = 0 then "2026-01-01T00:00:00+00:00" else "2026-01-01T00:00:00.000001+00:00"
  fromisoformat text :=
    text == "2026-01-01T00:00:00+00:00" || text == "2026-01-01T00:00:00.000001+00:00"
  fromisoformat_isoformat moment := by by_cases h : moment = 0 <;> simp [h]
  isoformat_text moment := by
    by_cases h : moment = 0
    · rw [if_pos h]
      decide
    · rw [if_neg h]
      decide
  tables := ⟨id, id, id⟩
  hashedVector _ := []
  repr text := text

theorem remembered_clock : ∃ r s, remember clockHost (ruleRequest "keep order") {} = .ok (r, s) := by
  have hsome : (remember clockHost (ruleRequest "keep order") {}).toOption.isSome = true := by
    decide +kernel
  obtain ⟨⟨r, s⟩, hreply⟩ := Option.isSome_iff_exists.mp hsome
  refine ⟨r, s, ?_⟩
  cases hremember : remember clockHost (ruleRequest "keep order") {} with
  | error e =>
    rw [hremember] at hreply
    cases hreply
  | ok reply =>
    rw [hremember] at hreply
    exact congrArg Except.ok (Option.some.inj hreply)

/-- The call of the sample, a microsecond later, is refused. -/
theorem repeated_refused : ∃ r s, remember clockHost (ruleRequest "keep order") {} = .ok (r, s) ∧
    remember clockHost (Request.at (ruleRequest "keep order") 1) s =
      .error (.value "Continuity memory identifier has conflicting content.") := by
  obtain ⟨r, s, hfirst⟩ := remembered_clock
  have hrecord := record_of_remember hfirst
  have hholds : Holds clockHost [r] s := by
    rcases (holds_empty clockHost).remember meets_sample hfirst with ⟨hmem, -⟩ | ⟨-, hholds⟩
    · cases hmem
    · exact hholds
  refine ⟨r, s, hfirst, hholds.conflicts (List.mem_singleton_self r) (by decide +kernel) ?_ ?_⟩
  · rw [hrecord]
    rfl
  · rw [hrecord]
    exact record_at_ne (by decide)

theorem repeated_never_returned_clock :
    clockHost.isoformat 1 ≠ clockHost.isoformat (ruleRequest "keep order").moment ∧
      ∃ r s, remember clockHost (ruleRequest "keep order") {} = .ok (r, s) ∧
        remember clockHost (Request.at (ruleRequest "keep order") 1) s ≠ .ok (r, s) := by
  obtain ⟨r, s, hfirst⟩ := remembered_clock
  exact ⟨by decide, r, s, hfirst, repeated_never_returned hfirst (by decide)⟩

end RlmGraph.Memory.ContinuityRuns
