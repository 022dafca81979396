import RlmGraph.Lib.JsonText
import RlmGraph.Lib.Lines
import RlmGraph.Lib.PyError
import RlmGraph.Lib.PyText

/-! # The symbol memory of a project

Classes and functions of the source files of a project, recorded by the lines
the parser gives them, and found again by a query. The lines are counted by the
parser and looked up among those of `str.splitlines`, which cuts at more
characters: an address denotes its definition exactly if no such character
stands in front of the definition's end (`denotes_iff`). -/
namespace RlmGraph.Memory.Symbols
open RlmGraph.Lib RlmGraph.Lib.Lines RlmGraph.Lib.PyText

/-! ## Lines -/

/-- A line end of the parser. -/
def isNewline (c : Char) : Bool := c == '\n' || c == '\r'

/-- A line boundary of `str.splitlines`. -/
def isLineBoundary (c : Char) : Bool :=
  let n := c.toNat
  (0x0a ≤ n && n ≤ 0x0d) || (0x1c ≤ n && n ≤ 0x1e) || n == 0x85 || n == 0x2028 || n == 0x2029

/-- No line ends between two characters; a carriage return and a line feed are
one line end. -/
def runsOn (boundary : Char → Bool) (c next : Char) : Bool :=
  !boundary c || (c == '\r' && next == '\n')

def linesAt (boundary : Char → Bool) (text : String) : List (List Char) :=
  text.toList.splitBy (runsOn boundary)

/-- `text.splitlines(keepends=True)`. -/
def splitlines (text : String) : List (List Char) := linesAt isLineBoundary text

/-- The lines as the parser numbers them. -/
def parserLines (text : String) : List (List Char) := linesAt isNewline text

/-- `"".join(lines)`. -/
def joined (lines : List (List Char)) : String := String.ofList lines.flatten

theorem isLineBoundary_of_isNewline {c : Char} (h : isNewline c = true) : isLineBoundary c = true := by
  obtain h | h := Bool.or_eq_true_iff.mp h
  · rw [eq_of_beq h]
    rfl
  · rw [eq_of_beq h]
    rfl

theorem runsOn_finer (c next : Char) (h : runsOn isLineBoundary c next = true) :
    runsOn isNewline c next = true := by
  unfold runsOn at h ⊢
  cases hnewline : isNewline c with
  | false => rfl
  | true => rwa [isLineBoundary_of_isNewline hnewline] at h

/-! ## Syntax trees -/

inductive SymbolKind where
  | classDef
  | function
  deriving DecidableEq

def SymbolKind.text : SymbolKind → String
  | classDef => "class"
  | function => "function"

/-- A class or function definition: what `visit` reads of its node. `names` are
the identifiers anywhere below it. -/
structure Node where
  kind : SymbolKind
  name : String
  lineno : Nat
  endLineno : Nat
  names : List String

/-- `ast.stmt`. -/
inductive Stmt where
  | definition (node : Node) (body : List Stmt)
  | other

/-- A definition and the names of those around it. -/
structure Definition where
  parents : List String
  node : Node

mutual

/-- The definitions of a statement, in the order of `visit`. -/
def Stmt.definitions (parents : List String) : Stmt → List Definition
  | .definition node body => ⟨parents, node⟩ :: definitions (parents ++ [node.name]) body
  | .other => []

def definitions (parents : List String) : List Stmt → List Definition
  | [] => []
  | stmt :: rest => stmt.definitions parents ++ definitions parents rest

end

/-- The first line behind a definition; other statements may share theirs. -/
def Stmt.behind (first : Nat) : Stmt → Nat
  | .definition node _ => node.endLineno + 1
  | .other => first

mutual

/-- The definitions of a statement lie between two lines, and those inside one
start below its first line. -/
def Stmt.Placed (first last : Nat) : Stmt → Prop
  | .definition node body =>
    first ≤ node.lineno ∧ node.lineno ≤ node.endLineno ∧ node.endLineno ≤ last ∧
      Placed (node.lineno + 1) node.endLineno body
  | .other => True

def Placed (first last : Nat) : List Stmt → Prop
  | [] => True
  | stmt :: rest => stmt.Placed first last ∧ Placed (stmt.behind first) last rest

end

/-! ## Records -/

structure SymbolRecord where
  path : String
  symbol : String
  kind : SymbolKind
  signature : String
  startLine : Nat
  endLine : Nat
  contentHash : String
  concepts : List String
  dependencies : List String
  deriving DecidableEq

/-- What `retrieve` returns of a record. The relevance is counted in halves. -/
structure SymbolContext where
  record : SymbolRecord
  source : String
  relevance : Nat
  deriving DecidableEq

structure SymbolHost where
  /-- `ast.parse`, without a tree for a text that is no module. -/
  parse : String → Option (List Stmt)
  parse_placed : ∀ text body, parse text = some body → Placed 1 (parserLines text).length body
  /-- `hashlib.sha256(text.encode()).hexdigest()`. -/
  sha256 : String → String
  tables : CaseTables
  /-- `_WORD.findall`. -/
  findWords : String → List String
  /-- `token_index.terms`. -/
  terms : String → String → List String
  /-- `len(json.dumps(payload))`. -/
  payloadSize : SymbolContext → Nat

/-- The Python files of a project that `rglob` finds, in order, by their
relative paths, with the texts read from them. -/
structure Project where
  files : List (String × String)
  distinct : (files.map Prod.fst).Nodup

def stopWords : List String :=
  ["add", "and", "for", "from", "into", "project", "return", "task", "the", "with"]

/-- `_tokens`. -/
def tokens (host : SymbolHost) (value : String) : List String :=
  (host.findWords ((casefold host.tables value).map fun c => if c = '_' then ' ' else c)).dedup.filter
    (!stopWords.contains ·)

/-- A record as `visit` makes it. -/
def symbolRecord (host : SymbolHost) (path text : String) (definition : Definition) : SymbolRecord :=
  let node := definition.node
  let lines := splitlines text
  let qualified := ".".intercalate (definition.parents ++ [node.name])
  let segment := joined (slice (node.lineno - 1) node.endLineno lines)
  let dependencies := (sortedSet (node.names.filter (· ≠ node.name))).take 30
  let line := String.ofList (lines[node.lineno - 1]?.getD [])
  let signature := String.ofList ((strip line).toList.take 300)
  let concepts := (sortedSet (tokens host
    (qualified ++ " " ++ signature ++ " " ++ " ".intercalate dependencies))).take 30
  { path, symbol := qualified, kind := node.kind, signature, startLine := node.lineno,
    endLine := node.endLineno, contentHash := host.sha256 segment, concepts, dependencies }

/-- Whether no part of a path is `__pycache__`. -/
def isSource (path : String) : Bool := !(path.toList.splitOn '/').contains "__pycache__".toList

/-- The records of one file; a file that does not parse has none. -/
def fileRecords (host : SymbolHost) (path text : String) : List SymbolRecord :=
  match host.parse text with
  | none => []
  | some body => (definitions [] body).map (symbolRecord host path text)

/-- `refresh`. -/
def refresh (host : SymbolHost) (project : Project) : List SymbolRecord :=
  (project.files.filter fun file => isSource file.1).flatMap fun file =>
    fileRecords host file.1 file.2

/-! ## Retrieval -/

def memoryId (record : SymbolRecord) : String :=
  record.path ++ ":" ++ record.symbol ++ ":" ++ record.contentHash

def searchable (record : SymbolRecord) : String :=
  " ".intercalate [record.path, record.symbol, record.kind.text, record.signature,
    " ".intercalate record.concepts, " ".intercalate record.dependencies]

/-- The score of a record, in halves. -/
def score (host : SymbolHost) (queryTokens : List String) (record : SymbolRecord) : Nat :=
  let symbolTokens := host.terms (memoryId record) (searchable record)
  let overlap := (queryTokens.filter symbolTokens.contains).length
  let classHint := if record.kind = .classDef ∧ "class" ∈ queryTokens then 1 else 0
  overlap * 6 + classHint

/-- The order of the ranking. -/
def ranksBefore (a b : Nat × SymbolRecord) : Bool :=
  (compare b.1 a.1 |>.then (compare (decide (a.2.kind = .classDef)) (decide (b.2.kind = .classDef)))
    |>.then (compare a.2.path b.2.path) |>.then (compare a.2.startLine b.2.startLine)).isLE

def ranked (host : SymbolHost) (query : String) (records : List SymbolRecord) :
    List (Nat × SymbolRecord) :=
  (records.map fun record => (score host (tokens host query) record, record)).mergeSort ranksBefore

/-- `(root / path).read_text(encoding="utf-8")`. -/
def Project.readText (project : Project) (path : String) : Except PyError String :=
  match project.files.lookup path with
  | some text => .ok text
  | none => .error (.os s!"No such file or directory: {path}")

/-- The loop of `retrieve` over the ranked records. -/
def select (host : SymbolHost) (project : Project) (maxSymbols charBudget : Nat) :
    List (Nat × SymbolRecord) → Nat → List SymbolContext → Except PyError (List SymbolContext)
  | [], _, selected => .ok selected
  | (score, record) :: rest, used, selected =>
    if selected ≠ [] ∧ score = 0 then select host project maxSymbols charBudget rest used selected
    else do
      let source ← project.readText record.path
      let snippet := joined (slice (record.startLine - 1) record.endLine (splitlines source))
      let payload : SymbolContext := { record, source := snippet, relevance := score }
      let size := host.payloadSize payload
      if charBudget < used + size then select host project maxSymbols charBudget rest used selected
      else if maxSymbols ≤ selected.length + 1 then return selected ++ [payload]
      else select host project maxSymbols charBudget rest (used + size) (selected ++ [payload])

/-- `retrieve`, on the records that `refresh` has written. -/
def retrieve (host : SymbolHost) (project : Project) (query : String) (maxSymbols charBudget : Nat) :
    Except PyError (List SymbolContext) :=
  select host project maxSymbols charBudget (ranked host query (refresh host project)) 2 []

/-! ## What is recorded -/

mutual

theorem Stmt.placed_definitions {first last : Nat} (parents : List String) :
    (stmt : Stmt) → stmt.Placed first last → ∀ d ∈ stmt.definitions parents,
      first ≤ d.node.lineno ∧ d.node.lineno ≤ d.node.endLineno ∧ d.node.endLineno ≤ last
  | .definition node body, h, d, hd => by
    obtain ⟨hfirst, hlines, hlast, hbody⟩ := h
    cases hd with
    | head => exact ⟨hfirst, hlines, hlast⟩
    | tail _ hd =>
      obtain ⟨hd_first, hd_lines, hd_last⟩ := placed_definitions _ body hbody d hd
      exact ⟨by omega, hd_lines, by omega⟩
  | .other, _, d, hd => nomatch hd

theorem placed_definitions {first last : Nat} (parents : List String) :
    (body : List Stmt) → Placed first last body → ∀ d ∈ definitions parents body,
      first ≤ d.node.lineno ∧ d.node.lineno ≤ d.node.endLineno ∧ d.node.endLineno ≤ last
  | [], _, d, hd => nomatch hd
  | stmt :: rest, h, d, hd => by
    obtain ⟨hstmt, hrest⟩ := h
    obtain hd | hd := List.mem_append.mp hd
    · exact Stmt.placed_definitions _ stmt hstmt d hd
    · obtain ⟨hd_first, hd_bounds⟩ := placed_definitions _ rest hrest d hd
      refine ⟨le_trans ?_ hd_first, hd_bounds⟩
      cases stmt with
      | other => exact le_rfl
      | definition node body =>
        have hnode : first ≤ node.lineno ∧ node.lineno ≤ node.endLineno := ⟨hstmt.1, hstmt.2.1⟩
        change first ≤ node.endLineno + 1
        omega

end

/-- A definition of a source file of a project. -/
structure Entry (host : SymbolHost) (project : Project) where
  path : String
  text : String
  body : List Stmt
  definition : Definition
  listed : (path, text) ∈ project.files
  source : isSource path = true
  parsed : host.parse text = some body
  defined : definition ∈ definitions [] body

section
variable {host : SymbolHost} {project : Project}

def Entry.record (entry : Entry host project) : SymbolRecord :=
  symbolRecord host entry.path entry.text entry.definition

/-- The text of a definition, by the lines of the parser. -/
def Entry.definitionText (entry : Entry host project) : String :=
  joined (slice (entry.definition.node.lineno - 1) entry.definition.node.endLineno
    (parserLines entry.text))

theorem mem_refresh {record : SymbolRecord} :
    record ∈ refresh host project ↔ ∃ entry : Entry host project, entry.record = record := by
  constructor
  · intro h
    obtain ⟨⟨path, text⟩, hfile, hrecord⟩ := List.mem_flatMap.mp h
    obtain ⟨hlisted, hsource⟩ := List.mem_filter.mp hfile
    unfold fileRecords at hrecord
    split at hrecord
    · cases hrecord
    · next body hparsed =>
      obtain ⟨d, hd, rfl⟩ := List.mem_map.mp hrecord
      exact ⟨⟨path, text, body, d, hlisted, hsource, hparsed, hd⟩, rfl⟩
  · rintro ⟨entry, rfl⟩
    refine List.mem_flatMap.mpr ⟨(entry.path, entry.text),
      List.mem_filter.mpr ⟨entry.listed, entry.source⟩, ?_⟩
    unfold fileRecords
    rw [entry.parsed]
    exact List.mem_map.mpr ⟨entry.definition, entry.defined, rfl⟩

theorem Entry.bounds (entry : Entry host project) :
    1 ≤ entry.definition.node.lineno ∧ entry.definition.node.lineno ≤ entry.definition.node.endLineno ∧
      entry.definition.node.endLineno ≤ (parserLines entry.text).length :=
  placed_definitions _ _ (host.parse_placed _ _ entry.parsed) _ entry.defined

/-- What is retrieved holds the lines of its record. -/
theorem source_of_select {maxSymbols charBudget used : Nat} {found selected : List SymbolContext}
    {candidates : List (Nat × SymbolRecord)}
    (h : select host project maxSymbols charBudget candidates used selected = .ok found)
    {context : SymbolContext} (hcontext : context ∈ found) :
    context ∈ selected ∨ (∃ score, (score, context.record) ∈ candidates) ∧
      ∃ text, project.readText context.record.path = .ok text ∧ context.source =
        joined (slice (context.record.startLine - 1) context.record.endLine (splitlines text)) := by
  induction candidates generalizing used selected with
  | nil =>
    cases h
    exact Or.inl hcontext
  | cons candidate rest ih =>
    obtain ⟨score, record⟩ := candidate
    have hlater : ∀ {used selected}, select host project maxSymbols charBudget rest used selected = .ok found →
        context ∈ selected ∨ (∃ s, (s, context.record) ∈ (score, record) :: rest) ∧
          ∃ text, project.readText context.record.path = .ok text ∧ context.source =
            joined (slice (context.record.startLine - 1) context.record.endLine (splitlines text)) := by
      intro used selected hrest
      refine (ih hrest).imp_right fun ⟨⟨s, hs⟩, htext⟩ => ⟨⟨s, List.mem_cons_of_mem _ hs⟩, htext⟩
    unfold select at h
    split at h
    · exact hlater h
    · cases htext : project.readText record.path with
      | error error => rw [htext] at h; cases h
      | ok text =>
        rw [htext] at h
        have hpicked : ∀ {context : SymbolContext}, context ∈ selected ++ [SymbolContext.mk record
            (joined (slice (record.startLine - 1) record.endLine (splitlines text))) score] →
            context ∈ selected ∨ (∃ s, (s, context.record) ∈ (score, record) :: rest) ∧
              ∃ text, project.readText context.record.path = .ok text ∧ context.source = joined
                (slice (context.record.startLine - 1) context.record.endLine (splitlines text)) := by
          intro context hmem
          refine (List.mem_append.mp hmem).imp_right fun hone => ?_
          rw [List.mem_singleton.mp hone]
          exact ⟨⟨score, List.mem_cons_self⟩, text, htext, rfl⟩
        simp only [bind, Except.bind, pure, Except.pure] at h
        split at h
        · exact hlater h
        · split at h
          · cases h
            exact hpicked hcontext
          · exact (hlater h).elim hpicked Or.inr

theorem Entry.readText (entry : Entry host project) : project.readText entry.path = .ok entry.text := by
  unfold Project.readText
  rw [(JsonText.lookup_eq_some_iff project.distinct entry.path entry.text).mpr entry.listed]

/-! ## What an address denotes -/

/-- The range of a record, its hash and its retrieved text are those of the
definition. The range is the one `implement` edits. -/
structure Denotes (entry : Entry host project) : Prop where
  range : region (entry.record.startLine - 1) entry.record.endLine (splitlines entry.text) =
    region (entry.definition.node.lineno - 1) entry.definition.node.endLineno (parserLines entry.text)
  hash : entry.record.contentHash = host.sha256 entry.definitionText
  snippet : ∀ query maxSymbols charBudget found context,
    retrieve host project query maxSymbols charBudget = .ok found → context ∈ found →
      context.record = entry.record → context.source = entry.definitionText

/-- Whether all line boundaries in the first lines of the parser are line ends. -/
def OnlyNewlines (text : String) (last : Nat) : Prop :=
  ∀ line ∈ (parserLines text).take last, ∀ c ∈ line.dropLast, isLineBoundary c → isNewline c

end

theorem isChain_iff_dropLast {α : Type} {R S : α → α → Prop} {P : α → Prop} {line : List α}
    (hstep : ∀ c next, R c next → (S c next ↔ P c)) (h : line.IsChain R) :
    line.IsChain S ↔ ∀ c ∈ line.dropLast, P c := by
  induction line with
  | nil => simp
  | cons c line ih =>
    cases line with
    | nil => simp
    | cons next line =>
      obtain ⟨hhead, htail⟩ := List.isChain_cons_cons.mp h
      rw [List.isChain_cons_cons, hstep c next hhead, ih htail, List.dropLast_cons_cons,
        List.forall_mem_cons]

/-- Between two characters of a line of the parser, `str.splitlines` cuts at the
other boundaries only. -/
theorem runsOn_iff {c next : Char} (h : runsOn isNewline c next = true) :
    runsOn isLineBoundary c next = true ↔ (isLineBoundary c = true → isNewline c = true) := by
  unfold runsOn at h ⊢
  cases hnewline : isNewline c with
  | true =>
    rw [hnewline] at h
    rw [isLineBoundary_of_isNewline hnewline]
    simpa using h
  | false =>
    have hreturn : c ≠ '\r' := by
      rintro rfl
      exact absurd hnewline (by decide)
    cases hboundary : isLineBoundary c <;> simp [hreturn]

/-- A record's range is that of its definition exactly if all boundaries up to
the definition's end are line ends. -/
theorem Entry.range_iff {host : SymbolHost} {project : Project} (entry : Entry host project) :
    region (entry.record.startLine - 1) entry.record.endLine (splitlines entry.text) =
        region (entry.definition.node.lineno - 1) entry.definition.node.endLineno
          (parserLines entry.text) ↔
      OnlyNewlines entry.text entry.definition.node.endLineno := by
  obtain ⟨hfirst, hlines, hlast⟩ := entry.bounds
  have hregion := region_eq_iff runsOn_finer ((Nat.sub_le _ 1).trans hlines) hlast
  refine hregion.trans (forall₂_congr fun line hline => ?_)
  have hparser : line.IsChain fun c next => runsOn isNewline c next = true :=
    List.isChain_of_mem_splitBy (List.mem_of_mem_take hline)
  exact isChain_iff_dropLast (fun c next => runsOn_iff) hparser

/-- **An address denotes its definition exactly if no line boundary but line
ends stands in the lines up to its end.** -/
theorem denotes_iff (host : SymbolHost) (project : Project) :
    (∀ record, record ∈ refresh host project ↔ ∃ entry : Entry host project, entry.record = record) ∧
      ∀ entry : Entry host project,
        Denotes entry ↔ OnlyNewlines entry.text entry.definition.node.endLineno := by
  refine ⟨fun record => mem_refresh, fun entry => ?_⟩
  constructor
  · intro h
    exact entry.range_iff.mp h.range
  · intro h
    have hrange := entry.range_iff.mpr h
    have htext : joined (slice (entry.record.startLine - 1) entry.record.endLine
        (splitlines entry.text)) = entry.definitionText :=
      congrArg String.ofList (Prod.mk.inj hrange).2
    refine ⟨hrange, congrArg host.sha256 htext, ?_⟩
    intro query maxSymbols charBudget found context hfound hcontext hrecord
    obtain hselected | ⟨-, text, hread, hsource⟩ := source_of_select hfound hcontext
    · cases hselected
    · have hsame : text = entry.text := by
        rw [hrecord] at hread
        exact Except.ok.inj (hread.symm.trans entry.readText)
      rw [hsource, hrecord, hsame, htext]

/-! ## A form feed in front of a definition -/

/-- The words of an ASCII text. -/
def asciiWords (text : String) : List String :=
  (words (text.map fun c => if c.isAlphanum || c == '_' then c else ' ')).filter fun word =>
    decide (2 ≤ word.length)

/-- A host that parses one text. -/
def oneTextHost (only : String) (tree : List Stmt)
    (placed : Placed 1 (parserLines only).length tree) : SymbolHost where
  parse text := if text = only then some tree else none
  parse_placed text body h := by
    split at h
    · next hsame =>
      cases h
      rw [hsame]
      exact placed
    · cases h
  sha256 text := text
  tables := ⟨id, id, id⟩
  findWords := asciiWords
  terms _ text := asciiWords text
  payloadSize context := context.source.length

/-- The form feed is inside a string literal of the first line. -/
def formFeed : String := "x = '\x0c'\ndef f():\n    pass\n"

def formFeedTree : List Stmt := [.other, .definition ⟨.function, "f", 2, 3, []⟩ [.other]]

def formFeedHost : SymbolHost :=
  oneTextHost formFeed formFeedTree ⟨trivial, ⟨by decide, by decide, by decide, trivial, trivial⟩, trivial⟩

def formFeedProject : Project := ⟨[("a.py", formFeed)], by decide⟩

def formFeedEntry : Entry formFeedHost formFeedProject where
  path := "a.py"
  text := formFeed
  body := formFeedTree
  definition := ⟨[], ⟨.function, "f", 2, 3, []⟩⟩
  listed := List.mem_singleton.mpr rfl
  source := by decide
  parsed := by
    change (if formFeed = formFeed then some formFeedTree else none) = some formFeedTree
    rw [if_pos rfl]
  defined := List.mem_singleton.mpr rfl

theorem form_feed_shifts : formFeedEntry.record ∈ refresh formFeedHost formFeedProject ∧
    formFeedEntry.definitionText = "def f():\n    pass\n" ∧
    formFeedEntry.record.contentHash = formFeedHost.sha256 "'\ndef f():\n" ∧
    ¬Denotes formFeedEntry := by
  have hrecorded : formFeedEntry.record.contentHash = "'\ndef f():\n" := by decide +kernel
  have htext : formFeedEntry.definitionText = "def f():\n    pass\n" := by decide +kernel
  refine ⟨mem_refresh.mpr ⟨formFeedEntry, rfl⟩, htext, hrecorded, fun h => ?_⟩
  have hhash := h.hash
  rw [hrecorded, htext] at hhash
  exact absurd hhash (by decide)

end RlmGraph.Memory.Symbols
