import RlmGraph.Lib.JsonText
import RlmGraph.Lib.PyText
import RlmGraph.Lib.Results

/-! # One value on each line

Files that hold the printed text of one value on each line, read back by a
splitter that knows more line breaks than the printer escapes. Values whose
texts have none of the three others are read back (`loadLines_dumpLines`). -/
namespace RlmGraph.Lib.JsonLines
open RlmGraph.Lib.JsonText RlmGraph.Lib.PyText

/-- The line breaks of `str.splitlines`. -/
def isLineBreak (c : Char) : Bool :=
  let n := c.toNat
  (0x0a ≤ n && n ≤ 0x0d) || (0x1c ≤ n && n ≤ 0x1e) || n == 0x85 || n == 0x2028 || n == 0x2029

/-- The line breaks that a printed text does not escape. -/
def isWideBreak (c : Char) : Bool :=
  let n := c.toNat
  n == 0x85 || n == 0x2028 || n == 0x2029

/-- `text.splitlines()`, with the line read so far in reverse. -/
def splitLines : List Char → List Char → List (List Char)
  | [], [] => []
  | line, [] => [line.reverse]
  | line, '\r' :: '\n' :: rest => line.reverse :: splitLines [] rest
  | line, c :: rest =>
    if isLineBreak c then line.reverse :: splitLines [] rest else splitLines (c :: line) rest

/-- A line without breaks inside is split off at its end. -/
theorem splitLines_line {text : List Char} (h : ∀ c ∈ text, isLineBreak c = false) (line rest : List Char) :
    splitLines line (text ++ '\n' :: rest) = (line.reverse ++ text) :: splitLines [] rest := by
  induction text generalizing line with
  | nil =>
    rw [List.nil_append, splitLines.eq_4 line '\n' rest (by simp), List.append_nil]
    rfl
  | cons c text ih =>
    have hc : isLineBreak c = false := h c List.mem_cons_self
    have hreturn : c ≠ '\r' := by
      rintro rfl
      cases hc
    rw [List.cons_append, splitLines.eq_4 line c _ (fun _ hr => absurd hr hreturn), hc,
      if_neg Bool.false_ne_true, ih fun d hd => h d (List.mem_cons_of_mem c hd)]
    simp

theorem splitLines_lines {lines : List (List Char)}
    (h : ∀ line ∈ lines, ∀ c ∈ line, isLineBreak c = false) :
    splitLines [] (lines.flatMap (· ++ ['\n'])) = lines := by
  induction lines with
  | nil => rfl
  | cons line lines ih =>
    rw [List.flatMap_cons, List.append_assoc, List.singleton_append,
      splitLines_line (h line List.mem_cons_self), ih fun l hl => h l (List.mem_cons_of_mem line hl)]
    rfl

/-! ## Texts without wide breaks -/

/-- No text of the value, key or not, has a wide line break. -/
inductive OneLine : Json → Prop
  | null : OneLine .null
  | bool (b : Bool) : OneLine (.bool b)
  | int (n : Int) : OneLine (.int n)
  | str {s : String} (h : ∀ c ∈ s.toList, isWideBreak c = false) : OneLine (.str s)
  | arr {items : List Json} (h : ∀ item ∈ items, OneLine item) : OneLine (.arr items)
  | obj {fields : List (String × Json)} (hkeys : ∀ f ∈ fields, ∀ c ∈ f.1.toList, isWideBreak c = false)
      (h : ∀ f ∈ fields, OneLine f.2) : OneLine (.obj fields)

theorem isLineBreak_digitChar : ∀ n : Nat, n < 16 → isLineBreak n.digitChar = false := by decide

theorem isLineBreak_unicodeEscape {n : Nat} {c : Char} (h : c ∈ unicodeEscape n) :
    isLineBreak c = false := by
  simp only [unicodeEscape, hex4, List.mem_cons, List.not_mem_nil, or_false] at h
  rcases h with rfl | rfl | rfl | rfl | rfl | rfl
  · decide
  · decide
  all_goals exact isLineBreak_digitChar _ (Nat.mod_lt _ (by decide))

theorem isLineBreak_escapeChar {ascii : Bool} {c d : Char} (hc : isWideBreak c = false)
    (h : d ∈ escapeChar ascii c) : isLineBreak d = false := by
  unfold escapeChar at h
  split at h
  · rename_i letter _ hfind
    have hmem := List.mem_of_find?_eq_some hfind
    have htable : ∀ p ∈ shortEscapes, isLineBreak p.1 = false := by decide
    simp only [List.mem_cons, List.not_mem_nil, or_false] at h
    rcases h with rfl | rfl
    · decide
    · exact htable _ hmem
  · split at h
    · split at h
      · exact isLineBreak_unicodeEscape h
      · rcases List.mem_append.mp h with h | h
        · exact isLineBreak_unicodeEscape h
        · exact isLineBreak_unicodeEscape h
    · rename_i hplain
      rw [List.mem_singleton] at h
      subst h
      have hcontrol : ¬d.toNat < 0x20 := fun hlt => hplain (Or.inl hlt)
      simp only [isWideBreak, isLineBreak, Bool.or_eq_false_iff, beq_eq_false_iff_ne, ne_eq,
        Bool.and_eq_false_iff, decide_eq_false_iff_not] at hc ⊢
      omega

theorem isLineBreak_quoted {ascii : Bool} {cs : List Char} (h : ∀ c ∈ cs, isWideBreak c = false) {d : Char}
    (hd : d ∈ quoted ascii cs) : isLineBreak d = false := by
  rw [quoted, List.mem_cons, List.mem_append, List.mem_singleton, List.mem_flatMap] at hd
  rcases hd with rfl | ⟨c, hc, hd⟩ | rfl
  · decide
  · exact isLineBreak_escapeChar (h c hc) hd
  · decide

theorem isLineBreak_digit {c : Char} (h : c.isDigit = true) : isLineBreak c = false := by
  simp only [Char.isDigit, Bool.and_eq_true, decide_eq_true_eq] at h
  have hlow : 48 ≤ c.toNat := h.1
  have hhigh : c.toNat ≤ 57 := h.2
  simp only [isLineBreak, Bool.or_eq_false_iff, beq_eq_false_iff_ne, ne_eq, Bool.and_eq_false_iff,
    decide_eq_false_iff_not]
  omega

theorem isLineBreak_toDigits {n : Nat} {c : Char} (h : c ∈ Nat.toDigits 10 n) : isLineBreak c = false :=
  isLineBreak_digit (Nat.isDigit_of_mem_toDigits (by decide) (by decide) h)

theorem isLineBreak_blank {style : Style} {c : Char} (h : c ∈ style.blank) : isLineBreak c = false := by
  unfold Style.blank at h
  split at h
  · rw [List.mem_singleton.mp h]
    decide
  · cases h

theorem isLineBreak_printItems {style : Style} {items : List Json}
    (h : ∀ item ∈ items, ∀ c ∈ print style item, isLineBreak c = false) :
    ∀ c ∈ printItems style items, isLineBreak c = false := by
  induction items with
  | nil =>
    intro c hc
    rw [List.mem_singleton.mp hc]
    decide
  | cons v rest ih =>
    have hv := h v List.mem_cons_self
    have hrest := ih fun item hitem => h item (List.mem_cons_of_mem v hitem)
    intro c hc
    cases rest with
    | nil =>
      rw [printItems, List.mem_append, List.mem_singleton] at hc
      rcases hc with hc | rfl
      · exact hv c hc
      · decide
    | cons w rest =>
      rw [printItems, List.mem_append, List.mem_cons, List.mem_append] at hc
      rcases hc with hc | rfl | hc | hc
      · exact hv c hc
      · decide
      · exact isLineBreak_blank hc
      · exact hrest c hc

theorem isLineBreak_printFields {style : Style} {fields : List (String × Json)}
    (hkeys : ∀ f ∈ fields, ∀ c ∈ f.1.toList, isWideBreak c = false)
    (h : ∀ f ∈ fields, ∀ c ∈ print style f.2, isLineBreak c = false) :
    ∀ c ∈ printFields style fields, isLineBreak c = false := by
  induction fields with
  | nil =>
    intro c hc
    rw [List.mem_singleton.mp hc]
    decide
  | cons f rest ih =>
    obtain ⟨k, v⟩ := f
    have hk := hkeys (k, v) List.mem_cons_self
    have hv := h (k, v) List.mem_cons_self
    have hrest := ih (fun f hf => hkeys f (List.mem_cons_of_mem _ hf))
      fun f hf => h f (List.mem_cons_of_mem _ hf)
    intro c hc
    cases rest with
    | nil =>
      rw [printFields, List.mem_append, List.mem_cons, List.mem_append, List.mem_append,
        List.mem_singleton] at hc
      rcases hc with hc | rfl | hc | hc | rfl
      · exact isLineBreak_quoted hk hc
      · decide
      · exact isLineBreak_blank hc
      · exact hv c hc
      · decide
    | cons g rest =>
      rw [printFields.eq_3, List.mem_append, List.mem_cons, List.mem_append, List.mem_append,
        List.mem_cons, List.mem_append] at hc
      rcases hc with hc | rfl | hc | hc | rfl | hc | hc
      · exact isLineBreak_quoted hk hc
      · decide
      · exact isLineBreak_blank hc
      · exact hv c hc
      · decide
      · exact isLineBreak_blank hc
      · exact hrest c hc

/-- A test that fails on all characters of a text. -/
theorem forall_false_of_all {p : Char → Bool} {text : List Char} (h : text.all (!p ·) = true) :
    ∀ c ∈ text, p c = false := by
  simpa using h

/-- **A printed value stands on one line.** -/
theorem isLineBreak_print (style : Style) {v : Json} (h : OneLine v) :
    ∀ c ∈ print style v, isLineBreak c = false := by
  induction h with
  | null =>
    rw [print]
    exact forall_false_of_all (by decide)
  | bool b => cases b <;> (rw [print]; exact forall_false_of_all (by decide))
  | int n =>
    intro c hc
    rw [print] at hc
    cases n with
    | ofNat k => exact isLineBreak_toDigits hc
    | negSucc k =>
      rcases List.mem_cons.mp hc with rfl | hc
      · decide
      · exact isLineBreak_toDigits hc
  | str hs =>
    intro c hc
    rw [print] at hc
    exact isLineBreak_quoted hs hc
  | arr _ ih =>
    intro c hc
    rw [print] at hc
    rcases List.mem_cons.mp hc with rfl | hc
    · decide
    · exact isLineBreak_printItems ih c hc
  | obj hkeys _ ih =>
    intro c hc
    rw [print] at hc
    rcases List.mem_cons.mp hc with rfl | hc
    · decide
    · exact isLineBreak_printFields hkeys ih c hc

theorem OneLine.canon {v : Json} (h : OneLine v) : OneLine (canon v) := by
  induction h with
  | null => rw [canon_null]; exact .null
  | bool b => rw [canon_bool]; exact .bool b
  | int n => rw [canon_int]; exact .int n
  | str hs => rw [canon_str]; exact .str hs
  | arr _ ih =>
    rw [canon_arr]
    refine .arr fun item hitem => ?_
    obtain ⟨v, hv, rfl⟩ := List.mem_map.mp hitem
    exact ih v hv
  | @obj fields hkeys _ ih =>
    have hmem : ∀ f ∈ (canonFields fields).insertionSort keyLE,
        ∃ g ∈ fields, (g.1, JsonText.canon g.2) = f := by
      intro f hf
      rw [List.mem_insertionSort, canonFields_eq_map] at hf
      exact List.mem_map.mp hf
    rw [JsonText.canon]
    refine .obj (fun f hf => ?_) fun f hf => ?_
    · obtain ⟨g, hg, rfl⟩ := hmem f hf
      exact hkeys g hg
    · obtain ⟨g, hg, rfl⟩ := hmem f hf
      exact ih g hg

/-! ## Files of lines -/

def dumpLine (style : Style) (v : Json) : List Char := (dumps style v).toList ++ ['\n']

def dumpLines (style : Style) (vs : List Json) : List Char := vs.flatMap (dumpLine style)

/-- The values of the lines that are not blank. -/
def loadLines (text : List Char) : Option (List Json) :=
  ((splitLines [] text).filter fun line => !line.all isSpace).mapM fun line => loads (String.ofList line)

theorem dumpLines_append (style : Style) (vs : List Json) (v : Json) :
    dumpLines style (vs ++ [v]) = dumpLines style vs ++ dumpLine style v := by
  rw [dumpLines, List.flatMap_append, List.flatMap_singleton, dumpLines]

/-- The first character of a printed value is no white space. -/
theorem print_not_blank (style : Style) (v : Json) : (print style v).all isSpace = false := by
  have hfirst : ∃ c cs, print style v = c :: cs ∧ isSpace c = false := by
    cases v with
    | null => exact ⟨_, _, rfl, by decide⟩
    | bool b => cases b <;> exact ⟨_, _, rfl, by decide⟩
    | int n =>
      obtain ⟨c, cs, hc, hd⟩ := printInt_cons n
      refine ⟨c, cs, by rw [print, hc], ?_⟩
      rcases hd with rfl | hd
      · decide
      · simp only [Char.isDigit, Bool.and_eq_true, decide_eq_true_eq] at hd
        have hlow : 48 ≤ c.toNat := hd.1
        have hhigh : c.toNat ≤ 57 := hd.2
        simp only [isSpace, Bool.or_eq_false_iff, beq_eq_false_iff_ne, ne_eq, Bool.and_eq_false_iff,
          decide_eq_false_iff_not]
        omega
    | str s => exact ⟨_, _, rfl, by decide⟩
    | arr items => exact ⟨_, _, rfl, by decide⟩
    | obj fields => exact ⟨_, _, rfl, by decide⟩
  obtain ⟨c, cs, hprint, hspace⟩ := hfirst
  rw [hprint, List.all_cons, hspace, Bool.false_and]

/-- **Round trip.** Values without wide line breaks are read back line by line. -/
theorem loadLines_dumpLines (style : Style) {vs : List Json} (h : ∀ v ∈ vs, OneLine v) :
    loadLines (dumpLines style vs) = some (vs.map canon) := by
  have hlines : dumpLines style vs = (vs.map fun v => print style (canon v)).flatMap (· ++ ['\n']) := by
    rw [dumpLines, List.flatMap_map]
    refine List.flatMap_congr fun v _ => ?_
    rw [dumpLine, dumps, String.toList_ofList]
  have hsplit : splitLines [] (dumpLines style vs) = vs.map fun v => print style (canon v) := by
    rw [hlines]
    refine splitLines_lines fun line hline => ?_
    obtain ⟨v, hv, rfl⟩ := List.mem_map.mp hline
    exact isLineBreak_print style (h v hv).canon
  have hkept : (vs.map fun v => print style (canon v)).filter (fun line => !line.all isSpace) =
      vs.map fun v => print style (canon v) := by
    refine List.filter_eq_self.mpr fun line hline => ?_
    obtain ⟨v, -, rfl⟩ := List.mem_map.mp hline
    rw [print_not_blank]
    rfl
  rw [loadLines, hsplit, hkept]
  clear hlines hsplit hkept h
  induction vs with
  | nil => rfl
  | cons v vs ih =>
    have hv : loads (String.ofList (print style (canon v))) = some (canon v) := loads_dumps style v
    rw [List.map_cons, List.mapM_cons, ih, hv]
    rfl

end RlmGraph.Lib.JsonLines
