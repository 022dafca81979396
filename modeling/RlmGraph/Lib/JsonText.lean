import Mathlib.Computability.Primrec.List
import Mathlib.Data.List.Sort
import Mathlib.Data.String.Basic

/-! # JSON text: printing, reading, and the round trip

Values without floating point numbers, printed the two ways the callers print
them (`Style`), and a reader for what is printed. `loads_dumps`: reading the
printed text of a value gives the value with the keys of every object sorted,
so the text of a value determines it (`dumps_inj`). The reader takes a fuel
bound; `read_print` shows that the length of the text is always enough. -/
namespace RlmGraph.Lib.JsonText

inductive Json where
  | null
  | bool (b : Bool)
  | int (n : Int)
  | str (s : String)
  | arr (items : List Json)
  | obj (fields : List (String × Json))

/-- How a value is laid out: whether characters outside ASCII are escaped, and
whether a blank follows each separator. -/
structure Style where
  ensureAscii : Bool
  spaced : Bool

/-! ## Printing -/

def hex4 (n : Nat) : List Char :=
  [(n / 4096 % 16).digitChar, (n / 256 % 16).digitChar, (n / 16 % 16).digitChar,
    (n % 16).digitChar]

def unicodeEscape (n : Nat) : List Char := '\\' :: 'u' :: hex4 n

/-- The short escapes, by the character that follows the backslash. -/
def shortEscapes : List (Char × Char) :=
  [('"', '"'), ('\\', '\\'), ('n', '\n'), ('r', '\r'), ('t', '\t'), ('b', '\x08'), ('f', '\x0c')]

/-- The text of one character inside a string. A character beyond the basic
plane becomes a surrogate pair. -/
def escapeChar (ascii : Bool) (c : Char) : List Char :=
  match shortEscapes.find? (·.2 == c) with
  | some (letter, _) => ['\\', letter]
  | none =>
    if c.toNat < 0x20 ∨ (ascii = true ∧ 0x7e < c.toNat) then
      if c.toNat < 0x10000 then unicodeEscape c.toNat
      else unicodeEscape (0xd800 + (c.toNat - 0x10000) / 1024) ++
        unicodeEscape (0xdc00 + (c.toNat - 0x10000) % 1024)
    else [c]

def quoted (ascii : Bool) (cs : List Char) : List Char :=
  '"' :: (cs.flatMap (escapeChar ascii) ++ ['"'])

def printInt (n : Int) : List Char :=
  match n with
  | .ofNat k => Nat.toDigits 10 k
  | .negSucc k => '-' :: Nat.toDigits 10 (k + 1)

def Style.blank (style : Style) : List Char := if style.spaced then [' '] else []

mutual

def print (style : Style) : Json → List Char
  | .null => "null".toList
  | .bool true => "true".toList
  | .bool false => "false".toList
  | .int n => printInt n
  | .str s => quoted style.ensureAscii s.toList
  | .arr items => '[' :: printItems style items
  | .obj fields => '{' :: printFields style fields

/-- The items of an array and its closing bracket. -/
def printItems (style : Style) : List Json → List Char
  | [] => [']']
  | [v] => print style v ++ [']']
  | v :: w :: rest => print style v ++ ',' :: (style.blank ++ printItems style (w :: rest))

/-- The members of an object and its closing brace. -/
def printFields (style : Style) : List (String × Json) → List Char
  | [] => ['}']
  | [(k, v)] => quoted style.ensureAscii k.toList ++ ':' :: (style.blank ++ (print style v ++ ['}']))
  | (k, v) :: f :: rest =>
    quoted style.ensureAscii k.toList ++ ':' :: (style.blank ++
      (print style v ++ ',' :: (style.blank ++ printFields style (f :: rest))))

end


/-! ## Reading -/

def hexValue (c : Char) : Option Nat :=
  if c.isDigit then some (c.toNat - 48)
  else if 97 ≤ c.toNat ∧ c.toNat ≤ 102 then some (c.toNat - 87)
  else if 65 ≤ c.toNat ∧ c.toNat ≤ 70 then some (c.toNat - 55)
  else none

def readHex4 : List Char → Option (Nat × List Char)
  | a :: b :: c :: d :: rest => do
    let a ← hexValue a
    let b ← hexValue b
    let c ← hexValue c
    let d ← hexValue d
    some (a * 4096 + b * 256 + c * 16 + d, rest)
  | _ => none

def charOfCode (n : Nat) : Option Char :=
  if n < 0xd800 ∨ (0xdfff < n ∧ n < 0x110000) then some (Char.ofNat n) else none

/-- What follows a backslash and a `u`. A lone surrogate is refused. -/
def readUnicode (text : List Char) : Option (Char × List Char) :=
  (readHex4 text).bind fun (hi, rest) =>
    if 0xd800 ≤ hi ∧ hi < 0xdc00 then
      match rest with
      | '\\' :: 'u' :: rest => (readHex4 rest).bind fun (lo, rest) =>
        if 0xdc00 ≤ lo ∧ lo < 0xe000 then
          (charOfCode (0x10000 + (hi - 0xd800) * 1024 + (lo - 0xdc00))).map (·, rest)
        else none
      | _ => none
    else (charOfCode hi).map (·, rest)

def readChar : List Char → Option (Char × List Char)
  | [] => none
  | c :: rest =>
    if c = '\\' then
      match rest with
      | [] => none
      | letter :: rest =>
        if letter = 'u' then readUnicode rest
        else ((('/', '/') :: shortEscapes).find? (·.1 == letter)).map (·.2, rest)
    else if c.toNat < 0x20 then none
    else some (c, rest)

/-- A string body up to and with its closing quote. -/
def readQuoted : Nat → List Char → Option (List Char × List Char)
  | 0, _ => none
  | _ + 1, [] => none
  | fuel + 1, c :: rest =>
    if c = '"' then some ([], rest)
    else (readChar (c :: rest)).bind fun (d, rest) =>
      (readQuoted fuel rest).map fun (ds, rest) => (d :: ds, rest)

def isBlank (c : Char) : Bool := c == ' ' || c == '\n' || c == '\r' || c == '\t'

def skipBlank (text : List Char) : List Char := text.dropWhile isBlank

def readNat (text : List Char) : Option (Nat × List Char) :=
  match text.takeWhile Char.isDigit with
  | [] => none
  | ds => some (Nat.ofDigitChars 10 ds 0, text.dropWhile Char.isDigit)

def readInt : List Char → Option (Json × List Char)
  | [] => none
  | c :: rest =>
    if c = '-' then (readNat rest).map fun (n, rest) => (.int (-(n : Int)), rest)
    else (readNat (c :: rest)).map fun (n, rest) => (.int n, rest)

def readWord (word : List Char) (v : Json) (text : List Char) : Option (Json × List Char) :=
  if text.take word.length = word then some (v, text.drop word.length) else none

mutual

def read : Nat → List Char → Option (Json × List Char)
  | 0, _ => none
  | _ + 1, [] => none
  | fuel + 1, c :: rest =>
    if c = '"' then
      (readQuoted (rest.length + 1) rest).map fun (cs, rest) => (.str (String.ofList cs), rest)
    else if c = '[' then
      match skipBlank rest with
      | ']' :: rest => some (.arr [], rest)
      | rest => (readItems fuel rest).map fun (vs, rest) => (.arr vs, rest)
    else if c = '{' then
      match skipBlank rest with
      | '}' :: rest => some (.obj [], rest)
      | rest => (readFields fuel rest).map fun (fs, rest) => (.obj fs, rest)
    else if c = 'n' then readWord "ull".toList .null rest
    else if c = 't' then readWord "rue".toList (.bool true) rest
    else if c = 'f' then readWord "alse".toList (.bool false) rest
    else readInt (c :: rest)

def readItems : Nat → List Char → Option (List Json × List Char)
  | 0, _ => none
  | fuel + 1, text =>
    (read fuel text).bind fun (v, rest) =>
      match skipBlank rest with
      | ',' :: rest =>
        (readItems fuel (skipBlank rest)).map fun (vs, rest) => (v :: vs, rest)
      | ']' :: rest => some ([v], rest)
      | _ => none

def readFields : Nat → List Char → Option (List (String × Json) × List Char)
  | 0, _ => none
  | _ + 1, [] => none
  | fuel + 1, q :: text =>
    if q = '"' then
      (readQuoted (text.length + 1) text).bind fun (k, rest) =>
        match skipBlank rest with
        | ':' :: rest => (read fuel (skipBlank rest)).bind fun (v, rest) =>
          match skipBlank rest with
          | ',' :: rest => (readFields fuel (skipBlank rest)).map fun (fs, rest) =>
            ((String.ofList k, v) :: fs, rest)
          | '}' :: rest => some ([(String.ofList k, v)], rest)
          | _ => none
        | _ => none
    else none

end

/-! ## Reading what was printed -/

theorem hexValue_digitChar : ∀ n : Nat, n < 16 → hexValue n.digitChar = some n := by
  decide

theorem readHex4_hex4 {n : Nat} (h : n < 65536) (rest : List Char) :
    readHex4 (hex4 n ++ rest) = some (n, rest) := by
  simp only [hex4, List.cons_append, List.nil_append, readHex4,
    hexValue_digitChar _ (Nat.mod_lt _ (by decide : 0 < 16)), Option.bind_eq_bind,
    Option.bind_some, Option.some.injEq, Prod.mk.injEq, and_true]
  omega

theorem charOfCode_toNat (c : Char) : charOfCode c.toNat = some c := by
  have hv : c.toNat < 0xd800 ∨ (0xdfff < c.toNat ∧ c.toNat < 0x110000) := c.valid
  simp [charOfCode, hv]

theorem readUnicode_basic {c : Char} (h : c.toNat < 0x10000) (rest : List Char) :
    readUnicode (hex4 c.toNat ++ rest) = some (c, rest) := by
  have hv : c.toNat < 0xd800 ∨ (0xdfff < c.toNat ∧ c.toNat < 0x110000) := c.valid
  have hs : ¬(0xd800 ≤ c.toNat ∧ c.toNat < 0xdc00) := by omega
  simp [readUnicode, readHex4_hex4 h, hs, charOfCode_toNat]

theorem readUnicode_surrogates {c : Char} {hi lo : Nat} (hhi : 0xd800 ≤ hi ∧ hi < 0xdc00)
    (hlo : 0xdc00 ≤ lo ∧ lo < 0xe000)
    (hc : 0x10000 + (hi - 0xd800) * 1024 + (lo - 0xdc00) = c.toNat) (rest : List Char) :
    readUnicode (hex4 hi ++ (unicodeEscape lo ++ rest)) = some (c, rest) := by
  have h1 : hi < 65536 := by omega
  have h2 : lo < 65536 := by omega
  simp only [readUnicode, unicodeEscape, readHex4_hex4 h1, readHex4_hex4 h2, List.cons_append,
    Option.bind_some, if_pos hhi, if_pos hlo, hc, charOfCode_toNat, Option.map_some]

theorem readUnicode_pair {c : Char} (h : 0x10000 ≤ c.toNat) (rest : List Char) :
    readUnicode (hex4 (0xd800 + (c.toNat - 0x10000) / 1024) ++
      (unicodeEscape (0xdc00 + (c.toNat - 0x10000) % 1024) ++ rest)) = some (c, rest) := by
  have hv : c.toNat < 0xd800 ∨ (0xdfff < c.toNat ∧ c.toNat < 0x110000) := c.valid
  obtain ⟨k, hk⟩ : ∃ k, c.toNat = 0x10000 + k := ⟨_, (Nat.add_sub_cancel' h).symm⟩
  rw [hk, Nat.add_sub_cancel_left]
  exact readUnicode_surrogates (by omega) (by omega) (by omega) rest

theorem escapeChar_cons (ascii : Bool) (c : Char) :
    ∃ d ds, escapeChar ascii c = d :: ds ∧ d ≠ '"' := by
  unfold escapeChar
  split
  · exact ⟨_, _, rfl, by decide⟩
  · rename_i hfind
    have hq : c ≠ '"' := by rintro rfl; revert hfind; decide
    split
    · split <;> exact ⟨_, _, rfl, by decide⟩
    · exact ⟨c, [], rfl, hq⟩

/-- **One character survives escaping.** -/
theorem readChar_escapeChar (ascii : Bool) (c : Char) (rest : List Char) :
    readChar (escapeChar ascii c ++ rest) = some (c, rest) := by
  unfold escapeChar
  cases hfind : shortEscapes.find? (·.2 == c) with
  | some p =>
    -- the short escapes are a finite table, read back entry by entry
    have hmem := List.mem_of_find?_eq_some hfind
    have hc : p.2 = c := by simpa using List.find?_some hfind
    have htab : ∀ q ∈ shortEscapes,
        readChar (['\\', q.1] ++ rest) = some (q.2, rest) := by
      simp [shortEscapes, readChar, List.find?]
    simpa [hc] using htab p hmem
  | none =>
    have hne : ∀ q ∈ shortEscapes, ¬(q.2 == c) = true := List.find?_eq_none.mp hfind
    have hslash : c ≠ '\\' := by rintro rfl; revert hne; decide
    simp only
    split
    · split
      · rename_i hsmall
        simpa [unicodeEscape, readChar] using readUnicode_basic hsmall rest
      · rename_i hbig
        have := readUnicode_pair (c := c) (by omega) rest
        simpa [unicodeEscape, readChar, List.append_assoc] using this
    · rename_i hplain
      have hctl : ¬ c.toNat < 0x20 := fun h => hplain (Or.inl h)
      simp [readChar, hslash, hctl]

theorem readQuoted_escaped (ascii : Bool) (cs rest : List Char) (fuel : Nat)
    (h : cs.length < fuel) :
    readQuoted fuel (cs.flatMap (escapeChar ascii) ++ '"' :: rest) = some (cs, rest) := by
  induction cs generalizing fuel with
  | nil =>
    obtain ⟨fuel, rfl⟩ := Nat.exists_eq_add_one_of_ne_zero (Nat.ne_of_gt h)
    simp [readQuoted]
  | cons c cs ih =>
    obtain ⟨fuel, rfl⟩ := Nat.exists_eq_add_one_of_ne_zero (Nat.ne_of_gt (Nat.zero_lt_of_lt h))
    have hrec := ih fuel (by simpa using h)
    obtain ⟨d, ds, hd, hq⟩ := escapeChar_cons ascii c
    have hread := readChar_escapeChar ascii c (cs.flatMap (escapeChar ascii) ++ '"' :: rest)
    rw [hd, List.cons_append] at hread
    simp only [List.flatMap_cons, List.append_assoc, hd, List.cons_append, readQuoted, if_neg hq,
      hread, Option.bind_some, hrec, Option.map_some]

/-- The text after an integer must not continue it. -/
def Stops (rest : List Char) : Prop := ∀ c ∈ rest.head?, c.isDigit = false

theorem takeWhile_digits {rest : List Char} (hr : Stops rest) :
    rest.takeWhile Char.isDigit = [] ∧ rest.dropWhile Char.isDigit = rest := by
  cases rest with
  | nil => simp
  | cons c rest =>
    have hc : c.isDigit = false := hr c rfl
    simp [hc]

theorem readNat_toDigits (n : Nat) {rest : List Char} (hr : Stops rest) :
    readNat (Nat.toDigits 10 n ++ rest) = some (n, rest) := by
  have hd : ∀ c ∈ Nat.toDigits 10 n, c.isDigit = true := fun c hc =>
    Nat.isDigit_of_mem_toDigits (by decide) (by decide) hc
  obtain ⟨htake, hdrop⟩ := takeWhile_digits hr
  unfold readNat
  rw [List.takeWhile_append_of_pos hd, List.dropWhile_append_of_pos hd, htake, hdrop,
    List.append_nil]
  cases hds : Nat.toDigits 10 n with
  | nil => exact absurd hds Nat.toDigits_ne_nil
  | cons c cs => simp only [← hds, Nat.ofDigitChars_ten_toDigits]

theorem printInt_cons (n : Int) :
    ∃ c cs, printInt n = c :: cs ∧ (c = '-' ∨ c.isDigit = true) := by
  cases n with
  | ofNat k =>
    cases hds : Nat.toDigits 10 k with
    | nil => exact absurd hds Nat.toDigits_ne_nil
    | cons c cs =>
      exact ⟨c, cs, hds, Or.inr (Nat.isDigit_of_mem_toDigits (b := 10) (n := k) (by decide)
        (by decide) (by simp [hds]))⟩
  | negSucc k => exact ⟨_, _, rfl, Or.inl rfl⟩

theorem readInt_printInt (n : Int) {rest : List Char} (hr : Stops rest) :
    readInt (printInt n ++ rest) = some (.int n, rest) := by
  cases n with
  | ofNat k =>
    have hread := readNat_toDigits k hr
    cases hds : Nat.toDigits 10 k with
    | nil => exact absurd hds Nat.toDigits_ne_nil
    | cons c cs =>
      have hc : c.isDigit = true := Nat.isDigit_of_mem_toDigits (b := 10) (n := k) (by decide)
        (by decide) (by simp [hds])
      have hminus : c ≠ '-' := by rintro rfl; revert hc; decide
      rw [hds, List.cons_append] at hread
      simp [printInt, hds, readInt, hminus, hread]
  | negSucc k =>
    simp [printInt, readInt, readNat_toDigits (k + 1) hr, Int.negSucc_eq]

theorem skipBlank_cons {c : Char} (h : isBlank c = false) (rest : List Char) :
    skipBlank (c :: rest) = c :: rest := by
  simp [skipBlank, h]

theorem skipBlank_blank (style : Style) (text : List Char) :
    skipBlank (style.blank ++ text) = skipBlank text := by
  unfold Style.blank
  split <;> simp [skipBlank, isBlank]

/-- The first character of a printed value: never a blank, never a closing bracket. -/
theorem print_cons (style : Style) (v : Json) :
    ∃ c cs, print style v = c :: cs ∧ isBlank c = false ∧ c ≠ ']' ∧ c ≠ '}' := by
  cases v with
  | null => exact ⟨_, _, rfl, by decide⟩
  | bool b => cases b <;> exact ⟨_, _, rfl, by decide⟩
  | int n =>
    obtain ⟨c, cs, hc, hd⟩ := printInt_cons n
    refine ⟨c, cs, by rw [print, hc], ?_⟩
    rcases hd with rfl | hd
    · decide
    · refine ⟨?_, ?_, ?_⟩
      · by_contra hb
        simp only [isBlank, Bool.not_eq_false, Bool.or_eq_true, beq_iff_eq] at hb
        rcases hb with ((rfl | rfl) | rfl) | rfl <;> exact absurd hd (by decide)
      · rintro rfl; exact absurd hd (by decide)
      · rintro rfl; exact absurd hd (by decide)
  | str s => exact ⟨_, _, rfl, by decide⟩
  | arr items => exact ⟨_, _, rfl, by decide⟩
  | obj fields => exact ⟨_, _, rfl, by decide⟩

theorem skipBlank_print (style : Style) (v : Json) (rest : List Char) :
    skipBlank (print style v ++ rest) = print style v ++ rest := by
  obtain ⟨c, cs, hc, hb, _⟩ := print_cons style v
  rw [hc, List.cons_append, skipBlank_cons hb]

theorem stops_cons {c : Char} (h : c.isDigit = false) (rest : List Char) : Stops (c :: rest) := by
  intro d hd
  simp only [List.head?_cons, Option.mem_def, Option.some.injEq] at hd
  exact hd ▸ h

theorem quoted_append (ascii : Bool) (cs rest : List Char) :
    quoted ascii cs ++ rest = '"' :: (cs.flatMap (escapeChar ascii) ++ '"' :: rest) := by
  simp [quoted]

theorem length_le_flatMap_escapeChar (ascii : Bool) (cs : List Char) :
    cs.length ≤ (cs.flatMap (escapeChar ascii)).length := by
  induction cs with
  | nil => simp
  | cons c cs ih =>
    obtain ⟨d, ds, hd, _⟩ := escapeChar_cons ascii c
    simp only [List.flatMap_cons, List.length_append, List.length_cons, hd]
    omega

theorem readQuoted_body (ascii : Bool) (cs rest : List Char) :
    readQuoted ((cs.flatMap (escapeChar ascii) ++ '"' :: rest).length + 1)
      (cs.flatMap (escapeChar ascii) ++ '"' :: rest) = some (cs, rest) := by
  apply readQuoted_escaped
  have := length_le_flatMap_escapeChar ascii cs
  simp only [List.length_append]
  omega

theorem read_arr_open {c : Char} (hb : isBlank c = false) (hc : c ≠ ']') (fuel : Nat)
    (cs : List Char) :
    read (fuel + 1) ('[' :: c :: cs) =
      (readItems fuel (c :: cs)).map fun (vs, rest) => (.arr vs, rest) := by
  simp only [read, skipBlank_cons hb, Char.reduceEq, if_false, if_true]
  split
  · rename_i h; injection h with h; exact absurd h hc
  · rfl

theorem read_obj_open (fuel : Nat) (cs : List Char) :
    read (fuel + 1) ('{' :: '"' :: cs) =
      (readFields fuel ('"' :: cs)).map fun (fs, rest) => (.obj fs, rest) := by
  simp [read, skipBlank, isBlank]

theorem readItems_next {v : Json} {vs : List Json} {fuel : Nat} {text more rest : List Char}
    (hv : read fuel text = some (v, ',' :: more))
    (hvs : readItems fuel (skipBlank more) = some (vs, rest)) :
    readItems (fuel + 1) text = some (v :: vs, rest) := by
  simp [readItems, hv, skipBlank_cons (show isBlank ',' = false by decide), hvs]

theorem readItems_last {v : Json} {fuel : Nat} {text rest : List Char}
    (hv : read fuel text = some (v, ']' :: rest)) :
    readItems (fuel + 1) text = some ([v], rest) := by
  simp [readItems, hv, skipBlank_cons (show isBlank ']' = false by decide)]

theorem readFields_next {k : String} {v : Json} {fs : List (String × Json)} {fuel : Nat}
    {ascii : Bool} {text more rest : List Char}
    (hv : read fuel (skipBlank text) = some (v, ',' :: more))
    (hfs : readFields fuel (skipBlank more) = some (fs, rest)) :
    readFields (fuel + 1) (quoted ascii k.toList ++ ':' :: text) = some ((k, v) :: fs, rest) := by
  rw [quoted_append]
  simp only [readFields, if_true, readQuoted_body, Option.bind_some, hv, hfs, Option.map_some,
    skipBlank_cons (show isBlank ':' = false by decide),
    skipBlank_cons (show isBlank ',' = false by decide), String.ofList_toList]

theorem readFields_last {k : String} {v : Json} {fuel : Nat} {ascii : Bool}
    {text rest : List Char} (hv : read fuel (skipBlank text) = some (v, '}' :: rest)) :
    readFields (fuel + 1) (quoted ascii k.toList ++ ':' :: text) = some ([(k, v)], rest) := by
  rw [quoted_append]
  simp only [readFields, if_true, readQuoted_body, Option.bind_some, hv,
    skipBlank_cons (show isBlank ':' = false by decide),
    skipBlank_cons (show isBlank '}' = false by decide), String.ofList_toList]

theorem read_int (style : Style) (n : Int) (fuel : Nat) {rest : List Char} (hr : Stops rest) :
    read (fuel + 1) (print style (.int n) ++ rest) = some (.int n, rest) := by
  obtain ⟨c, cs, hc, hd⟩ := printInt_cons n
  have hread := readInt_printInt n hr
  have hne : ∀ d ∈ ['"', '[', '{', 'n', 't', 'f'], c ≠ d := by
    rintro d hd' rfl
    rcases hd with rfl | hd
    · revert hd'; decide
    · revert hd'; simp only [List.mem_cons, List.not_mem_nil, or_false]
      rintro (rfl | rfl | rfl | rfl | rfl | rfl) <;> exact absurd hd (by decide)
  simp only [List.mem_cons, List.not_mem_nil, or_false, forall_eq_or_imp, forall_eq] at hne
  obtain ⟨h1, h2, h3, h4, h5, h6⟩ := hne
  rw [hc, List.cons_append] at hread
  rw [print, hc, List.cons_append, read, if_neg h1, if_neg h2, if_neg h3, if_neg h4, if_neg h5,
    if_neg h6, hread]

mutual

/-- **A printed value reads back.** The induction is on the value; the fuel
only has to cover the length of its text. -/
theorem read_print (style : Style) : ∀ (v : Json) (fuel : Nat) (rest : List Char),
    (print style v).length ≤ fuel → Stops rest →
      read fuel (print style v ++ rest) = some (v, rest)
  | v, 0, rest, hf, _ => by
    obtain ⟨c, cs, hc, _⟩ := print_cons style v
    rw [hc] at hf; simp at hf
  | .null, fuel + 1, rest, _, _ => by simp [print, read, readWord]
  | .bool true, fuel + 1, rest, _, _ => by simp [print, read, readWord]
  | .bool false, fuel + 1, rest, _, _ => by simp [print, read, readWord]
  | .int n, fuel + 1, rest, _, hr => read_int style n fuel hr
  | .str s, fuel + 1, rest, _, _ => by
    simp only [print, quoted_append, read, if_true, readQuoted_body, Option.map_some,
      String.ofList_toList]
  | .arr [], fuel + 1, rest, _, _ => by simp [print, printItems, read, skipBlank, isBlank]
  | .arr (v :: vs), fuel + 1, rest, hf, _ => by
    obtain ⟨c, cs, hc, hb, hne, _⟩ := print_cons style v
    have hitems := readItems_print style v vs fuel rest (by simpa [print] using hf)
    have htext : ∃ ds, printItems style (v :: vs) ++ rest = c :: ds := by
      cases vs <;> simp [printItems, hc]
    obtain ⟨ds, hds⟩ := htext
    rw [print, List.cons_append, hds, read_arr_open hb hne, ← hds, hitems]
    rfl
  | .obj [], fuel + 1, rest, _, _ => by simp [print, printFields, read, skipBlank, isBlank]
  | .obj ((k, v) :: fs), fuel + 1, rest, hf, _ => by
    have hfields := readFields_print style k v fs fuel rest (by simpa [print] using hf)
    have htext : ∃ ds, printFields style ((k, v) :: fs) ++ rest = '"' :: ds := by
      cases fs <;> simp [printFields, quoted]
    obtain ⟨ds, hds⟩ := htext
    rw [print, List.cons_append, hds, read_obj_open, ← hds, hfields]
    rfl

theorem readItems_print (style : Style) : ∀ (v : Json) (vs : List Json) (fuel : Nat)
    (rest : List Char), (printItems style (v :: vs)).length ≤ fuel →
      readItems fuel (printItems style (v :: vs) ++ rest) = some (v :: vs, rest)
  | v, vs, 0, rest, hf => by
    cases vs <;> simp [printItems] at hf
  | v, [], fuel + 1, rest, hf => by
    have hv := read_print style v fuel (']' :: rest)
      (by simp only [printItems, List.length_append, List.length_cons, List.length_nil] at hf; omega)
      (stops_cons (by decide) rest)
    rw [printItems, List.append_assoc]
    exact readItems_last hv
  | v, w :: ws, fuel + 1, rest, hf => by
    have hlen : (print style v).length + (printItems style (w :: ws)).length ≤ fuel := by
      simp only [printItems, List.length_append, List.length_cons] at hf ⊢; omega
    have hws := readItems_print style w ws fuel rest (by omega)
    have hv := read_print style v fuel (',' :: (style.blank ++ (printItems style (w :: ws) ++ rest)))
      (by omega) (stops_cons (by decide) _)
    have hskip : skipBlank (style.blank ++ (printItems style (w :: ws) ++ rest)) =
        printItems style (w :: ws) ++ rest := by
      rw [skipBlank_blank]
      cases ws <;> rw [printItems, List.append_assoc, skipBlank_print]
    rw [printItems, List.append_assoc, List.cons_append, List.append_assoc]
    exact readItems_next hv (by rw [hskip]; exact hws)

theorem readFields_print (style : Style) : ∀ (k : String) (v : Json) (fs : List (String × Json))
    (fuel : Nat) (rest : List Char), (printFields style ((k, v) :: fs)).length ≤ fuel →
      readFields fuel (printFields style ((k, v) :: fs) ++ rest) = some ((k, v) :: fs, rest)
  | k, v, fs, 0, rest, hf => by
    cases fs <;> simp [printFields, quoted] at hf
  | k, v, [], fuel + 1, rest, hf => by
    have hv := read_print style v fuel ('}' :: rest)
      (by simp only [printFields, List.length_append, List.length_cons, List.length_nil] at hf; omega)
      (stops_cons (by decide) rest)
    have hv : read fuel (skipBlank (style.blank ++ (print style v ++ '}' :: rest))) =
        some (v, '}' :: rest) := by rw [skipBlank_blank, skipBlank_print]; exact hv
    simp only [printFields, List.append_assoc, List.cons_append, List.nil_append]
    exact readFields_last hv
  | k, v, (k', w) :: fs, fuel + 1, rest, hf => by
    have hlen : (print style v).length + (printFields style ((k', w) :: fs)).length ≤ fuel := by
      simp only [printFields, List.length_append, List.length_cons] at hf ⊢; omega
    have hfs := readFields_print style k' w fs fuel rest (by omega)
    have hv := read_print style v fuel
      (',' :: (style.blank ++ (printFields style ((k', w) :: fs) ++ rest)))
      (by omega) (stops_cons (by decide) _)
    have hskip : skipBlank (style.blank ++ (printFields style ((k', w) :: fs) ++ rest)) =
        printFields style ((k', w) :: fs) ++ rest := by
      rw [skipBlank_blank]
      cases fs <;> simp only [printFields, quoted, List.cons_append] <;>
        exact skipBlank_cons (by decide) _
    have hv : read fuel (skipBlank (style.blank ++ (print style v ++
        ',' :: (style.blank ++ (printFields style ((k', w) :: fs) ++ rest))))) =
        some (v, ',' :: (style.blank ++ (printFields style ((k', w) :: fs) ++ rest))) := by
      rw [skipBlank_blank, skipBlank_print]; exact hv
    simp only [printFields.eq_3, List.append_assoc, List.cons_append]
    exact readFields_next hv (by rw [hskip]; exact hfs)

end

/-- The text tells values apart. -/
theorem print_inj (style : Style) {v w : Json} : print style v = print style w ↔ v = w := by
  constructor
  · intro h
    have hv := read_print style v (print style v).length [] (Nat.le_refl _) (by simp [Stops])
    have hw := read_print style w (print style v).length [] (Nat.le_of_eq (by rw [h])) (by simp [Stops])
    rw [h] at hv
    rw [h, hv] at hw
    exact (Prod.mk.inj (Option.some.inj hw)).1
  · rintro rfl; rfl

instance : DecidableEq Json := fun _ _ => decidable_of_iff _ (print_inj ⟨false, false⟩)

/-! ## Sorted keys -/

mutual

/-- The value with the members of every object in key order. -/
def canon : Json → Json
  | .null => .null
  | .bool b => .bool b
  | .int n => .int n
  | .str s => .str s
  | .arr items => .arr (canonItems items)
  | .obj fields => .obj ((canonFields fields).insertionSort fun a b => a.1 ≤ b.1)

def canonItems : List Json → List Json
  | [] => []
  | v :: vs => canon v :: canonItems vs

def canonFields : List (String × Json) → List (String × Json)
  | [] => []
  | (k, v) :: fs => (k, canon v) :: canonFields fs

end

theorem canonItems_eq_map (vs : List Json) : canonItems vs = vs.map canon := by
  induction vs with
  | nil => rfl
  | cons v vs ih => simp [canonItems, ih]

theorem canonFields_eq_map (fs : List (String × Json)) :
    canonFields fs = fs.map fun f => (f.1, canon f.2) := by
  induction fs with
  | nil => rfl
  | cons f fs ih => simp [canonFields, ih]

@[simp] theorem canon_str (s : String) : canon (.str s) = .str s := by rw [canon]
@[simp] theorem canon_int (n : Int) : canon (.int n) = .int n := by rw [canon]
@[simp] theorem canon_bool (b : Bool) : canon (.bool b) = .bool b := by rw [canon]
@[simp] theorem canon_null : canon .null = .null := by rw [canon]

@[simp] theorem canon_arr (items : List Json) : canon (.arr items) = .arr (items.map canon) := by
  rw [canon, canonItems_eq_map]

/-- Member access of a parsed value. -/
def Json.get? : Json → String → Option Json
  | .obj fields, key => fields.lookup key
  | _, _ => none

theorem lookup_eq_some_iff {β : Type} {fs : List (String × β)} (hn : (fs.map Prod.fst).Nodup)
    (k : String) (v : β) : fs.lookup k = some v ↔ (k, v) ∈ fs := by
  induction fs with
  | nil => simp
  | cons f fs ih =>
    obtain ⟨k', w⟩ := f
    rw [List.map_cons, List.nodup_cons] at hn
    by_cases hk : k = k'
    · subst hk
      have habs : (k, v) ∉ fs := fun hm => hn.1 (List.mem_map.mpr ⟨_, hm, rfl⟩)
      simp [List.lookup, habs, eq_comm]
    · have hb : (k == k') = false := by simpa using hk
      simp [List.lookup, hb, ih hn.2, hk]

theorem lookup_perm {fs gs : List (String × Json)} (hp : fs.Perm gs)
    (hn : (fs.map Prod.fst).Nodup) (k : String) : fs.lookup k = gs.lookup k := by
  have hn' : (gs.map Prod.fst).Nodup := (hp.map Prod.fst).nodup_iff.mp hn
  apply Option.ext
  intro v
  rw [lookup_eq_some_iff hn, lookup_eq_some_iff hn', hp.mem_iff]

theorem lookup_map_canon (fs : List (String × Json)) (k : String) :
    (fs.map fun f => (f.1, canon f.2)).lookup k = (fs.lookup k).map canon := by
  induction fs with
  | nil => rfl
  | cons f fs ih =>
    simp only [List.map_cons, List.lookup]
    split
    · rfl
    · exact ih

/-- Sorting the keys does not change what a key holds. -/
theorem canon_get? {fs : List (String × Json)} (hn : (fs.map Prod.fst).Nodup) (k : String) :
    (canon (.obj fs)).get? k = (fs.lookup k).map canon := by
  have hp := List.perm_insertionSort (fun a b : String × Json => a.1 ≤ b.1) (canonFields fs)
  have hn' : ((canonFields fs).map Prod.fst).Nodup := by
    simpa [canonFields_eq_map, Function.comp_def] using hn
  rw [canon, Json.get?, lookup_perm hp ((hp.map Prod.fst).nodup_iff.mpr hn'), canonFields_eq_map,
    lookup_map_canon]

/-- The order of members. -/
abbrev keyLE (a b : String × Json) : Prop := a.1 ≤ b.1

theorem sorted_fields (fs : List (String × Json)) : (fs.insertionSort keyLE).Pairwise keyLE :=
  haveI : Std.Total keyLE := ⟨fun a b => le_total a.1 b.1⟩
  haveI : IsTrans (String × Json) keyLE := ⟨fun _ _ _ hab hbc => le_trans hab hbc⟩
  List.pairwise_insertionSort keyLE fs

theorem canonFields_fixed {fs : List (String × Json)} (h : ∀ f ∈ fs, canon f.2 = f.2) :
    canonFields fs = fs := by
  rw [canonFields_eq_map]
  refine (List.map_congr_left fun f hf => ?_).trans (List.map_id fs)
  rw [h f hf]
  rfl

/-- Sorting twice is sorting once. -/
theorem canon_canon (v : Json) : canon (canon v) = canon v := by
  match v with
  | .null => simp
  | .bool b => simp
  | .int n => simp
  | .str s => simp
  | .arr items =>
    rw [canon_arr, canon_arr, List.map_map]
    refine congrArg Json.arr (List.map_congr_left fun item hitem => ?_)
    exact canon_canon item
  | .obj fields =>
    have hfixed : ∀ f ∈ (canonFields fields).insertionSort keyLE, canon f.2 = f.2 := by
      intro f hf
      rw [List.mem_insertionSort, canonFields_eq_map] at hf
      obtain ⟨g, hg, rfl⟩ := List.mem_map.mp hf
      have hsize : sizeOf g.2 < 1 + sizeOf fields := by
        have hmem := List.sizeOf_lt_of_mem hg
        obtain ⟨k, w⟩ := g
        simp only [Prod.mk.sizeOf_spec] at hmem ⊢
        omega
      exact canon_canon g.2
    rw [canon, canon, canonFields_fixed hfixed, (sorted_fields _).insertionSort_eq]
termination_by v

/-- What is left out of a sorted object may be left out before. -/
theorem canon_filter {fs : List (String × Json)} (hn : (fs.map Prod.fst).Nodup)
    (p : String × Json → Bool) (hp : ∀ f, p (f.1, canon f.2) = p f) :
    canon (.obj (((canonFields fs).insertionSort keyLE).filter p)) = canon (.obj (fs.filter p)) := by
  have hmap : canonFields (fs.filter p) = (canonFields fs).filter p := by
    rw [canonFields_eq_map, canonFields_eq_map, List.filter_map]
    refine congrArg _ (List.filter_congr fun f _ => ?_)
    exact (hp f).symm
  have hfixed : ∀ f ∈ ((canonFields fs).insertionSort keyLE).filter p, canon f.2 = f.2 := by
    intro f hf
    have hmem := List.mem_of_mem_filter hf
    rw [List.mem_insertionSort, canonFields_eq_map] at hmem
    obtain ⟨g, -, rfl⟩ := List.mem_map.mp hmem
    exact canon_canon g.2
  have hperm := List.perm_insertionSort keyLE (canonFields fs)
  have hsorted := (sorted_fields (canonFields fs)).filter p
  have hkeys : (((canonFields fs).filter p).map Prod.fst).Nodup := by
    refine List.Nodup.sublist (List.filter_sublist.map _) ?_
    simpa [canonFields_eq_map, Function.comp_def] using hn
  rw [canon, canon, canonFields_fixed hfixed, hmap, hsorted.insertionSort_eq]
  refine congrArg Json.obj ?_
  refine ((hperm.filter p).trans (List.perm_insertionSort keyLE _).symm).eq_of_pairwise ?_ hsorted
    (sorted_fields _)
  intro a b ha hb hab hba
  rw [(hperm.filter p).mem_iff] at ha
  rw [List.mem_insertionSort] at hb
  exact List.inj_on_of_nodup_map hkeys ha hb (le_antisymm hab hba)

/-! ## Text of a value -/

/-- The printed text with sorted keys. -/
def dumps (style : Style) (v : Json) : String := String.ofList (print style (canon v))

def loads (text : String) : Option Json :=
  match read (text.toList.length + 1) (skipBlank text.toList) with
  | some (v, rest) => if skipBlank rest = [] then some v else none
  | none => none

/-- **Round trip.** -/
theorem loads_dumps (style : Style) (v : Json) : loads (dumps style v) = some (canon v) := by
  have hread := read_print style (canon v) ((print style (canon v)).length + 1) [] (by simp)
    (by simp [Stops])
  have hskip := skipBlank_print style (canon v) []
  rw [List.append_nil] at hread hskip
  simp only [loads, dumps, String.toList_ofList, hskip, hread]
  rfl

theorem dumps_inj {style : Style} {v w : Json} : dumps style v = dumps style w ↔ canon v = canon w := by
  constructor
  · intro h
    have hv := loads_dumps style v
    rw [h, loads_dumps] at hv
    exact (Option.some.inj hv).symm
  · intro h; rw [dumps, dumps, h]

/-! ## Bytes of a text -/

abbrev Bytes := List UInt8

def utf8 (s : String) : Bytes := s.toByteArray.data.toList

theorem utf8_inj {s t : String} : utf8 s = utf8 t ↔ s = t := by
  constructor
  · intro h
    exact String.toByteArray_inj.mp (ByteArray.ext (Array.toList_inj.mp h))
  · rintro rfl; rfl

end RlmGraph.Lib.JsonText
