import Mathlib.Data.List.Dedup
import Mathlib.Data.List.Infix
import Mathlib.Data.List.Sort
import Mathlib.Data.String.Basic

/-! # Texts

The string operations the modelled functions use. Case conversion of ASCII
texts is computed; the tables of the host decide the others. -/
namespace RlmGraph.Lib.PyText

/-- Case conversion of texts with a character outside ASCII. -/
structure CaseTables where
  upper : String → String
  lower : String → String
  casefold : String → String

def isAscii (text : String) : Bool := text.toList.all fun c => decide (c.toNat < 128)

/-- `str.upper`. -/
def upper (tables : CaseTables) (text : String) : String :=
  if isAscii text then String.ofList (text.toList.map Char.toUpper) else tables.upper text

/-- `str.lower`. -/
def lower (tables : CaseTables) (text : String) : String :=
  if isAscii text then String.ofList (text.toList.map Char.toLower) else tables.lower text

/-- `str.casefold`. -/
def casefold (tables : CaseTables) (text : String) : String :=
  if isAscii text then String.ofList (text.toList.map Char.toLower) else tables.casefold text

/-- `str.isspace` of one character. -/
def isSpace (c : Char) : Bool :=
  let n := c.toNat
  (0x09 ≤ n && n ≤ 0x0d) || (0x1c ≤ n && n ≤ 0x20) || n == 0x85 || n == 0xa0 || n == 0x1680 ||
    (0x2000 ≤ n && n ≤ 0x200a) || n == 0x2028 || n == 0x2029 || n == 0x202f || n == 0x205f ||
    n == 0x3000

/-- `str.strip`. -/
def strip (text : String) : String :=
  String.ofList ((text.toList.dropWhile isSpace).reverse.dropWhile isSpace).reverse

/-- `not text.strip()`. -/
def isBlankText (text : String) : Bool := text.toList.all isSpace

/-- `text.split()`. -/
def words (text : String) : List String :=
  ((text.toList.splitOnP isSpace).filter (· ≠ [])).map String.ofList

/-- `" ".join(text.split())`. -/
def squeeze (text : String) : String := " ".intercalate (words text)

/-- `list(dict.fromkeys(texts))`. -/
def distinct (texts : List String) : List String := texts.eraseDups

theorem mem_distinct {texts : List String} {text : String} : text ∈ distinct texts ↔ text ∈ texts :=
  List.mem_eraseDups

/-- `sorted(set(texts))`. -/
def sortedSet (texts : List String) : List String :=
  texts.dedup.mergeSort fun a b => decide (a ≤ b)

@[simp] theorem mem_sortedSet {texts : List String} {text : String} :
    text ∈ sortedSet texts ↔ text ∈ texts := by
  simp [sortedSet, List.mem_mergeSort]

/-- The suffix of a file name: from its last dot, unless that dot is the first
or the last character. -/
def suffix (name : String) : String :=
  let chars := name.toList
  let extension := (chars.reverse.takeWhile (· ≠ '.')).reverse
  if '.' ∈ chars ∧ extension ≠ [] ∧ extension.length + 1 < chars.length then
    String.ofList ('.' :: extension)
  else ""

/-- `text.endswith(ending)`. -/
def endsWith (text ending : String) : Bool := decide (ending.toList <:+ text.toList)

/-- `part in text`. -/
def hasPart (text part : String) : Bool := decide (part.toList <:+: text.toList)

end RlmGraph.Lib.PyText
