import Mathlib.Algebra.GroupWithZero.Nat
import Mathlib.Data.Rat.Defs
import RlmGraph.Lib.JsonText

/-! # Compact JSON text of values with floating point numbers

The text of a value without blanks, and the size of an array's
(`length_text_arr`): its items, the separators between them and two brackets. -/
namespace RlmGraph.Lib.CompactJson
open RlmGraph.Lib.JsonText

inductive Value where
  | bool (b : Bool)
  | int (n : Int)
  | float (x : ℚ)
  | str (s : String)
  | arr (items : List Value)
  | obj (fields : List (String × Value))

def strings (texts : List String) : Value := .arr (texts.map .str)

variable (floatText : ℚ → List Char)

mutual

/-- `json.dumps(value, separators=(",", ":"))`, with the text of a float. -/
def text : Value → List Char
  | .bool true => "true".toList
  | .bool false => "false".toList
  | .int n => printInt n
  | .float x => floatText x
  | .str s => quoted true s.toList
  | .arr items => '[' :: textItems items
  | .obj fields => '{' :: textFields fields

def textItems : List Value → List Char
  | [] => [']']
  | [v] => text v ++ [']']
  | v :: w :: rest => text v ++ ',' :: textItems (w :: rest)

def textFields : List (String × Value) → List Char
  | [] => ['}']
  | [(k, v)] => quoted true k.toList ++ ':' :: (text v ++ ['}'])
  | (k, v) :: f :: rest => quoted true k.toList ++ ':' :: (text v ++ ',' :: textFields (f :: rest))

end

theorem length_textItems (items : List Value) : (textItems floatText items).length =
    1 + (items.map fun v => (text floatText v).length).sum + (items.length - 1) := by
  induction items with
  | nil => rfl
  | cons v rest ih =>
    cases rest with
    | nil => simp [textItems, Nat.add_comm]
    | cons w rest =>
      rw [textItems, List.length_append, List.length_cons, ih]
      simp only [List.map_cons, List.sum_cons, List.length_cons]
      omega

theorem length_text_arr (items : List Value) : (text floatText (.arr items)).length =
    2 + (items.map fun v => (text floatText v).length).sum + (items.length - 1) := by
  rw [text, List.length_cons, length_textItems]
  omega

end RlmGraph.Lib.CompactJson
