import RlmGraph.Lib.PyText

/-! # Requests in a conversation

The patterns that a message is read by, as functions on its characters. Their
letters match without regard to case, a blank of a pattern only itself, and a
run of blanks any white space. A message is read without the white space around
it, so a run that a pattern takes ends where the blanks end. -/
namespace RlmGraph.Tickets.Requests
open RlmGraph.Lib.PyText

/-- Whether a lower-case letter of a pattern, or another character of it, meets
a character. -/
def meets (p c : Char) : Bool :=
  p == c.toLower || (p == 'i' && (c.toNat == 0x130 || c.toNat == 0x131)) ||
    (p == 's' && c.toNat == 0x17f) || (p == 'k' && c.toNat == 0x212a)

/-- What follows the phrase. -/
def eatPhrase : List Char → List Char → Option (List Char)
  | [], text => some text
  | _ :: _, [] => none
  | p :: phrase, c :: text => if meets p c then eatPhrase phrase text else none

/-- What follows a run of white space that is not empty. -/
def eatBlanks : List Char → Option (List Char)
  | [] => none
  | c :: text => if isSpace c then some (text.dropWhile isSpace) else none

/-- The text is one of the phrases, perhaps with a mark behind it. -/
def isPhrase (phrases : List String) (marks text : List Char) : Bool :=
  phrases.any fun phrase => match eatPhrase phrase.toList text with
    | some [] => true
    | some [c] => marks.contains c
    | _ => false

/-! ## The patterns -/

/-- `_START` up to the blanks: what comes before the verb, and the verb. -/
def heads : List (String × String) :=
  ["start working on", "start work on", "start task:", "start task", "start the task", "work on",
    "can you start working on", "can you please start working on"].map (·, "") ++
  ["", "can you ", "could you ", "can you please ", "could you please "].flatMap fun lead =>
    [(lead, "fix"), (lead, "implement")]

/-- The verb as it stands in the text, and what follows. -/
def eatHead (text : List Char) (head : String × String) : Option (List Char × List Char) := do
  let rest ← eatPhrase head.1.toList text
  let after ← eatPhrase head.2.toList rest
  return (rest.take head.2.length, after)

/-- Without a mark at the end, if something stays. -/
def dropMark (text : List Char) : List Char :=
  if 1 < text.length ∧ text.getLast?.any ['.', '!', '?'].contains then text.dropLast else text

/-- The objective of a head and what follows it. -/
def objectiveAfter (verb after : List Char) : Option String := do
  let rest ← eatBlanks after
  if rest = [] ∨ '\n' ∈ rest then none
  else
    let objective := strip (String.ofList (dropMark rest))
    return if verb = [] then objective else String.ofList verb ++ " " ++ objective

/-- `_START.fullmatch`: the objective, with its verb if there is one. -/
def startObjective (message : String) : Option String :=
  let text := (strip message).toList
  let texts := (eatPhrase "please ".toList text).toList ++ [text]
  (texts.flatMap fun text => heads.filterMap (eatHead text)).findSome? fun (verb, after) =>
    objectiveAfter verb after

/-- `_STATUS.fullmatch`, as `is_status_request`. -/
def isStatusRequest (message : String) : Bool :=
  isPhrase ["task status", "how is the task going", "how is the task progressing",
    "how is my task going", "how is my task progressing", "what is the task status"]
    ['?', '!', '.'] (strip message).toList

/-- The message is about the selected task. -/
def isSelectedTask (message : String) : Bool :=
  isPhrase ["start this task", "start the selected task", "please start this task",
    "please start the selected task"] ['.', '!'] (strip message).toList

/-- The name behind the words `in project`. If only blanks follow them, the last
one is the name. -/
def projectName (text : List Char) : Option (List Char) := do
  let text ← eatBlanks text
  let rest ← eatPhrase "in project".toList text
  let name ← eatBlanks rest
  if '\n' ∈ name then none
  else if name ≠ [] then return name
  else if 1 < rest.length then rest.getLast?.bind fun c => if c = '\n' then none else some [c]
  else none

/-- The objective, as short as it can be, and the project named behind it. -/
def splitProject (seen : List Char) : List Char → Option (String × String)
  | [] => none
  | c :: text =>
    match if seen = [] then none else projectName (c :: text) with
    | some name => some (String.ofList seen, String.ofList name)
    | none => if c = '\n' then none else splitProject (seen ++ [c]) text

/-- `re.fullmatch` of an objective with a project. -/
def namedProject (objective : String) : Option (String × String) := splitProject [] objective.toList

example : startObjective "How would you fix the export?" = none := by decide +kernel

example : startObjective "Can you please FIX  the export. " = some "FIX the export" := by
  decide +kernel

example : namedProject "Fix export in project  Atlas" = some ("Fix export", "Atlas") := by
  decide +kernel

end RlmGraph.Tickets.Requests
