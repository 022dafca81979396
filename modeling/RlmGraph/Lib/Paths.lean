import Mathlib.Data.String.Basic

/-! # Paths

Posix paths as `pathlib` has them: a root, which is empty for a relative path,
and the parts between the slashes. Empty parts and single dots are dropped when
a path is read; double dots stay until the path is normalised. -/
namespace RlmGraph.Lib.Paths

structure PurePath where
  root : String
  parts : List String
  deriving DecidableEq

/-- Two slashes are a root of their own, three and more are one. -/
def rootOf : List Char → String
  | '/' :: '/' :: '/' :: _ => "/"
  | '/' :: '/' :: _ => "//"
  | '/' :: _ => "/"
  | _ => ""

/-- What stands between the slashes. -/
def components (text : String) : List String := (text.toList.splitOn '/').map String.ofList

/-- `Path(text)`. -/
def PurePath.parse (text : String) : PurePath where
  root := rootOf text.toList
  parts := (components text).filter fun part => part ≠ "" ∧ part ≠ "."

/-- `path.as_posix()`. -/
def PurePath.asPosix (path : PurePath) : String :=
  if path.root = "" ∧ path.parts = [] then "." else path.root ++ "/".intercalate path.parts

/-- `path / text`: what has a root replaces the path. -/
def PurePath.join (path : PurePath) (text : String) : PurePath :=
  let other := parse text
  if other.root ≠ "" then other else { path with parts := path.parts ++ other.parts }

/-- `path.parent`. -/
def PurePath.parent (path : PurePath) : PurePath := { path with parts := path.parts.dropLast }

/-- From a folder along the components of a path, up at double dots; nothing
above the top. -/
def walk (folder : List String) : List String → Option (List String)
  | [] => some folder
  | part :: rest =>
    if part = "" ∨ part = "." then walk folder rest
    else if part = ".." then if folder = [] then none else walk folder.dropLast rest
    else walk (folder ++ [part]) rest

/-- A name of a file or folder. -/
def IsName (part : String) : Prop := part ≠ "" ∧ '/' ∉ part.toList

/-- The text starts at the root. -/
def Rooted (text : String) : Prop := ∃ rest, text.toList = '/' :: rest

theorem Rooted.append {text : String} (h : Rooted text) (more : String) : Rooted (text ++ more) := by
  obtain ⟨rest, htext⟩ := h
  exact ⟨rest ++ more.toList, by rw [String.toList_append, htext]; rfl⟩

theorem rootOf_eq_nil {chars : List Char} (h : chars.head? ≠ some '/') : rootOf chars = "" := by
  unfold rootOf
  split <;> simp_all

theorem rootOf_cons (rest : List Char) : ∃ more, (rootOf ('/' :: rest)).toList = '/' :: more := by
  unfold rootOf
  split
  · exact ⟨[], rfl⟩
  · exact ⟨['/'], rfl⟩
  · exact ⟨[], rfl⟩
  · next h =>
    exact absurd rfl (h rest)

/-- The root of a path that has one. -/
def PurePath.Absolute (path : PurePath) : Prop := ∃ more, path.root.toList = '/' :: more

theorem PurePath.Absolute.ne {path : PurePath} (h : path.Absolute) : path.root ≠ "" := by
  obtain ⟨more, hroot⟩ := h
  intro hempty
  rw [hempty] at hroot
  cases hroot

theorem absolute_parse {text : String} (h : Rooted text) : (PurePath.parse text).Absolute := by
  obtain ⟨rest, htext⟩ := h
  unfold PurePath.parse PurePath.Absolute
  rw [htext]
  exact rootOf_cons rest

/-- What has a root replaces the path it is joined to. -/
theorem join_of_rooted {text : String} (path : PurePath) (h : Rooted text) :
    path.join text = PurePath.parse text := by
  unfold PurePath.join
  exact if_pos (absolute_parse h).ne

theorem absolute_join_of_rooted {text : String} (path : PurePath) (h : Rooted text) :
    (path.join text).Absolute := by
  rw [join_of_rooted path h]
  exact absolute_parse h

theorem PurePath.Absolute.join {path : PurePath} {text : String} (h : path.Absolute)
    (hrelative : text.toList.head? ≠ some '/') : (path.join text).Absolute := by
  unfold PurePath.join
  have hroot : (parse text).root = "" := rootOf_eq_nil hrelative
  simp [hroot]
  exact h

theorem PurePath.Absolute.rooted {path : PurePath} (h : path.Absolute) : Rooted path.asPosix := by
  obtain ⟨more, hroot⟩ := h
  unfold asPosix Rooted
  rw [if_neg (fun hboth => PurePath.Absolute.ne ⟨more, hroot⟩ hboth.1)]
  exact ⟨more ++ ("/".intercalate path.parts).toList, by rw [String.toList_append, hroot]; rfl⟩

/-- The text of a relative path does not start at the root. -/
theorem not_rooted_asPosix {parts : List String} (h : ∀ part ∈ parts, IsName part) :
    ¬Rooted (PurePath.asPosix ⟨"", parts⟩) := by
  rintro ⟨rest, hrest⟩
  unfold PurePath.asPosix at hrest
  cases parts with
  | nil => cases hrest
  | cons part parts =>
    obtain ⟨hne, hslash⟩ := h part List.mem_cons_self
    have hchars : ∃ c more, part.toList = c :: more := by
      cases hpart : part.toList with
      | nil => exact absurd (String.toList_eq_nil_iff.mp hpart) hne
      | cons c more => exact ⟨c, more, rfl⟩
    obtain ⟨c, more, hpart⟩ := hchars
    have hhead : ∃ tail, ("/".intercalate (part :: parts)).toList = c :: tail := by
      cases parts with
      | nil => exact ⟨more, by simp [hpart]⟩
      | cons next parts => exact ⟨_, by simp only [String.intercalate_cons_cons, String.toList_append, hpart, List.cons_append]; rfl⟩
    obtain ⟨tail, htail⟩ := hhead
    simp [htail] at hrest
    rw [hpart, hrest.1] at hslash
    exact hslash List.mem_cons_self

end RlmGraph.Lib.Paths
