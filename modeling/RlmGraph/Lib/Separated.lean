import Mathlib.Data.List.Basic

/-! # Separated rows

Rows written one after the other with a separator between them. Where the end of
a row can be told from what is written, a text is that of one list of rows only,
whatever their number (`separated_inj`). -/
namespace RlmGraph.Lib.Separated

variable {α ρ : Type}

/-- The texts of the rows, with the separator between them. -/
def separated (separator : α) (encode : ρ → List α) : List ρ → List α
  | [] => []
  | [r] => encode r
  | r :: r' :: rows => encode r ++ separator :: separated separator encode (r' :: rows)

/-- What may follow a row: nothing, or the separator. -/
def Follows (separator : α) (rest : List α) : Prop := rest = [] ∨ ∃ more, rest = separator :: more

/-- Rows whose end can be told. -/
structure Delimited (separator : α) (encode : ρ → List α) (Row : ρ → Prop) : Prop where
  ne_nil : ∀ r, encode r ≠ []
  unique : ∀ {r r' rest rest'}, Row r → Row r' → Follows separator rest → Follows separator rest' →
    encode r ++ rest = encode r' ++ rest' → r = r' ∧ rest = rest'

/-- Two texts with a mark agree up to their first marks. -/
theorem eq_of_append_mark {mark : α} {xs ys rest rest' : List α} (hx : mark ∉ xs) (hy : mark ∉ ys)
    (h : xs ++ mark :: rest = ys ++ mark :: rest') : xs = ys ∧ rest = rest' := by
  induction xs generalizing ys with
  | nil =>
    cases ys with
    | nil => exact ⟨rfl, (List.cons.inj h).2⟩
    | cons y ys =>
      have hhead : mark = y := (List.cons.inj h).1
      exact absurd (hhead ▸ List.mem_cons_self) hy
  | cons x xs ih =>
    cases ys with
    | nil =>
      have hhead : x = mark := (List.cons.inj h).1
      exact absurd (hhead ▸ List.mem_cons_self) hx
    | cons y ys =>
      obtain ⟨hhead, htail⟩ := List.cons.inj h
      obtain ⟨hrest, hafter⟩ := ih (fun hmem => hx (List.mem_cons_of_mem x hmem))
        (fun hmem => hy (List.mem_cons_of_mem y hmem)) htail
      exact ⟨by rw [hhead, hrest], hafter⟩

/-- Two texts without the separator agree if what follows them may follow a row. -/
theorem eq_of_append_follows {separator : α} {xs ys rest rest' : List α} (hx : separator ∉ xs)
    (hy : separator ∉ ys) (hrest : Follows separator rest) (hrest' : Follows separator rest')
    (h : xs ++ rest = ys ++ rest') : xs = ys ∧ rest = rest' := by
  obtain rfl | ⟨more, rfl⟩ := hrest
  · obtain rfl | ⟨more', rfl⟩ := hrest'
    · rw [List.append_nil, List.append_nil] at h
      exact ⟨h, rfl⟩
    · rw [List.append_nil] at h
      exact absurd (h ▸ List.mem_append_right ys List.mem_cons_self) hx
  · obtain rfl | ⟨more', rfl⟩ := hrest'
    · rw [List.append_nil] at h
      exact absurd (h ▸ List.mem_append_right xs List.mem_cons_self) hy
    · obtain ⟨hxy, hmore⟩ := eq_of_append_mark hx hy h
      exact ⟨hxy, by rw [hmore]⟩

section
variable {separator : α} {encode : ρ → List α} {Row : ρ → Prop} {r : ρ} {rows rows' : List ρ}

/-- The text after the first row may follow it. -/
theorem exists_separated_cons (separator : α) (encode : ρ → List α) (r : ρ) (rows : List ρ) : ∃ rest, Follows separator rest ∧
    separated separator encode (r :: rows) = encode r ++ rest ∧
    (rest = [] → rows = []) ∧
      ∀ more, rest = separator :: more → more = separated separator encode rows := by
  cases rows with
  | nil => exact ⟨[], .inl rfl, (List.append_nil _).symm, fun _ => rfl, fun _ h => by cases h⟩
  | cons r' rows =>
    refine ⟨separator :: separated separator encode (r' :: rows), .inr ⟨_, rfl⟩, rfl,
      fun h => absurd h (List.cons_ne_nil _ _), fun more h => ?_⟩
    exact (List.cons.inj h).2.symm

theorem separated_eq_nil (hdelimited : Delimited separator encode Row)
    (h : separated separator encode rows = []) : rows = [] := by
  cases rows with
  | nil => rfl
  | cons r rows =>
    obtain ⟨rest, -, heq, -⟩ := exists_separated_cons separator encode r rows
    rw [heq] at h
    exact absurd (List.append_eq_nil_iff.mp h).1 (hdelimited.ne_nil r)

/-- **A text is that of one list of rows.** -/
theorem separated_inj (hdelimited : Delimited separator encode Row) (hrows : ∀ r ∈ rows, Row r)
    (hrows' : ∀ r ∈ rows', Row r)
    (h : separated separator encode rows = separated separator encode rows') : rows = rows' := by
  induction rows generalizing rows' with
  | nil => exact (separated_eq_nil hdelimited h.symm).symm
  | cons r rows ih =>
    cases rows' with
    | nil => exact separated_eq_nil hdelimited h
    | cons r' rows' =>
      obtain ⟨rest, hfollows, heq, hnil, hmore⟩ :=
        exists_separated_cons separator encode r rows
      obtain ⟨rest', hfollows', heq', hnil', hmore'⟩ :=
        exists_separated_cons separator encode r' rows'
      rw [heq, heq'] at h
      obtain ⟨rfl, rfl⟩ := hdelimited.unique (hrows r List.mem_cons_self) (hrows' r' List.mem_cons_self)
        hfollows hfollows' h
      have hsame : rows = rows' := by
        obtain hempty | ⟨more, hcons⟩ := hfollows
        · rw [hnil hempty, hnil' hempty]
        · have htexts := (hmore more hcons).symm.trans (hmore' more hcons)
          exact ih (fun r hr => hrows r (List.mem_cons_of_mem _ hr))
            (fun r hr => hrows' r (List.mem_cons_of_mem _ hr)) htexts
      rw [hsame]

end

end RlmGraph.Lib.Separated
