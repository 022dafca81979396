import Mathlib.Data.List.Chain
import Mathlib.Data.List.DropRight

/-! # Corrections

What was said about one thing is a line of pairs of who said it and what. A
repeated value adds nothing, another one comes last, and the last value is the
current one. Who takes something back leaves the line; the rest keeps its links
unless somebody stands between others (`isChain_filter`). Saying it anew before
and after the old is taken back ends where saying it in place of the old does
(`current_redo`). -/
namespace RlmGraph.Lib.Corrections

/-! ## Links -/

section
variable {α : Type} {R : α → α → Prop} {p : α → Bool} {l : List α}

/-- Something that `p` drops stands between two things it keeps. -/
def Between (p : α → Bool) (l : List α) : Prop :=
  ∃ a b c, List.Sublist [a, b, c] l ∧ p a = true ∧ p b = false ∧ p c = true

/-- Nothing dropped stands between if all of it comes last. -/
theorem not_between_of_last {base more : List α} (hbase : ∀ x ∈ base, p x = true)
    (hmore : ∀ x ∈ more, p x = false) : ¬ Between p (base ++ more) := by
  rintro ⟨a, b, c, hsub, ha, hb, hc⟩
  obtain ⟨l₁, l₂, heq, h₁, h₂⟩ := List.sublist_append_iff.mp hsub
  have hclast : c ∉ l₂ := fun hmem => by
    have := hmore c (h₂.subset hmem)
    rw [hc] at this
    cases this
  have hl₂ : l₂ = [] := by
    cases hlast : l₂.getLast? with
    | none => exact List.getLast?_eq_none_iff.mp hlast
    | some x =>
      have hx : ([a, b, c] : List α).getLast? = some x := by
        rw [heq, List.getLast?_append, hlast, Option.some_or]
      obtain rfl : c = x := by simpa using hx
      exact absurd (List.mem_of_getLast? hlast) hclast
  rw [hl₂, List.append_nil] at heq
  have hmem : b ∈ l₁ := by
    rw [← heq]
    simp
  have := hbase b (h₁.subset hmem)
  rw [hb] at this
  cases this

theorem between_map {β : Type} {q : β → Bool} {f : α → β} (hq : ∀ a, q (f a) = p a) :
    Between q (l.map f) ↔ Between p l := by
  constructor
  · rintro ⟨a, b, c, hsub, ha, hb, hc⟩
    obtain ⟨kept, hkept, heq⟩ := List.sublist_map_iff.mp hsub
    obtain ⟨x, y, z, rfl⟩ : ∃ x y z, kept = [x, y, z] := by
      have hlength := congrArg List.length heq
      exact List.length_eq_three.mp (by simpa using hlength.symm)
    obtain ⟨rfl, rfl, rfl⟩ : a = f x ∧ b = f y ∧ c = f z := by simpa using heq
    exact ⟨x, y, z, hkept, by rw [← hq, ha], by rw [← hq, hb], by rw [← hq, hc]⟩
  · rintro ⟨a, b, c, hsub, ha, hb, hc⟩
    exact ⟨f a, f b, f c, hsub.map f, by rw [hq, ha], by rw [hq, hb], by rw [hq, hc]⟩

/-- Something that `p` drops follows something it keeps. -/
def Follows (p : α → Bool) (l : List α) : Prop :=
  ∃ a b, List.Sublist [a, b] l ∧ p a = true ∧ p b = false

/-- Then somewhere something kept is followed by something dropped. -/
theorem Between.split (h : Between p l) : ∃ before a b rest, l = before ++ a :: b :: rest ∧
    p a = true ∧ p b = false ∧ ∃ c ∈ rest, p c = true := by
  obtain ⟨a, b, c, hsub, ha, hb, hc⟩ := h
  induction l generalizing a with
  | nil => cases hsub
  | cons x l ih =>
    rcases List.cons_sublist_cons'.mp hsub with hlater | ⟨rfl, hpair⟩
    · obtain ⟨before, a, b, rest, rfl, hrest⟩ := ih a hlater ha
      exact ⟨x :: before, a, b, rest, rfl, hrest⟩
    cases l with
    | nil => exact absurd hpair (by simp)
    | cons y l =>
      cases hy : p y with
      | false =>
        refine ⟨[], a, y, l, rfl, ha, hy, c, ?_, hc⟩
        rcases List.cons_sublist_cons'.mp hpair with hin | ⟨-, hin⟩
        · exact hin.subset (List.mem_cons_of_mem b (List.mem_singleton_self c))
        · exact hin.subset (List.mem_singleton_self c)
      | true =>
        -- what follows is kept as well, so the step comes later
        have hne : b ≠ y := fun heq => by rw [heq, hy] at hb; cases hb
        have hrest : List.Sublist [b, c] l :=
          (List.cons_sublist_cons'.mp hpair).resolve_right fun h => hne h.1
        obtain ⟨before, a', b', rest, heq, hfound⟩ := ih y (hrest.cons_cons y) hy
        exact ⟨a :: before, a', b', rest, by rw [heq, List.cons_append], hfound⟩

/-- What comes after something in a list without repetitions is in its rest. -/
theorem mem_of_pair_sublist {a b : α} {before rest : List α} (hl : (before ++ a :: rest).Nodup)
    (hsub : List.Sublist [a, b] (before ++ a :: rest)) : b ∈ rest := by
  obtain ⟨-, hnodup, hdisjoint⟩ := List.nodup_append.mp hl
  obtain ⟨l₁, l₂, heq, h₁, h₂⟩ := List.sublist_append_iff.mp hsub
  cases l₁ with
  | nil =>
    rw [List.nil_append] at heq
    subst heq
    rcases List.cons_sublist_cons'.mp h₂ with hin | ⟨-, hin⟩
    · exact absurd (hin.subset List.mem_cons_self) (List.nodup_cons.mp hnodup).1
    · exact hin.subset List.mem_cons_self
  | cons first l₁ =>
    obtain ⟨rfl, -⟩ := List.cons.inj heq
    exact absurd rfl (hdisjoint a (h₁.subset List.mem_cons_self) a List.mem_cons_self)

/-- In a chain each but the first is linked to another one of it. -/
theorem exists_link {a b : α} {rest : List α} (h : (a :: rest).IsChain R) (hb : b ∈ rest) :
    ∃ x ∈ a :: rest, R x b := by
  induction rest generalizing a with
  | nil => cases hb
  | cons next rest ih =>
    obtain ⟨hlink, htail⟩ := List.isChain_cons_cons.mp h
    rcases List.mem_cons.mp hb with rfl | hb
    · exact ⟨a, List.mem_cons_self, hlink⟩
    · obtain ⟨x, hx, hlink⟩ := ih htail hb
      exact ⟨x, List.mem_cons_of_mem a hx, hlink⟩

/-- What is kept is one stretch if nothing dropped stands between. -/
theorem filter_stretch (h : ¬ Between p l) : l.filter p <:+: l := by
  let rest := l.dropWhile fun x => !p x
  have hsplit : (l.takeWhile fun x => !p x) ++ rest = l := List.takeWhile_append_dropWhile
  have hrest : rest.takeWhile p ++ rest.dropWhile p = rest := List.takeWhile_append_dropWhile
  have hfront : (l.takeWhile fun x => !p x).filter p = [] := by
    refine List.filter_eq_nil_iff.mpr fun x hx => ?_
    simpa using List.mem_takeWhile_imp hx
  have hkept : (rest.takeWhile p).filter p = rest.takeWhile p :=
    List.filter_eq_self.mpr fun x hx => List.mem_takeWhile_imp hx
  have hback : (rest.dropWhile p).filter p = [] := by
    refine List.filter_eq_nil_iff.mpr fun c hc hpc => h ?_
    cases hd : rest.dropWhile p with
    | nil => simp [hd] at hc
    | cons b back =>
      have hb : p b = false := by
        have := List.head?_dropWhile_not p rest
        simpa [hd] using this
      have hcb : c ∈ back := by
        rcases List.mem_cons.mp (hd ▸ hc) with rfl | hcb
        · rw [hpc] at hb
          cases hb
        · exact hcb
      cases hk : rest.takeWhile p with
      | nil =>
        -- the rest starts with something kept, so a stretch is kept
        rw [hk, List.nil_append, hd] at hrest
        have hhead := List.head?_dropWhile_not (fun x => !p x) l
        change match rest.head? with | some x => _ | none => _ at hhead
        rw [← hrest] at hhead
        simp [hb] at hhead
      | cons a kept =>
        have ha : p a = true := List.mem_takeWhile_imp (hk ▸ List.mem_cons_self)
        refine ⟨a, b, c, ?_, ha, hb, hpc⟩
        rw [← hsplit, ← hrest, hk, hd]
        refine List.Sublist.trans ?_ (List.sublist_append_right ..)
        have hfirst : List.Sublist [a] (a :: kept) :=
          List.singleton_sublist.mpr List.mem_cons_self
        have hlast : List.Sublist [b, c] (b :: back) :=
          (List.singleton_sublist.mpr hcb).cons_cons b
        exact hfirst.append hlast
  have hrestfilter : rest.filter p = rest.takeWhile p := by
    rw [← hkept, ← List.append_nil ((rest.takeWhile p).filter p), ← hback, ← List.filter_append,
      hrest]
  have hfilter : l.filter p = rest.takeWhile p := by
    rw [← hrestfilter, ← List.nil_append (rest.filter p), ← hfront, ← List.filter_append, hsplit]
  refine ⟨l.takeWhile fun x => !p x, rest.dropWhile p, ?_⟩
  rw [hfilter, List.append_assoc, hrest, hsplit]

/-- Links are kept where nothing dropped stands between. -/
theorem isChain_filter (hl : l.IsChain R) (h : ¬ Between p l) : (l.filter p).IsChain R :=
  hl.infix (filter_stretch h)

end

/-! ## Values -/

variable {ι ν : Type} (same : ν → ν → Prop) [DecidableRel same]

/-- A value is said: it comes last unless it repeats the last one. -/
def say (who : ι) (line : List (ι × ν)) (value : ν) : List (ι × ν) :=
  match line.getLast? with
  | some last => if same last.2 value then line else line ++ [(who, value)]
  | none => [(who, value)]

def sayAll (who : ι) (values : List ν) (line : List (ι × ν)) : List (ι × ν) :=
  values.foldl (say same who) line

/-- What somebody said is taken back. -/
def retract [DecidableEq ι] (who : ι) (line : List (ι × ν)) : List (ι × ν) := line.filter (·.1 ≠ who)

/-- The value that stands. -/
def current (line : List (ι × ν)) : Option ν := line.getLast?.map (·.2)

/-- What stands after a value is said where `value?` stood. -/
def revise (value? : Option ν) (value : ν) : Option ν :=
  match value? with
  | some last => if same last value then some last else some value
  | none => some value

variable {same} {who : ι} {line base : List (ι × ν)} {values : List ν}

theorem current_say (who : ι) (line : List (ι × ν)) (value : ν) :
    current (say same who line value) = revise same (current line) value := by
  unfold current say revise
  cases h : line.getLast? with
  | none => rfl
  | some last =>
    simp only [Option.map_some]
    split
    · rw [h, Option.map_some]
    · rw [List.getLast?_concat, Option.map_some]

theorem current_sayAll (who : ι) (values : List ν) (line : List (ι × ν)) :
    current (sayAll same who values line) = values.foldl (revise same) (current line) := by
  induction values generalizing line with
  | nil => rfl
  | cons value values ih =>
    change current (sayAll same who values (say same who line value)) = _
    rw [ih, current_say, List.foldl_cons]

variable (same) in
/-- What is said comes after what was. -/
theorem sayAll_eq (who : ι) (values : List ν) (line : List (ι × ν)) :
    ∃ more, sayAll same who values line = line ++ more ∧ ∀ entry ∈ more, entry.1 = who := by
  induction values generalizing line with
  | nil => exact ⟨[], by simp [sayAll], by simp⟩
  | cons value values ih =>
    obtain ⟨more, hmore, hwho⟩ := ih (say same who line value)
    change ∃ more, sayAll same who values (say same who line value) = _ ∧ _
    unfold say at hmore ⊢
    cases hlast : line.getLast? with
    | none =>
      rw [hlast] at hmore
      rw [List.getLast?_eq_none_iff.mp hlast]
      refine ⟨(who, value) :: more, by simpa using hmore, ?_⟩
      exact List.forall_mem_cons.mpr ⟨rfl, hwho⟩
    | some last =>
      simp only [hlast] at hmore ⊢
      split at hmore
      next hsame => exact ⟨more, by simpa [hsame] using hmore, hwho⟩
      next hsame =>
        refine ⟨(who, value) :: more, ?_, List.forall_mem_cons.mpr ⟨rfl, hwho⟩⟩
        simpa [hsame] using hmore

/-- Nothing comes of values that all repeat the last one. -/
theorem sayAll_eq_self (who : ι) {last : ι × ν} (hlast : line.getLast? = some last) :
    sayAll same who values line = line ↔ ∀ value ∈ values, same last.2 value := by
  induction values with
  | nil => simp [sayAll]
  | cons value values ih =>
    rw [List.forall_mem_cons]
    change sayAll same who values (say same who line value) = line ↔ _
    by_cases hvalue : same last.2 value
    · have hsay : say same who line value = line := by simp [say, hlast, hvalue]
      rw [hsay, ih]
      exact (and_iff_right hvalue).symm
    · refine iff_of_false (fun heq => ?_) fun h => hvalue h.1
      obtain ⟨more, hmore, -⟩ := sayAll_eq same who values (say same who line value)
      have hsay : say same who line value = line ++ [(who, value)] := by simp [say, hlast, hvalue]
      have hlength := congrArg List.length (hmore.symm.trans heq)
      rw [hsay] at hlength
      simp at hlength

/-- `old` may be taken back once `values` have been said: nothing of his stands
between others, and if it follows others, the values repeat the last one. -/
structure Removable [DecidableEq ι] (same : ν → ν → Prop) (old : ι) (values : List ν)
    (line : List (ι × ν)) : Prop where
  apart : ¬ Between (fun entry : ι × ν => entry.1 != old) line
  repeats : Follows (fun entry : ι × ν => entry.1 != old) line →
    ∀ last ∈ line.getLast?, ∀ value ∈ values, same last.2 value

/-- Then nothing of his stands between others once somebody has said them. -/
theorem removable_iff [DecidableEq ι] {old new : ι} (hne : new ≠ old) :
    Removable same old values line ↔
      ¬ Between (fun entry : ι × ν => entry.1 != old) (sayAll same new values line) := by
  obtain ⟨more, hmore, hnew⟩ := sayAll_eq same new values line
  constructor
  · rintro ⟨hapart, hrepeats⟩ hbetween
    rw [hmore] at hbetween
    obtain ⟨a, b, c, hsub, ha, hb, hc⟩ := hbetween
    obtain ⟨l₁, l₂, heq, h₁, h₂⟩ := List.sublist_append_iff.mp hsub
    match l₁, l₂, heq with
    | _, [], heq =>
      rw [List.append_nil] at heq
      exact hapart ⟨a, b, c, heq ▸ h₁, ha, hb, hc⟩
    | [a', b'], [c'], heq =>
      obtain ⟨rfl, rfl, rfl⟩ : a = a' ∧ b = b' ∧ c = c' := by simpa using heq
      have hne : line ≠ [] := fun hnil => by simp [hnil] at h₁
      have hlast := List.getLast?_eq_some_getLast hne
      have hsaid := (sayAll_eq_self new hlast).mpr
        (hrepeats ⟨a, b, h₁, ha, hb⟩ _ hlast)
      rw [hsaid] at hmore
      have hnil : more = [] := by simpa using hmore
      simp [hnil] at h₂
    | [], a' :: rest, heq =>
      obtain ⟨rfl, rfl⟩ : a = a' ∧ [b, c] = rest := by simpa using heq
      have hwho := hnew b (h₂.subset (by simp))
      simp [hwho, hne] at hb
    | [a'], b' :: rest, heq =>
      obtain ⟨rfl, rfl, rfl⟩ : a = a' ∧ b = b' ∧ [c] = rest := by simpa using heq
      have hwho := hnew b (h₂.subset List.mem_cons_self)
      simp [hwho, hne] at hb
    | [_, _, _], _ :: _, heq | _ :: _ :: _ :: _ :: _, _, heq | [_, _], _ :: _ :: _, heq => simp at heq
  · intro hapart
    rw [hmore] at hapart
    refine ⟨fun ⟨a, b, c, hsub, hp⟩ => hapart ⟨a, b, c, ?_, hp⟩, ?_⟩
    · exact hsub.trans (List.sublist_append_left ..)
    · rintro ⟨a, b, hsub, ha, hb⟩ last hlast
      refine (sayAll_eq_self new hlast).mp ?_
      cases more with
      | nil => rw [hmore, List.append_nil]
      | cons c more =>
        have hc : c.1 ≠ old := by
          rw [hnew c List.mem_cons_self]
          exact hne
        have htriple : List.Sublist ([a, b] ++ [c]) (line ++ c :: more) :=
          hsub.append (List.singleton_sublist.mpr List.mem_cons_self)
        exact absurd ⟨a, b, c, htriple, ha, hb, by simpa using hc⟩ hapart

theorem retract_of_all [DecidableEq ι] (h : ∀ entry ∈ line, entry.1 = who) : retract who line = [] := by
  refine List.filter_eq_nil_iff.mpr fun entry hentry => ?_
  simp [h entry hentry]

theorem retract_of_none [DecidableEq ι] (h : ∀ entry ∈ line, entry.1 ≠ who) : retract who line = line :=
  List.filter_eq_self.mpr fun entry hentry => by simpa using h entry hentry

theorem retract_append [DecidableEq ι] (who : ι) (line more : List (ι × ν)) :
    retract who (line ++ more) = retract who line ++ retract who more :=
  List.filter_append ..

/-- Who takes back all there is of what he said leaves the line as it was. -/
theorem retract_sayAll [DecidableEq ι] (h : ∀ entry ∈ line, entry.1 ≠ who) (values : List ν) :
    retract who (sayAll same who values line) = line := by
  obtain ⟨more, hmore, hwho⟩ := sayAll_eq same who values line
  rw [hmore, retract_append, retract_of_none h, retract_of_all hwho, List.append_nil]

/-! ## Saying it anew -/

section
variable (hsame : Equivalence same)
include hsame

/-- Saying the same again changes nothing. -/
theorem revise_twice (values : List ν) (value? : Option ν) :
    values.foldl (revise same) (values.foldl (revise same) value?) =
      values.foldl (revise same) value? := by
  induction values using List.reverseRecOn generalizing value? with
  | nil => rfl
  | append_singleton values value ih =>
    simp only [List.foldl_append, List.foldl_cons, List.foldl_nil]
    rcases hlast : values.foldl (revise same) value? with _ | last
    · -- nothing stands only if nothing was said
      cases values using List.reverseRecOn with
      | nil => simp [revise, hsame.refl value]
      | append_singleton values value' =>
        rw [List.foldl_append, List.foldl_cons, List.foldl_nil] at hlast
        unfold revise at hlast
        split at hlast
        · split at hlast <;> cases hlast
        · cases hlast
    · by_cases hvalue : same last value
      · have hstays : revise same (some last) value = some last := by simp [revise, hvalue]
        rw [hstays, ← hlast, ih, hlast, hstays]
      · have hchanges : revise same (some last) value = some value := by simp [revise, hvalue]
        rw [hchanges]
        cases values using List.reverseRecOn with
        | nil => simp [revise, hsame.refl value]
        | append_singleton values value' =>
          -- what stands after `value'` is the same as `value'`, which is not `value`
          have hends : ∀ start, ∃ w, (values ++ [value']).foldl (revise same) start = some w ∧
              same w value' := by
            intro start
            rw [List.foldl_append, List.foldl_cons, List.foldl_nil]
            rcases values.foldl (revise same) start with _ | w
            · exact ⟨value', rfl, hsame.refl value'⟩
            · by_cases hw : same w value'
              · exact ⟨w, by simp [revise, hw], hw⟩
              · exact ⟨value', by simp [revise, hw], hsame.refl value'⟩
          obtain ⟨w, hw, hwlast⟩ := hends value?
          obtain ⟨x, hx, hxlast⟩ := hends (some value)
          rw [hlast] at hw
          obtain rfl := Option.some.inj hw
          have hx' : ¬ same x value := fun h =>
            hvalue (hsame.trans hwlast (hsame.trans (hsame.symm hxlast) h))
          rw [hx]
          simp [revise, hx']

/-- If something new was said, it does not matter what stood before. -/
theorem revise_of_new {last : ν} (hlast : current line = some last)
    (hnew : sayAll same who values line ≠ line) :
    values.foldl (revise same) (some last) = values.foldl (revise same) none := by
  have key : ∀ (values : List ν) (start : Option ν),
      (start = none ∨ ∃ w, start = some w ∧ same last w) → sayAll same who values line ≠ line →
      values.foldl (revise same) (some last) = values.foldl (revise same) start := by
    intro values
    induction values with
    | nil => intro _ _ h; exact absurd rfl h
    | cons value values ih =>
      intro start hstart h
      obtain ⟨entry, hentry, rfl⟩ := Option.map_eq_some_iff.mp hlast
      by_cases hvalue : same entry.2 value
      · have hsay : say same who line value = line := by simp [say, hentry, hvalue]
        have hstep : revise same (some entry.2) value = some entry.2 := by simp [revise, hvalue]
        rw [List.foldl_cons, hstep, List.foldl_cons]
        refine ih _ (Or.inr ?_) ?_
        · rcases hstart with rfl | ⟨w, rfl, hw⟩
          · exact ⟨value, rfl, hvalue⟩
          · have hwv : same w value := hsame.trans (hsame.symm hw) hvalue
            exact ⟨w, by simp [revise, hwv], hw⟩
        · change sayAll same who values (say same who line value) ≠ line at h
          rwa [hsay] at h
      · have hstep : revise same (some entry.2) value = some value := by simp [revise, hvalue]
        have hstep' : revise same start value = some value := by
          rcases hstart with rfl | ⟨w, rfl, hw⟩
          · rfl
          · have hwv : ¬ same w value := fun h => hvalue (hsame.trans hw h)
            simp [revise, hwv]
        rw [List.foldl_cons, hstep, List.foldl_cons, hstep']
  exact key values none (Or.inl rfl) hnew

/-- `new` says it before and after `old` takes back what he said last: unless
all three, `new`, `old` and the base, have a part in the line, it ends as if
`new` had said it in place of `old`. -/
theorem redo [DecidableEq ι] {old new : ι} (hne : new ≠ old) (hbase : ∀ entry ∈ base, entry.1 ≠ old)
    {part : List (ι × ν)} (hpart : ∀ entry ∈ part, entry.1 = old)
    (hclean : base = [] ∨ part = [] ∨ sayAll same new values (base ++ part) = base ++ part) :
    let redone := sayAll same new values (retract old (sayAll same new values (base ++ part)))
    (∃ more, redone = base ++ more ∧ ∀ entry ∈ more, entry.1 = new) ∧
      current redone = current (sayAll same new values base) := by
  intro redone
  obtain ⟨more, hmore, hnew⟩ := sayAll_eq same new values (base ++ part)
  have hmore' : ∀ entry ∈ more, entry.1 ≠ old := fun entry hentry => (hnew entry hentry).trans_ne hne
  have hback : retract old (sayAll same new values (base ++ part)) = base ++ more := by
    rw [hmore, retract_append, retract_append, retract_of_none hbase, retract_of_all hpart,
      retract_of_none hmore', List.append_nil]
  obtain ⟨again, hagain, hwho⟩ := sayAll_eq same new values (base ++ more)
  have hredone : redone = base ++ (more ++ again) := by
    change sayAll same new values _ = _
    rw [hback, hagain, List.append_assoc]
  refine ⟨⟨more ++ again, hredone, List.forall_mem_append.mpr ⟨hnew, hwho⟩⟩, ?_⟩
  change current (sayAll same new values _) = _
  rw [hback, current_sayAll, current_sayAll]
  rcases hclean with rfl | rfl | hquiet
  · rw [List.nil_append] at hmore ⊢
    cases more with
    | nil => rfl
    | cons entry rest =>
      have hlast : current (entry :: rest) = values.foldl (revise same) (current part) := by
        rw [← current_sayAll new values part, hmore, current, current, List.getLast?_append_cons]
      have hstart : values.foldl (revise same) (current part) =
          values.foldl (revise same) none := by
        cases hcurrent : current part with
        | none => rfl
        | some last =>
          have hchanged : sayAll same new values part ≠ part := by simp [hmore]
          exact revise_of_new hsame hcurrent hchanged
      rw [hlast, revise_twice hsame, hstart]
      rfl
  · rw [List.append_nil] at hmore
    rw [← hmore, current_sayAll, revise_twice hsame]
  · have hnil : more = [] := by
      rw [hquiet] at hmore
      simpa using hmore
    rw [hnil, List.append_nil]

end

end RlmGraph.Lib.Corrections
