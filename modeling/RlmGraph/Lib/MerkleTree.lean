import Mathlib.Data.List.Nodup
import Mathlib.Data.Set.Function

/-! # Trees of digests

Neighbours are joined and hashed, level by level, until one digest is left; a
last odd one is joined with itself. Where the hash tells the joined messages
apart, a level of distinct digests has only one level below it, whatever its
length (`level_inj`), so equal tips stand over equal levels (`eq_of_tips`). -/
namespace RlmGraph.Lib.MerkleTree

variable {β δ : Type} (hash : β → δ) (join : δ → δ → β)

/-- The messages that are hashed to the level above. -/
def pairs : List δ → List β
  | [] => []
  | [a] => [join a a]
  | a :: b :: rest => join a b :: pairs rest

def level (digests : List δ) : List δ := (pairs join digests).map hash

/-- The level so many levels above. -/
def above : Nat → List δ → List δ
  | 0, digests => digests
  | n + 1, digests => above n (level hash join digests)

/-- What is hashed over a level, up to its tip. -/
def Joined (digests : List δ) (message : β) : Prop :=
  ∃ n, 2 ≤ (above hash join n digests).length ∧ message ∈ pairs join (above hash join n digests)

/-- A level over which so many levels end in one digest. -/
structure Tip (n : Nat) (digests : List δ) (tip : δ) : Prop where
  above_eq : above hash join n digests = [tip]
  longer : ∀ m < n, 2 ≤ (above hash join m digests).length

/-- Digests of one form, which a hash has and in which a message determines what is joined. -/
structure Form (Proper : δ → Prop) : Prop where
  hash_proper : ∀ message, Proper (hash message)
  join_inj : ∀ {a b c d}, Proper a → Proper c → join a b = join c d → a = c ∧ b = d

section
variable {hash join} {Proper : δ → Prop} {digests others : List δ} {n m : Nat} {tip : δ} {message : β}

theorem above_succ (n : Nat) (digests : List δ) :
    above hash join (n + 1) digests = level hash join (above hash join n digests) := by
  induction n generalizing digests with
  | zero => rfl
  | succ n ih => exact ih (level hash join digests)

theorem Tip.succ (h : Tip hash join (n + 1) digests tip) : Tip hash join n (level hash join digests) tip where
  above_eq := h.above_eq
  longer m hm := h.longer (m + 1) (Nat.succ_lt_succ hm)

theorem tip_succ (hlonger : 2 ≤ digests.length) (h : Tip hash join n (level hash join digests) tip) :
    Tip hash join (n + 1) digests tip where
  above_eq := h.above_eq
  longer m hm := by
    cases m with
    | zero => exact hlonger
    | succ m => exact h.longer m (Nat.lt_of_succ_lt_succ hm)

theorem Joined.of_level (h : Joined hash join (level hash join digests) message) :
    Joined hash join digests message := by
  obtain ⟨n, hlonger, hmem⟩ := h
  exact ⟨n + 1, hlonger, hmem⟩

theorem joined_of_pairs (hlonger : 2 ≤ digests.length) (h : message ∈ pairs join digests) :
    Joined hash join digests message := ⟨0, hlonger, h⟩

theorem Joined.of_above (h : Joined hash join (above hash join n digests) message) :
    Joined hash join digests message := by
  induction n generalizing digests with
  | zero => exact h
  | succ n ih => exact (ih h).of_level

/-- A joined message starts with one of the digests. -/
theorem exists_join_of_mem (h : message ∈ pairs join digests) :
    ∃ a ∈ digests, ∃ b ∈ digests, message = join a b := by
  induction digests using pairs.induct with
  | case1 => cases h
  | case2 a =>
    obtain rfl := List.mem_singleton.mp h
    exact ⟨a, List.mem_cons_self, a, List.mem_cons_self, rfl⟩
  | case3 a b rest ih =>
    rw [pairs] at h
    obtain rfl | hrest := List.mem_cons.mp h
    · exact ⟨a, List.mem_cons_self, b, List.mem_cons_of_mem a List.mem_cons_self, rfl⟩
    · obtain ⟨c, hc, d, hd, heq⟩ := ih hrest
      exact ⟨c, List.mem_cons_of_mem a (List.mem_cons_of_mem b hc), d,
        List.mem_cons_of_mem a (List.mem_cons_of_mem b hd), heq⟩

theorem proper_level (hform : Form hash join Proper) (digests : List δ) :
    ∀ d ∈ level hash join digests, Proper d := fun d hd => by
  obtain ⟨message, -, rfl⟩ := List.mem_map.mp hd
  exact hform.hash_proper message

/-- Distinct digests are joined to distinct messages. -/
theorem nodup_pairs (hform : Form hash join Proper) (hproper : ∀ d ∈ digests, Proper d)
    (hdigests : digests.Nodup) : (pairs join digests).Nodup := by
  induction digests using pairs.induct with
  | case1 => exact List.nodup_nil
  | case2 a => exact List.nodup_singleton _
  | case3 a b rest ih =>
    obtain ⟨hab, hrest⟩ := List.nodup_cons.mp hdigests
    refine List.nodup_cons.mpr ⟨fun hmem => ?_, ih
      (fun d hd => hproper d (List.mem_cons_of_mem a (List.mem_cons_of_mem b hd)))
      (List.nodup_cons.mp hrest).2⟩
    obtain ⟨c, hc, d, -, heq⟩ := exists_join_of_mem hmem
    have hc' := List.mem_cons_of_mem b hc
    obtain ⟨rfl, -⟩ := hform.join_inj (hproper a List.mem_cons_self)
      (hproper c (List.mem_cons_of_mem a hc')) heq
    exact hab hc'

theorem nodup_level (hform : Form hash join Proper) (hproper : ∀ d ∈ digests, Proper d)
    (hinj : Set.InjOn hash {x | x ∈ pairs join digests}) (hdigests : digests.Nodup) :
    (level hash join digests).Nodup :=
  (List.nodup_map_iff_inj_on (nodup_pairs hform hproper hdigests)).mpr fun _ hx _ hy => hinj hx hy

/-- The messages of distinct digests determine them, an odd last one too. -/
theorem pairs_inj (hform : Form hash join Proper) (hproper : ∀ d ∈ digests, Proper d)
    (hothers : ∀ d ∈ others, Proper d) (hn : digests.Nodup) (hn' : others.Nodup)
    (h : pairs join digests = pairs join others) : digests = others := by
  induction digests using pairs.induct generalizing others with
  | case1 =>
    match others, h with
    | [], _ => rfl
    | [_], h => cases h
    | _ :: _ :: _, h => cases h
  | case2 a =>
    match others, h with
    | [], h => cases h
    | [c], h =>
      rw [pairs, pairs, List.cons.injEq] at h
      rw [(hform.join_inj (hproper a List.mem_cons_self) (hothers c List.mem_cons_self) h.1).1]
    | c :: d :: more, h =>
      -- The digest joined with itself would stand twice in the other level.
      rw [pairs, pairs, List.cons.injEq] at h
      obtain ⟨rfl, rfl⟩ := hform.join_inj (hproper a List.mem_cons_self) (hothers c List.mem_cons_self) h.1
      exact absurd List.mem_cons_self (List.nodup_cons.mp hn').1
  | case3 a b rest ih =>
    match others, h with
    | [], h => cases h
    | [c], h =>
      rw [pairs, pairs, List.cons.injEq] at h
      obtain ⟨rfl, rfl⟩ := hform.join_inj (hproper a List.mem_cons_self) (hothers c List.mem_cons_self) h.1
      exact absurd List.mem_cons_self (List.nodup_cons.mp hn).1
    | c :: d :: more, h =>
      rw [pairs, pairs, List.cons.injEq] at h
      obtain ⟨rfl, rfl⟩ := hform.join_inj (hproper a List.mem_cons_self) (hothers c List.mem_cons_self) h.1
      have hrest := ih (fun d hd => hproper d (List.mem_cons_of_mem a (List.mem_cons_of_mem b hd)))
        (fun d hd => hothers d (List.mem_cons_of_mem a (List.mem_cons_of_mem b hd)))
        (List.nodup_cons.mp (List.nodup_cons.mp hn).2).2
        (List.nodup_cons.mp (List.nodup_cons.mp hn').2).2 h.2
      rw [hrest]

/-- Lists with the same hashes are equal where the hash tells their messages apart. -/
theorem eq_of_map_eq {xs ys : List β} (h : xs.map hash = ys.map hash)
    (hinj : ∀ x ∈ xs, ∀ y ∈ ys, hash x = hash y → x = y) : xs = ys := by
  induction xs generalizing ys with
  | nil => exact (List.map_eq_nil_iff.mp h.symm).symm
  | cons x xs ih =>
    cases ys with
    | nil => cases h
    | cons y ys =>
      obtain ⟨hhead, htail⟩ := List.cons.inj h
      have hxy : x = y := hinj x List.mem_cons_self y List.mem_cons_self hhead
      have hrest : xs = ys := ih htail fun a ha b hb =>
        hinj a (List.mem_cons_of_mem x ha) b (List.mem_cons_of_mem y hb)
      rw [hxy, hrest]

/-- **A level of distinct digests stands over one level only.** -/
theorem level_inj (hform : Form hash join Proper) (hproper : ∀ d ∈ digests, Proper d)
    (hothers : ∀ d ∈ others, Proper d) (hn : digests.Nodup) (hn' : others.Nodup)
    (hinj : Set.InjOn hash {x | x ∈ pairs join digests ∨ x ∈ pairs join others})
    (h : level hash join digests = level hash join others) : digests = others :=
  pairs_inj hform hproper hothers hn hn'
    (eq_of_map_eq h fun _ hx _ hy => hinj (.inl hx) (.inr hy))

/-- Every level over distinct digests is one of distinct digests. -/
theorem above_nodup (hform : Form hash join Proper) (hproper : ∀ d ∈ digests, Proper d)
    (hn : digests.Nodup) (hinj : Set.InjOn hash {x | Joined hash join digests x})
    (hlonger : ∀ k < n, 2 ≤ (above hash join k digests).length) :
    (∀ d ∈ above hash join n digests, Proper d) ∧ (above hash join n digests).Nodup := by
  induction n generalizing digests with
  | zero => exact ⟨hproper, hn⟩
  | succ n ih =>
    have hfirst : 2 ≤ digests.length := hlonger 0 (Nat.succ_pos n)
    refine ih (proper_level hform digests) (nodup_level hform hproper ?_ hn) ?_ ?_
    · exact hinj.mono fun x hx => joined_of_pairs hfirst hx
    · exact hinj.mono fun x hx => hx.of_level
    · exact fun k hk => hlonger (k + 1) (Nat.succ_lt_succ hk)

/-- **Under one tip, the level with fewer levels above it is a level over the other.** -/
theorem eq_of_tips (hform : Form hash join Proper) (hproper : ∀ d ∈ digests, Proper d)
    (hothers : ∀ d ∈ others, Proper d) (hn : digests.Nodup) (hn' : others.Nodup)
    (hinj : Set.InjOn hash {x | Joined hash join digests x ∨ Joined hash join others x})
    (h : Tip hash join n digests tip) (h' : Tip hash join m others tip) (hnm : n ≤ m) :
    digests = above hash join (m - n) others := by
  induction n generalizing digests with
  | zero => exact h.above_eq.trans h'.above_eq.symm
  | succ n ih =>
    have hlonger : 2 ≤ digests.length := h.longer 0 (Nat.succ_pos n)
    have hbelow : 2 ≤ (above hash join (m - (n + 1)) others).length := h'.longer _ (by omega)
    have hlevel := ih (proper_level hform digests)
      (nodup_level hform hproper (hinj.mono fun x hx => .inl (joined_of_pairs hlonger hx)) hn)
      (hinj.mono fun x hx => hx.imp_left Joined.of_level) h.succ (by omega)
    obtain ⟨hproper', hnodup'⟩ := above_nodup (n := m - (n + 1)) hform hothers hn'
      (hinj.mono fun x hx => .inr hx) fun k hk => h'.longer k (by omega)
    refine level_inj hform hproper hproper' hn hnodup' ?_ ?_
    · exact hinj.mono fun x hx => hx.imp (joined_of_pairs hlonger)
        fun hmem => Joined.of_above (joined_of_pairs hbelow hmem)
    · rw [hlevel, ← above_succ]
      congr 1
      omega

end

end RlmGraph.Lib.MerkleTree
