import Mathlib.Data.Prod.Lex
import Mathlib.Data.String.Basic
import RlmGraph.Claims.Integrity
import RlmGraph.Claims.Progress
import RlmGraph.Lib.MerkleTree

/-! # What an evidence root identifies

The root of an assessment is the tip of a tree of digests over the records of
the eligible evidence, in their order. A record's text is longer than two
digests, so no leaf is an inner node, and the leaves are distinct, so a last one
that is joined with itself is not taken for two: equal roots are of the same
records, unless two of the hashed texts have one digest
(`merkleRoot_identifies`). -/
namespace RlmGraph.Claims.EvidenceRoot
open RlmGraph.Lib RlmGraph.Lib.JsonText RlmGraph.Lib.MerkleTree
open RlmGraph.Claims.Ledger RlmGraph.Claims.Progress

/-- The text of a leaf. -/
def leafBytes (record : String × String) : Bytes :=
  utf8 (canonicalJson (.obj [("id", .str record.1), ("payload_sha256", .str record.2)]))

def joinBytes (a b : Bytes) : Bytes := a ++ b

def leaves (crypto : Crypto) (records : List (String × String)) : List Bytes :=
  (records.mergeSort recordLE).map (merkleLeaf crypto)

/-- The byte strings that are hashed for the root of some records. -/
inductive Hashed (crypto : Crypto) (records : List (String × String)) : Bytes → Prop
  | empty (h : records = []) : Hashed crypto records []
  | leaf {record : String × String} (h : record ∈ records) : Hashed crypto records (leafBytes record)
  | node {bytes : Bytes} (h : Joined crypto.sha256 joinBytes (leaves crypto records) bytes) :
      Hashed crypto records bytes

/-- A digest of the size of SHA-256. -/
def Digest (bytes : Bytes) : Prop := bytes.length = 32

section
variable {crypto : Crypto} {records others : List (String × String)} {record other : String × String}
  {bytes : Bytes}

/-! ## Leaves -/

theorem utf8_ofList (chars : List Char) : utf8 (String.ofList chars) = chars.flatMap String.utf8EncodeChar := by
  rw [utf8, String.toByteArray_ofList, List.utf8Encode]
  simp

theorem length_le_utf8 (text : String) : text.toList.length ≤ (utf8 text).length := by
  have hcount : ∀ chars : List Char,
      chars.length ≤ (chars.flatMap String.utf8EncodeChar).length := fun chars => by
    induction chars with
    | nil => exact le_rfl
    | cons c chars ih =>
      have hpos := c.utf8Size_pos
      rw [List.flatMap_cons, List.length_append, String.length_utf8EncodeChar, List.length_cons]
      omega
  have h := hcount text.toList
  rwa [← utf8_ofList, String.ofList_toList] at h

theorem length_le_quoted (chars : List Char) : chars.length ≤ (quoted false chars).length := by
  have hescape : chars.length ≤ (chars.flatMap (escapeChar false)).length := by
    induction chars with
    | nil => exact le_rfl
    | cons c chars ih =>
      obtain ⟨d, ds, hc, -⟩ := escapeChar_cons false c
      rw [List.flatMap_cons, List.length_append, hc]
      simp only [List.length_cons]
      omega
  rw [quoted, List.length_cons, List.length_append]
  omega

theorem canon_leaf (record : String × String) :
    canon (.obj [("id", .str record.1), ("payload_sha256", .str record.2)]) =
      .obj [("id", .str record.1), ("payload_sha256", .str record.2)] := by
  simp [canon, canonFields]

theorem leafBytes_inj (h : leafBytes record = leafBytes other) : record = other := by
  have htext := utf8_inj.mp h
  have hcanon := dumps_inj.mp htext
  rw [canon_leaf, canon_leaf] at hcanon
  injection hcanon with hfields
  injection hfields with hid hrest
  injection hrest with hpayload _
  injection (Prod.mk.inj hid).2 with hfirst
  injection (Prod.mk.inj hpayload).2 with hsecond
  exact Prod.ext hfirst hsecond

theorem leafBytes_ne_nil (record : String × String) : leafBytes record ≠ [] := by
  have htext : 0 < (canonicalJson (.obj [("id", .str record.1), ("payload_sha256", .str record.2)])).toList.length := by
    rw [canonicalJson, dumps, String.toList_ofList, canon_leaf]
    simp [print]
  exact List.ne_nil_of_length_pos (htext.trans_le (length_le_utf8 _))

/-- A leaf's text is longer than two digests. -/
theorem length_leafBytes (h : record.2.toList.length = 64) : 64 < (leafBytes record).length := by
  have htext : 64 < (canonicalJson (.obj [("id", .str record.1), ("payload_sha256", .str record.2)])).toList.length := by
    have hquoted := length_le_quoted record.2.toList
    rw [canonicalJson, dumps, String.toList_ofList, canon_leaf]
    simp only [print, printFields, List.length_cons, List.length_append]
    omega
  exact htext.trans_le (length_le_utf8 _)

/-! ## The tree -/

/-- The digests of a hash that has the size of SHA-256. -/
theorem digestForm (hsize : ∀ bytes, Digest (crypto.sha256 bytes)) :
    Form crypto.sha256 joinBytes Digest where
  hash_proper := hsize
  join_inj ha hc h := List.append_inj h (ha.trans hc.symm)

theorem merkleLevel_eq (digests : List Bytes) :
    merkleLevel crypto digests = level crypto.sha256 joinBytes digests := by
  induction digests using merkleLevel.induct with
  | case1 => rfl
  | case2 leaf => rfl
  | case3 a b rest ih =>
    rw [merkleLevel, ih]
    rfl

theorem exists_tip (crypto : Crypto) (digests : List Bytes) (h : digests ≠ []) :
    ∃ n, Tip crypto.sha256 joinBytes n digests (merkleFold crypto digests) := by
  induction digests using merkleFold.induct crypto with
  | case1 => exact absurd rfl h
  | case2 leaf =>
    refine ⟨0, ?_, fun m hm => absurd hm (Nat.not_lt_zero m)⟩
    rw [merkleFold]
    rfl
  | case3 a b rest ih =>
    have hlonger : 2 ≤ (a :: b :: rest).length := by simp
    obtain ⟨n, htip⟩ := ih (by simp [merkleLevel])
    refine ⟨n + 1, tip_succ hlonger ?_⟩
    rw [merkleFold, ← merkleLevel_eq]
    exact htip

theorem mem_sorted : record ∈ records.mergeSort recordLE ↔ record ∈ records :=
  (List.mergeSort_perm records recordLE).mem_iff

theorem leaves_eq_nil : leaves crypto records = [] ↔ records = [] := by
  rw [leaves, List.map_eq_nil_iff]
  exact ⟨fun h => List.perm_nil.mp (h ▸ (List.mergeSort_perm records recordLE).symm),
    fun h => h ▸ List.perm_nil.mp (List.mergeSort_perm [] recordLE)⟩

theorem proper_leaves (hsize : ∀ bytes, Digest (crypto.sha256 bytes)) :
    ∀ d ∈ leaves crypto records, Digest d := fun d hd => by
  obtain ⟨record, -, rfl⟩ := List.mem_map.mp hd
  exact hsize (leafBytes record)

/-- Leaves of distinct records are distinct where the hash tells their texts apart. -/
theorem nodup_leaves (hids : (records.map Prod.fst).Nodup)
    (hinj : Set.InjOn crypto.sha256 {x | Hashed crypto records x}) : (leaves crypto records).Nodup := by
  have hsorted : (records.mergeSort recordLE).Nodup :=
    (List.mergeSort_perm records recordLE).nodup_iff.mpr (List.Nodup.of_map _ hids)
  refine (List.nodup_map_iff_inj_on hsorted).mpr fun a ha b hb heq => leafBytes_inj ?_
  exact hinj (.leaf (mem_sorted.mp ha)) (.leaf (mem_sorted.mp hb)) heq

/-- A joined message has the size of two digests. -/
theorem length_joined {digests : List Bytes}
    (hproper : ∀ d ∈ digests, Digest d) (h : bytes ∈ pairs joinBytes digests) : bytes.length = 64 := by
  obtain ⟨a, ha, b, hb, rfl⟩ := exists_join_of_mem h
  have hlength : (a ++ b).length = 32 + 32 := by
    rw [List.length_append, hproper a ha, hproper b hb]
  exact hlength

theorem proper_above (hsize : ∀ bytes, Digest (crypto.sha256 bytes)) (n : Nat) :
    ∀ d ∈ above crypto.sha256 joinBytes n (leaves crypto records), Digest d := by
  cases n with
  | zero => exact proper_leaves hsize
  | succ n =>
    rw [above_succ]
    exact proper_level (digestForm hsize) _

/-- The tip over some records is the digest of a text that is hashed, and that is not empty. -/
theorem exists_hashed_tip (hsize : ∀ bytes, Digest (crypto.sha256 bytes)) (h : records ≠ []) :
    ∃ x, Hashed crypto records x ∧ x ≠ [] ∧ merkleFold crypto (leaves crypto records) = crypto.sha256 x := by
  obtain ⟨n, htip⟩ := exists_tip crypto (leaves crypto records) (mt leaves_eq_nil.mp h)
  cases n with
  | zero =>
    have hmem : merkleFold crypto (leaves crypto records) ∈ leaves crypto records := by
      have habove : leaves crypto records = [merkleFold crypto (leaves crypto records)] := htip.above_eq
      rw [habove]
      exact List.mem_singleton.mpr (by rw [← habove])
    obtain ⟨record, hrecord, heq⟩ := List.mem_map.mp hmem
    refine ⟨leafBytes record, .leaf (mem_sorted.mp hrecord), fun hempty => ?_, heq.symm⟩
    exact leafBytes_ne_nil record hempty
  | succ n =>
    have habove := htip.above_eq
    rw [above_succ] at habove
    have hmem : merkleFold crypto (leaves crypto records) ∈
        level crypto.sha256 joinBytes (above crypto.sha256 joinBytes n (leaves crypto records)) := by
      rw [habove]
      exact List.mem_singleton.mpr rfl
    obtain ⟨x, hx, heq⟩ := List.mem_map.mp hmem
    have hlonger := htip.longer n (Nat.lt_succ_self n)
    refine ⟨x, .node ⟨n, hlonger, hx⟩, fun hempty => ?_, heq.symm⟩
    have hlength := length_joined (proper_above hsize n) hx
    rw [hempty] at hlength
    cases hlength

/-! ## Roots -/

theorem recordLE_iff : recordLE record other = true ↔ toLex record ≤ toLex other := by
  rw [recordLE, decide_eq_true_eq, Prod.Lex.toLex_le_toLex]

/-- A root is of the records, not of their order. -/
theorem merkleRoot_perm (crypto : Crypto) (h : records.Perm others) :
    merkleRoot crypto records = merkleRoot crypto others := by
  have htrans : ∀ a b c, recordLE a b = true → recordLE b c = true → recordLE a c = true :=
    fun a b c hab hbc => recordLE_iff.mpr ((recordLE_iff.mp hab).trans (recordLE_iff.mp hbc))
  have htotal : ∀ a b, (recordLE a b || recordLE b a) = true := fun a b =>
    Bool.or_eq_true_iff.mpr
      ((le_total (toLex a) (toLex b)).imp recordLE_iff.mpr recordLE_iff.mpr)
  have hsorted : ∀ l : List (String × String),
      (l.mergeSort recordLE).Pairwise fun a b => recordLE a b = true :=
    List.pairwise_mergeSort htrans htotal
  have hperm : (records.mergeSort recordLE).Perm (others.mergeSort recordLE) :=
    (List.mergeSort_perm records recordLE).trans (h.trans (List.mergeSort_perm others recordLE).symm)
  have hsame : records.mergeSort recordLE = others.mergeSort recordLE :=
    hperm.eq_of_pairwise (fun a b _ _ hab hba =>
      toLex.injective (le_antisymm (recordLE_iff.mp hab) (recordLE_iff.mp hba)))
      (hsorted records) (hsorted others)
  rw [merkleRoot, merkleRoot, hsame]

/-- With a hash that tells the hashed texts apart, the tips over two lists of records are
equal only if the leaves are. -/
theorem leaves_eq_of_tips (hsize : ∀ bytes, Digest (crypto.sha256 bytes))
    (hids : (records.map Prod.fst).Nodup) (hids' : (others.map Prod.fst).Nodup)
    (hpayloads : ∀ record ∈ records, record.2.toList.length = 64)
    (hinj : Set.InjOn crypto.sha256 {x | Hashed crypto records x ∨ Hashed crypto others x})
    (hne : records ≠ []) {n m : Nat} {tip : Bytes}
    (h : Tip crypto.sha256 joinBytes n (leaves crypto records) tip)
    (h' : Tip crypto.sha256 joinBytes m (leaves crypto others) tip) (hnm : n ≤ m) :
    leaves crypto records = leaves crypto others := by
  have hlevel := eq_of_tips (digestForm hsize) (proper_leaves hsize) (proper_leaves hsize)
    (nodup_leaves hids (hinj.mono fun x hx => .inl hx))
    (nodup_leaves hids' (hinj.mono fun x hx => .inr hx))
    (hinj.mono fun x hx => hx.imp .node .node) h h' hnm
  cases hk : m - n with
  | zero =>
    rw [hk] at hlevel
    exact hlevel
  | succ k =>
    -- The leaves of the smaller tree would be nodes of the larger one.
    rw [hk, above_succ] at hlevel
    obtain ⟨record, hrecord⟩ := List.exists_mem_of_ne_nil records hne
    have hmem : crypto.sha256 (leafBytes record) ∈ leaves crypto records :=
      List.mem_map.mpr ⟨record, mem_sorted.mpr hrecord, rfl⟩
    rw [hlevel] at hmem
    obtain ⟨x, hx, heq⟩ := List.mem_map.mp hmem
    have hlonger := h'.longer k (by omega)
    have hsame : x = leafBytes record :=
      hinj (.inr (.node ⟨k, hlonger, hx⟩)) (.inl (.leaf hrecord)) heq
    have hnode := length_joined (proper_above hsize k) hx
    have hleaf := length_leafBytes (hpayloads record hrecord)
    rw [hsame] at hnode
    omega

/-- Equal leaves are those of the same records. -/
theorem perm_of_leaves (hinj : Set.InjOn crypto.sha256 {x | Hashed crypto records x ∨ Hashed crypto others x})
    (h : leaves crypto records = leaves crypto others) : records.Perm others := by
  have hsorted : records.mergeSort recordLE = others.mergeSort recordLE := by
    have hmap : (records.mergeSort recordLE).map (merkleLeaf crypto) =
        (others.mergeSort recordLE).map (merkleLeaf crypto) := h
    refine eq_of_map_eq hmap fun a ha b hb heq => leafBytes_inj ?_
    exact hinj (.inl (.leaf (mem_sorted.mp ha))) (.inr (.leaf (mem_sorted.mp hb))) heq
  have hperm := (List.mergeSort_perm records recordLE).symm
  rw [hsorted] at hperm
  exact hperm.trans (List.mergeSort_perm others recordLE)

/-- Equal roots are of the same records where the hash tells the hashed texts apart. -/
theorem perm_of_root (hsize : ∀ bytes, Digest (crypto.sha256 bytes))
    (hids : (records.map Prod.fst).Nodup) (hids' : (others.map Prod.fst).Nodup)
    (hpayloads : ∀ record ∈ records, record.2.toList.length = 64)
    (hpayloads' : ∀ record ∈ others, record.2.toList.length = 64)
    (hinj : Set.InjOn crypto.sha256 {x | Hashed crypto records x ∨ Hashed crypto others x})
    (h : merkleFold crypto (leaves crypto records) = merkleFold crypto (leaves crypto others)) :
    records.Perm others := by
  have hempty : merkleFold crypto [] = crypto.sha256 [] := by rw [merkleFold]
  by_cases hne : records = []
  · by_cases hne' : others = []
    · rw [hne, hne']
    · obtain ⟨x, hx, hxne, hroot⟩ := exists_hashed_tip hsize hne'
      rw [leaves_eq_nil.mpr hne, hempty, hroot] at h
      exact absurd (hinj (.inl (.empty hne)) (.inr hx) h).symm hxne
  · by_cases hne' : others = []
    · obtain ⟨x, hx, hxne, hroot⟩ := exists_hashed_tip hsize hne
      rw [leaves_eq_nil.mpr hne', hempty, hroot] at h
      exact absurd (hinj (.inl hx) (.inr (.empty hne')) h) hxne
    · obtain ⟨n, htip⟩ := exists_tip crypto (leaves crypto records) (mt leaves_eq_nil.mp hne)
      obtain ⟨m, htip'⟩ := exists_tip crypto (leaves crypto others) (mt leaves_eq_nil.mp hne')
      rw [← h] at htip'
      refine perm_of_leaves hinj ?_
      obtain hnm | hmn := Nat.le_total n m
      · exact leaves_eq_of_tips hsize hids hids' hpayloads hinj hne htip htip' hnm
      · exact (leaves_eq_of_tips hsize hids' hids hpayloads' (hinj.mono fun x hx => hx.symm) hne'
          htip' htip hmn).symm

/-- **An evidence root identifies the evidence, or two hashed texts have one digest.** -/
theorem merkleRoot_identifies (crypto : Crypto) (records others : List (String × String))
    (hsize : ∀ bytes, (crypto.sha256 bytes).length = 32)
    (hids : (records.map Prod.fst).Nodup) (hids' : (others.map Prod.fst).Nodup)
    (hpayloads : ∀ record ∈ records ++ others, ∃ payload, record.2 = crypto.sha256Bytes payload)
    (h : merkleRoot crypto records = merkleRoot crypto others) :
    records.Perm others ∨ ∃ x y, (Hashed crypto records x ∨ Hashed crypto others x) ∧
      (Hashed crypto records y ∨ Hashed crypto others y) ∧ x ≠ y ∧ crypto.sha256 x = crypto.sha256 y := by
  by_cases hinj : Set.InjOn crypto.sha256 {x | Hashed crypto records x ∨ Hashed crypto others x}
  · have hdigits : ∀ record ∈ records ++ others, record.2.toList.length = 64 := fun record hrecord => by
      obtain ⟨payload, heq⟩ := hpayloads record hrecord
      rw [heq, Crypto.sha256Bytes, hexdigest_toList, length_flatMap_hexChars, hsize]
    exact .inl (perm_of_root hsize hids hids' (fun record hrecord => hdigits record (List.mem_append_left _ hrecord))
      (fun record hrecord => hdigits record (List.mem_append_right _ hrecord)) hinj (hexdigest_inj h))
  · simp only [Set.InjOn, Set.mem_ofPred_eq, not_forall] at hinj
    obtain ⟨x, hx, y, hy, heq, hne⟩ := hinj
    exact .inr ⟨x, y, hx, hy, hne, heq⟩

end

/-- Three records: the third leaf is joined with itself, below the tip. -/
def threeRecords : List (String × String) :=
  [("E-1", Integrity.checksum.sha256Bytes [1]), ("E-2", Integrity.checksum.sha256Bytes [2]),
    ("E-3", Integrity.checksum.sha256Bytes [3])]

/-- The same records in another order. -/
def turnedRecords : List (String × String) :=
  [("E-3", Integrity.checksum.sha256Bytes [3]), ("E-1", Integrity.checksum.sha256Bytes [1]),
    ("E-2", Integrity.checksum.sha256Bytes [2])]

theorem threeRecords_perm : threeRecords.Perm turnedRecords := by decide +kernel

theorem merkleRoot_identifies_turned :
    merkleRoot Integrity.checksum threeRecords = merkleRoot Integrity.checksum turnedRecords ∧
      (threeRecords.Perm turnedRecords ∨
        ∃ x y, (Hashed Integrity.checksum threeRecords x ∨ Hashed Integrity.checksum turnedRecords x) ∧
          (Hashed Integrity.checksum threeRecords y ∨ Hashed Integrity.checksum turnedRecords y) ∧
          x ≠ y ∧ Integrity.checksum.sha256 x = Integrity.checksum.sha256 y) := by
  have hroot := merkleRoot_perm Integrity.checksum threeRecords_perm
  refine ⟨hroot, merkleRoot_identifies Integrity.checksum threeRecords turnedRecords
    (fun _ => List.length_replicate) (by decide) (by decide) ?_ hroot⟩
  intro record hrecord
  simp only [threeRecords, turnedRecords, List.cons_append, List.nil_append, List.mem_cons,
    List.not_mem_nil, or_false] at hrecord
  rcases hrecord with rfl | rfl | rfl | rfl | rfl | rfl <;> exact ⟨_, rfl⟩

end RlmGraph.Claims.EvidenceRoot
