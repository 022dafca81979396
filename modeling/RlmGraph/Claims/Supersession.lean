import RlmGraph.Claims.Progress
import RlmGraph.Lib.Chains

/-! # Chains of replacements

The supersessions of a ledger give each claim at most one replacement. A call
refuses to let a claim supersede itself, and looks no further. As long as no
call names a replacement whose own chain leads back to the claim, every chain
ends in a claim that stands (`replacements_end`). -/
namespace RlmGraph.Claims.Supersession
open RlmGraph.Lib.Rows RlmGraph.Lib.Chains
open RlmGraph.Claims.Ledger RlmGraph.Claims.Integrity RlmGraph.Claims.Records
open RlmGraph.Claims.Histories RlmGraph.Claims.Progress

variable {crypto : Crypto} {disk : Disk} {keys : AuthenticationKeys} {r r' : Registry} {t : Tables}
  {claimId : String}

/-- The claim that the table of supersessions names for another. -/
def replacement? (t : Tables) (claimId : String) : Option String :=
  (t.supersession? claimId).map (·.replacementClaimId)

/-- The call does not name a replacement whose chain leads to the claim itself. -/
def ClosesNoCycle (t : Tables) : LedgerCall → Prop
  | .supersede claimId replacement _ => claimId ≠ replacement →
      t.supersession? claimId = none → ¬ Leads (replacement? t) replacement claimId
  | _ => True

theorem replacement?_represents (h : Represents crypto r t) : replacement? t = r.replacement? :=
  funext fun _ => h.replacement

/-- A supersession is one more link. -/
theorem replacement?_append {s : Supersession} (hnew : r.replacement? s.claimId = none) :
    Registry.replacement? { r with supersessions := r.supersessions ++ [s] } =
      Function.update r.replacement? s.claimId (some s.replacementClaimId) := by
  funext id
  have hnone : r.supersessions.find? (·.claimId == s.claimId) = none :=
    Option.map_eq_none_iff.mp hnew
  by_cases hid : id = s.claimId
  · subst hid
    rw [Function.update_self, Registry.replacement?, find?_append_new hnone (by simp)]
    rfl
  · have hne : (s.claimId == id) = false := by simpa using Ne.symm hid
    rw [Function.update_of_ne hid, Registry.replacement?, List.find?_append,
      List.find?_singleton, hne]
    simp [Registry.replacement?]

/-- **One call** keeps all chains ending. -/
theorem Added.ends {c : LedgerCall} (hadded : Added crypto keys disk r c r')
    (h : Represents crypto r t) (hclear : ClosesNoCycle t c) (hends : Ends r.replacement?) :
    Ends r'.replacement? := by
  cases hadded with
  | statement claim => exact hends
  | evidence evidence path => exact hends
  | envelope claim keyId secret => exact hends
  | supersession claimId replacement reason hne hnew hstored =>
    have hnone : t.supersession? claimId = none := by
      have hmap : (t.supersession? claimId).map (·.replacementClaimId) = none :=
        h.replacement.trans hnew
      exact Option.map_eq_none_iff.mp hmap
    have hback : ¬ Leads r.replacement? replacement claimId := by
      rw [← replacement?_represents h]
      exact hclear hne hnone
    have hupdate := replacement?_append (s := ⟨claimId, replacement, reason⟩) hnew
    rw [hupdate]
    exact hends.update hnew hback

theorem History.ends (h : History crypto ClosesNoCycle t) :
    ∃ r, Represents crypto r t ∧ Registry.Sound crypto r ∧ Ends r.replacement? := by
  induction h with
  | empty => exact ⟨{}, ⟨rfl, rfl, rfl, rfl⟩, sound_empty, fun a => ⟨a, .refl, rfl⟩⟩
  | call _ keys disk c hclear ih =>
    obtain ⟨r, hrep, hs, hends⟩ := ih
    rcases call_represents hrep hs.toValid keys disk c with ht | ⟨r', hadded, hrep'⟩
    · exact ⟨r, by rw [ht]; exact hrep, hs, hends⟩
    · exact ⟨r', hrep', Histories.Added.sound hadded hs, Added.ends hadded hrep hclear hends⟩

/-- A claim that replaces another is stored. -/
theorem replacement_stored (hs : Registry.Sound crypto r) {replacement : String}
    (h : r.replacement? claimId = some replacement) : ∃ claim, r.claim? replacement = some claim := by
  obtain ⟨s, hfound, rfl⟩ := Option.map_eq_some_iff.mp h
  exact Option.isSome_iff_exists.mp (hs.replacements s (List.mem_of_find?_eq_some hfound))

/-- The claim is stored, and no assessment finds it superseded. -/
def Stands (crypto : Crypto) (t : Tables) (claimId : String) : Prop :=
  ∀ keys disk, ∃ a, assess crypto keys disk t claimId = .ok a ∧ a.disposition ≠ .superseded ∧
    a.supersededByClaimId = none

theorem stands_of_replacement (h : Represents crypto r t) (hs : Registry.Sound crypto r)
    {claim : ClaimStatement} (hclaim : r.claim? claimId = some claim)
    (hnone : r.replacement? claimId = none) : Stands crypto t claimId := by
  intro keys disk
  obtain ⟨a, ha, -, hdisposition, -, -, hby, -⟩ :=
    assess_of_represents h hclaim (hs.schemaOf hclaim) keys disk
  obtain rfl : claim.claimId = claimId := by simpa using List.find?_some hclaim
  refine ⟨a, ha, fun hsuperseded => ?_, hby.trans hnone⟩
  have hsome := dispositionOf_superseded.mp (hdisposition.symm.trans hsuperseded)
  rw [hnone] at hsome
  cases hsome

def noKeys : AuthenticationKeys := fun _ => none

/-- **Chains of replacements end.** In a history in which no call names a
replacement whose chain leads back to the claim, no claim comes to replace
itself, and the chain of each superseded claim ends in a stored claim that
nothing supersedes. -/
theorem replacements_end (h : History crypto ClosesNoCycle t) :
    Acyclic (replacement? t) ∧
    ∀ a b, replacement? t a = some b → ∃ e, Leads (replacement? t) a e ∧ Stands crypto t e := by
  obtain ⟨r, hrep, hs, hends⟩ := History.ends h
  rw [replacement?_represents hrep]
  refine ⟨hends.acyclic, fun a b hab => ?_⟩
  obtain ⟨e, hlead, hend⟩ := hends a
  obtain ⟨claim, hclaim⟩ : ∃ claim, r.claim? e = some claim := by
    rcases Relation.ReflTransGen.cases_tail hlead with heq | ⟨c, -, hnext⟩
    · subst heq
      rw [hab] at hend
      cases hend
    · exact replacement_stored hs hnext
  exact ⟨e, hlead, stands_of_replacement hrep hs hclaim hend⟩

theorem distinct_names : Distinct ["A", "B"] := by
  unfold Distinct
  decide

/-- Two claims. -/
def proposed : Tables :=
  runCalls marking noKeys emptyDisk [.propose (statement "A"), .propose (statement "B")] {}

theorem proposed_ready :
    Ready ["A", "B"] emptyDisk ⟨[statement "A", statement "B"], [], [], []⟩ proposed 2 := by
  have hA : validateClaim (statement "A") = .ok (statement "A") := validateClaim_statement rfl
  have hB : validateClaim (statement "B") = .ok (statement "B") := validateClaim_statement rfl
  have h₁ := propose_ready (ready_empty ["A", "B"] emptyDisk) distinct_names (by omega) noKeys hA rfl
    (by simp [statement])
  have h₂ := propose_ready h₁ distinct_names (by omega) noKeys hB rfl (by simp [statement])
  rw [proposed, runCalls_cons, runCalls_cons, runCalls_nil]
  exact h₂

theorem proposed_history : History marking ClosesNoCycle proposed := by
  rw [proposed, runCalls_cons, runCalls_cons, runCalls_nil]
  exact (History.empty.call noKeys emptyDisk _ trivial).call noKeys emptyDisk _ trivial

/-- The first claim superseded by the second. -/
def merged : Tables := runCalls marking noKeys emptyDisk [.supersede "A" "B" "merged"] proposed

theorem merged_ready : Ready ["A", "B"] emptyDisk
    ⟨[statement "A", statement "B"], [], [⟨"A", "B", "merged"⟩], []⟩ merged 3 := by
  have hA : Registry.claim? ⟨[statement "A", statement "B"], [], [], []⟩ "A" = some (statement "A") := rfl
  have hB : Registry.claim? ⟨[statement "A", statement "B"], [], [], []⟩ "B" = some (statement "B") := rfl
  have hreason : requireText "merged" "supersession reason" = .ok () := rfl
  have h := supersede_ready proposed_ready distinct_names (by omega) noKeys hreason (by simp) hA hB rfl
    (by simp)
  rw [merged, runCalls_cons, runCalls_nil]
  exact h

theorem merged_history : History marking ClosesNoCycle merged := by
  rw [merged, runCalls_cons, runCalls_nil]
  refine proposed_history.call noKeys emptyDisk _ ?_
  intro hne _ hlead
  rw [replacement?_represents proposed_ready.represents] at hlead
  exact hne (hlead.eq_of_end rfl)

theorem replacements_end_merged : Acyclic (replacement? merged) :=
  (replacements_end merged_history).1

/-- The second claim superseded by the first in turn. -/
def circular : Tables := runCalls marking noKeys emptyDisk [.supersede "B" "A" "split"] merged

theorem circular_ready : Ready ["A", "B"] emptyDisk
    ⟨[statement "A", statement "B"], [], [⟨"A", "B", "merged"⟩, ⟨"B", "A", "split"⟩], []⟩
    circular 4 := by
  have hA : Registry.claim? ⟨[statement "A", statement "B"], [], [⟨"A", "B", "merged"⟩], []⟩ "A" =
      some (statement "A") := rfl
  have hB : Registry.claim? ⟨[statement "A", statement "B"], [], [⟨"A", "B", "merged"⟩], []⟩ "B" =
      some (statement "B") := rfl
  have hreason : requireText "split" "supersession reason" = .ok () := rfl
  have h := supersede_ready merged_ready distinct_names (by omega) noKeys hreason (by simp) hB hA rfl
    (by simp)
  rw [circular, runCalls_cons, runCalls_nil]
  exact h

/-- **A cycle.** Two calls, and no claim of the two stands. -/
theorem replacements_circular : Reachable marking circular ∧
    ¬ Acyclic (replacement? circular) ∧ ¬ Ends (replacement? circular) := by
  have hreplacement := replacement?_represents circular_ready.represents
  have hA : replacement? circular "A" = some "B" := by rw [hreplacement]; rfl
  have hB : replacement? circular "B" = some "A" := by rw [hreplacement]; rfl
  have hcycle : ¬ Acyclic (replacement? circular) :=
    fun hacyclic => hacyclic "A" (.tail (.single hA) hB)
  have hreachable : Reachable marking circular := by
    rw [circular, runCalls_cons, runCalls_nil]
    exact merged_history.reachable.call noKeys emptyDisk _ trivial
  exact ⟨hreachable, hcycle, fun hends => hcycle hends.acyclic⟩

end RlmGraph.Claims.Supersession
