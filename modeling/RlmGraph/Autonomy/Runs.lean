import RlmGraph.Autonomy.Calls
import RlmGraph.Autonomy.Execution

/-! # Runs of autonomous work

A session is used while inquiries are executed in the background. Each thread is
followed by its phase: the row of its inquiry, which nobody else writes, the
identifiers it has drawn, and whether its outcome is stored. In every run of
calls and threads the bounds of autonomy hold (`bounded_of_run`). -/
namespace RlmGraph.Autonomy.Runs
open RlmGraph.Lib RlmGraph.Lib.Rows RlmGraph.Lib.Programs RlmGraph.Autonomy.Records
open RlmGraph.Autonomy.Deliberation RlmGraph.Autonomy.Preparation RlmGraph.Autonomy.Bounds
open RlmGraph.Autonomy.Calls RlmGraph.Autonomy.Execution

/-! ## One thread -/

structure Phase where
  /-- The row of the inquiry. -/
  stored : AutonomousInquiry
  /-- The identifiers the thread has drawn. -/
  mine : List String := []
  /-- Whether the outcome is stored. -/
  concluded : Bool := false

namespace Phase

def Saves (p : Phase) : Row → Prop
  | .inquiry i => Version p.stored i ∧ (i.status.active = true → p.stored.status.active = true)
  | .decision d => d.id = p.stored.decisionId ∧ d.sessionId = p.stored.sessionId
  | .outcome o => p.concluded = false ∧ o.id ∈ p.mine ∧ p.stored.id = o.inquiryId ∧
      p.stored.sessionId = o.sessionId ∧ p.stored.branchId = o.branchId
  | _ => False

def saved (p : Phase) : Row → Phase
  | .inquiry i => { p with stored := i }
  | .outcome _ => { p with concluded := true }
  | _ => p

def Asks (p : Phase) : ThreadOp → Prop
  | .inl (.save row) => p.Saves row
  | _ => True

/-- What the thread finds of its own inquiry is what it has stored. -/
def Knows (p : Phase) (tables : Tables) : Prop :=
  ∀ i ∈ tables.inquiries, i.id = p.stored.id → i = p.stored

def Hears (p : Phase) : (op : ThreadOp) → ThreadReply op → Prop
  | .inl .read, r => ∀ tables, r = .ok tables → p.Knows tables
  | _, _ => True

def moves (p : Phase) : (op : ThreadOp) → ThreadReply op → Phase
  | .inl .newId, id => { p with mine := id :: p.mine }
  | .inl (.save row), .ok () => p.saved row
  | _, _ => p

end Phase

/-- A thread by its phases, for all replies that agree with them. -/
def inquirer : OpSpec ThreadOp ThreadReply Phase where
  holds op p K := p.Asks op ∧ ∀ r, p.Hears op r → K r (p.moves op r)
  mono hK h := ⟨h.1, fun r hr => hK r _ (h.2 r hr)⟩

/-- The same for the operations on the store. -/
def asking : OpSpec Op Reply Phase := inquirer.left

section Rules
variable {L β : Type} {Q : Except PyError β → L → Phase → Prop} {l : L} {p : Phase}

theorem ask_newId {f : String → Act Op Reply L PyError β}
    (h : ∀ id, (f id).wp asking Q l { p with mine := id :: p.mine }) :
    (newId >>= f).wp asking Q l p :=
  Act.wp_op ⟨trivial, fun id _ => h id⟩

theorem ask_now {f : Nat → Act Op Reply L PyError β} (h : ∀ n, (f n).wp asking Q l p) :
    (now >>= f).wp asking Q l p :=
  Act.wp_op ⟨trivial, fun n _ => h n⟩

theorem ask_read {f : Tables → Act Op Reply L PyError β}
    (hok : ∀ tables, p.Knows tables → (f tables).wp asking Q l p)
    (herror : ∀ e, Q (.error e) l p) : (Records.read >>= f).wp asking Q l p := by
  unfold Records.read
  simp only [Act.wp_bind, Act.wp_perform]
  refine ⟨trivial, fun r hr => ?_⟩
  cases r with
  | error e => exact herror e
  | ok tables => exact hok tables (hr tables rfl)

theorem save_asks {row : Row} {Q : Except PyError Unit → L → Phase → Prop} (hsaves : p.Saves row)
    (hok : Q (.ok ()) l (p.saved row)) (herror : ∀ e, Q (.error e) l p) :
    (save row).wp asking Q l p := by
  unfold save
  simp only [Act.wp_bind, Act.wp_perform]
  refine ⟨hsaves, fun r _ => ?_⟩
  cases r with
  | error e => exact herror e
  | ok u => exact hok

theorem ask_save {row : Row} {f : Unit → Act Op Reply L PyError β} (hsaves : p.Saves row)
    (hok : (f ()).wp asking Q l (p.saved row)) (herror : ∀ e, Q (.error e) l p) :
    (save row >>= f).wp asking Q l p := by
  rw [Act.wp_bind]
  exact save_asks hsaves hok herror

theorem ask_callOut {c : Call} {f : Answer → Act Op Reply L PyError β}
    (hok : ∀ answer, (f answer).wp asking Q l p) (herror : ∀ e, Q (.error e) l p) :
    (callOut c >>= f).wp asking Q l p := by
  unfold callOut
  simp only [Act.wp_bind, Act.wp_perform]
  refine ⟨trivial, fun r _ => ?_⟩
  cases r with
  | error e => exact herror e
  | ok answer => exact hok answer

theorem ask_first {α : Type} {c : α → Bool} {items : List α} {f : α → Act Op Reply L PyError β}
    (hok : ∀ item ∈ items, c item = true → (f item).wp asking Q l p)
    (herror : ∀ e, Q (.error e) l p) : (Act.ofExcept (first c items) >>= f).wp asking Q l p := by
  refine Act.wp_result (fun item hitem => ?_) fun e _ => herror e
  obtain ⟨hmem, hc⟩ := first_ok hitem
  exact hok item hmem hc

end Rules

/-- The local inquiry of a thread is a version of its row. -/
def Holding (l : Local) (p : Phase) : Prop := ∀ i, l = some i → Version p.stored i

section Thread
variable {l : Local} {p : Phase}

theorem holding_some {i : AutonomousInquiry} (h : Version p.stored i) : Holding (some i) p := by
  intro j hj
  cases hj
  exact h

theorem findInquiry_asks (sessions : List String) :
    (findInquiry p.stored.id sessions).wp asking (fun r l' p' => p' = p ∧ l' = l ∧
      ∀ i, r = .ok i → i = p.stored) l p := by
  induction sessions with
  | nil => exact ⟨rfl, rfl, fun i hi => by cases hi⟩
  | cons sessionId others ih =>
    refine ask_read (fun tables hknows => ?_) fun e => ⟨rfl, rfl, fun i hi => by cases hi⟩
    split
    · next inquiry hfound =>
      refine ⟨rfl, rfl, fun i hi => ?_⟩
      cases hi
      have hid := List.find?_some hfound
      exact hknows inquiry (List.mem_filter.mp (List.mem_of_find?_eq_some hfound)).1 (beq_iff_eq.mp hid)
    · exact ih

/-- A failure is written over the row of the inquiry. -/
theorem fail_asks {inquiry : AutonomousInquiry} (h : Version p.stored inquiry) (reason : String) :
    (fail inquiry reason).wp asking (fun _ _ _ => True) l p := by
  refine Act.wp_set (ask_save ⟨⟨h.ident, h.session, h.decision, h.branch⟩, fun hactive => by cases hactive⟩
    ?_ fun _ => trivial)
  refine ask_read (fun tables _ => ?_) fun _ => trivial
  refine ask_first (fun decision hdecision hid => ?_) fun _ => trivial
  refine save_asks ⟨beq_iff_eq.mp hid, ?_⟩ trivial fun _ => trivial
  exact beq_iff_eq.mp (List.mem_filter.mp hdecision).2

/-- The outcome is stored once, under an identifier of the thread. -/
theorem complete_asks {result : WorkResult} (hnone : p.concluded = false) :
    (complete p.stored result).wp asking (fun _ l' p' => Holding l' p') (some p.stored) p := by
  refine ask_newId fun id => ask_now fun createdAt => Act.wp_set ?_
  have hself : ∀ status result, Version p.stored { p.stored with status := status, workResultId := result } :=
    fun _ _ => ⟨rfl, rfl, rfl, rfl⟩
  refine ask_save ⟨hself _ _, fun hactive => by cases hactive⟩ ?_ fun e => holding_some (hself _ _)
  refine ask_read (fun tables _ => ?_) fun e => holding_some (Version.refl _)
  refine ask_first (fun decision hdecision hid => ?_) fun e => holding_some (Version.refl _)
  refine ask_save ⟨beq_iff_eq.mp hid, ?_⟩ ?_ fun e => holding_some (Version.refl _)
  · exact beq_iff_eq.mp (List.mem_filter.mp hdecision).2
  · refine ask_save ⟨hnone, List.mem_cons_self, rfl, rfl, rfl⟩ ?_ fun e => holding_some (Version.refl _)
    exact holding_some (Version.refl _)

theorem conclude_asks (hnone : p.concluded = false) (requestId : String) :
    (conclude p.stored requestId).wp asking (fun _ l' p' => Holding l' p') (some p.stored) p := by
  refine ask_callOut (fun _ => ask_callOut (fun response => ?_) fun _ => ?_) fun _ => ?_
  · refine Act.wp_seq (complete_asks hnone) (fun _ l' p' h => ?_) fun _ _ _ h => h
    refine Act.wp_seq (R := fun _ l'' p'' => Holding l'' p'') ?_ (fun _ _ _ h => h) fun _ _ _ h => h
    exact ask_read (fun _ _ => h) fun _ => h
  · exact holding_some (Version.refl _)
  · exact holding_some (Version.refl _)

theorem investigate_asks (hactive : p.stored.status.active = true) (hnone : p.concluded = false) :
    (investigate p.stored.id).wp asking (fun _ l' p' => Holding l' p') none p := by
  have hempty : Holding none p := fun i hi => by cases hi
  have hself : Holding (some p.stored) p := holding_some (Version.refl _)
  refine ask_callOut (fun listed => ?_) fun _ => hempty
  refine Act.wp_seq (findInquiry_asks listed.sessions) (fun inquiry l' p' h => ?_)
    fun e l' p' h => ?_
  · obtain ⟨rfl, rfl, hfound⟩ := h
    obtain rfl := hfound inquiry rfl
    refine Act.wp_set (ask_read (fun known _ => ?_) fun _ => hself)
    refine ask_first (fun _ _ _ => ?_) fun _ => hself
    refine ask_callOut (fun _ => ask_callOut (fun _ => ask_callOut (fun request => ?_) fun _ => hself)
      fun _ => hself) fun _ => hself
    refine Act.wp_set (ask_save ⟨⟨rfl, rfl, rfl, rfl⟩, fun _ => hactive⟩ ?_ fun _ => ?_)
    · exact conclude_asks (p := { p' with stored := { p'.stored with workRequestId := some request.requestId, status := .running } })
        hnone request.requestId
    · exact holding_some ⟨rfl, rfl, rfl, rfl⟩
  · obtain ⟨rfl, rfl, -⟩ := h
    exact hempty

/-- **A thread writes its own inquiry, its decision and one outcome.** -/
theorem executeInquiry_asks (hactive : p.stored.status.active = true) (hnone : p.concluded = false) :
    (executeInquiry p.stored.id).wp inquirer (fun _ _ _ => True) none p := by
  refine Act.wp_onError (R := fun _ l' p' => Holding l' p') ?_ (fun _ _ _ _ => trivial)
    (fun e l' p' h _ => ?_) fun _ _ _ _ _ => trivial
  · refine Act.wp_seq (Act.wp_left (investigate_asks hactive hnone)) (fun made l' p' h => ?_)
      fun _ _ _ h => h
    rw [Act.wp_when]
    split
    · refine Act.wp_onError (R := fun _ l'' p'' => Holding l'' p'') ?_ (fun _ _ _ h => h)
        (fun _ _ _ h _ => h) fun _ _ _ h _ => h
      refine Act.wp_op ⟨trivial, fun reply _ => ?_⟩
      exact Act.wp_result (fun _ _ => h) fun _ _ => h
    · exact h
  · unfold recover
    rw [Act.wp_bind, Act.wp_get, Act.onOk_ok]
    split
    · trivial
    · next inquiry => exact Act.wp_left (fail_asks (h inquiry rfl) e.className)

end Thread

/-! ## What one step does -/

variable {host : Host} {limit : String → Nat} {s : State} {w : World} {own : String → Prop}

/-- A step leaves all inquiries but its own as they are, and those it adds are active. -/
structure Moved (host : Host) (limit : String → Nat) (own : String → Prop) (s : State) (w : World) :
    Prop where
  sound : Sound host limit w.drawn w.tables
  drawn : ∃ more, w.drawn = s.drawn ++ more
  old : ∀ i ∈ s.tables.inquiries, ¬own i.id → i ∈ w.tables.inquiries
  ids : ∀ i ∈ s.tables.inquiries, ∃ j ∈ w.tables.inquiries, j.id = i.id
  new : ∀ i ∈ w.tables.inquiries, i ∈ s.tables.inquiries ∨ own i.id ∨ i.status.active = true
  outcomes : ∀ o ∈ w.tables.outcomes, o ∈ s.tables.outcomes ∨ own o.inquiryId

theorem moved_of_leaves (h : Leaves host limit s.tables s.drawn w) : Moved host limit own s w where
  sound := h.sound
  drawn := h.drawn
  old := fun i hi _ => h.kept.old i hi
  ids := fun i hi => ⟨i, h.kept.old i hi, rfl⟩
  new := fun i hi => (h.kept.new i hi).imp_right fun hnew => Or.inr hnew.2
  outcomes := fun _ ho => Or.inl (h.kept.outcomes ▸ ho)

/-- What a phase says about the tables. -/
structure Fits (host : Host) (drawn : List String) (t : Tables) (p : Phase) : Prop where
  stored : p.stored ∈ t.inquiries
  mine : ∀ id ∈ p.mine, DrawnBy host drawn p.stored.id id
  outcome : p.concluded = false → ∀ o ∈ t.outcomes, o.inquiryId ≠ p.stored.id

section Steps
variable {p : Phase}

theorem Fits.moved (h : Fits host s.drawn s.tables p) (hm : Moved host limit own s w)
    (hnot : ¬own p.stored.id) : Fits host w.drawn w.tables p where
  stored := hm.old p.stored h.stored hnot
  mine := by
    obtain ⟨more, hmore⟩ := hm.drawn
    exact fun id hid => hmore ▸ (h.mine id hid).append more
  outcome := by
    intro hnone o ho
    rcases hm.outcomes o ho with hold | howned
    · exact h.outcome hnone o hold
    · exact fun heq => hnot (heq ▸ howned)

/-- What an operation of a thread comes to. -/
structure Performed (host : Host) (limit : String → Nat) (s : State) (p : Phase) (op : ThreadOp)
    (r : ThreadReply op) (w : World) : Prop where
  moved : Moved host limit (· = p.stored.id) s w
  hears : p.Hears op r
  fits : Fits host w.drawn w.tables (p.moves op r)
  ident : (p.moves op r).stored.id = p.stored.id

/-- The rows of the other inquiries are not touched. -/
theorem moved_save {row : Row} (hsaved : Sound host limit s.drawn (s.tables.save row))
    (hinquiries : (s.tables.save row).inquiries = s.tables.inquiries)
    (houtcomes : ∀ o ∈ (s.tables.save row).outcomes, o ∈ s.tables.outcomes ∨ o.inquiryId = p.stored.id)
    (htables : w.tables = s.tables.save row) (hdrawn : w.drawn = s.drawn) :
    Moved host limit (· = p.stored.id) s w where
  sound := hdrawn ▸ htables ▸ hsaved
  drawn := ⟨[], by rw [hdrawn, List.append_nil]⟩
  old := fun i hi _ => by rwa [htables, hinquiries]
  ids := fun i hi => ⟨i, by rwa [htables, hinquiries], rfl⟩
  new := fun i hi => Or.inl (by rwa [htables, hinquiries] at hi)
  outcomes := fun o ho => houtcomes o (htables ▸ ho)

variable (hsound : Sound host limit s.drawn s.tables) (hfits : Fits host s.drawn s.tables p)
include hsound hfits

theorem performed_same {op : ThreadOp} {r : ThreadReply op} (htables : w.tables = s.tables)
    (hdrawn : w.drawn = s.drawn) (hmoves : p.moves op r = p) (hhears : p.Hears op r) :
    Performed host limit s p op r w := by
  have hleaves : Leaves host limit s.tables s.drawn w := by
    refine ⟨hdrawn ▸ htables ▸ hsound, htables ▸ Kept.refl _, [], ?_⟩
    rw [hdrawn, List.append_nil]
  refine ⟨moved_of_leaves hleaves, hhears, ?_, by rw [hmoves]⟩
  rw [hmoves, hdrawn, htables]
  exact hfits

theorem performed_save {row : Row} (hsaves : p.Saves row) (htables : w.tables = s.tables.save row)
    (hdrawn : w.drawn = s.drawn) : Performed host limit s p (.inl (.save row)) (.ok ()) w := by
  cases row with
  | inquiry i =>
    obtain ⟨hversion, hactive⟩ := hsaves
    refine ⟨⟨?_, ⟨[], by rw [hdrawn, List.append_nil]⟩, ?_, ?_, ?_, ?_⟩, trivial, ⟨?_, ?_, ?_⟩,
      hversion.ident⟩
    · rw [hdrawn, htables]
      exact hsound.oldInquiry hfits.stored hversion hactive
    · intro j hj hother
      rw [htables]
      exact mem_upsert.mpr (Or.inr ⟨hj, fun heq => hother (heq.trans hversion.ident)⟩)
    · intro j hj
      rw [htables]
      by_cases heq : j.id = i.id
      · exact ⟨i, mem_upsert.mpr (Or.inl rfl), heq.symm⟩
      · exact ⟨j, mem_upsert.mpr (Or.inr ⟨hj, heq⟩), rfl⟩
    · intro j hj
      rw [htables] at hj
      rcases mem_upsert.mp hj with rfl | ⟨hj, -⟩
      · exact Or.inr (Or.inl hversion.ident)
      · exact Or.inl hj
    · intro o ho
      rw [htables] at ho
      exact Or.inl ho
    · rw [htables]
      exact mem_upsert.mpr (Or.inl rfl)
    · intro id hid
      rw [hdrawn]
      exact hversion.ident ▸ hfits.mine id hid
    · intro hnone o ho
      rw [htables] at ho
      exact hversion.ident ▸ hfits.outcome hnone o ho
  | decision d =>
    obtain ⟨hid, hsession⟩ := hsaves
    obtain ⟨d', hd', hdecided, hof⟩ := hsound.decided p.stored hfits.stored
    have hsaved := hsound.oldDecision (d := d) ⟨d', hd', hdecided.trans hid.symm, hof.trans hsession.symm⟩
    have hmoved := moved_save (p := p) hsaved rfl (fun _ ho => Or.inl ho) htables hdrawn
    refine ⟨hmoved, trivial, ⟨?_, ?_, ?_⟩, rfl⟩
    · rw [htables]
      exact hfits.stored
    · rw [hdrawn]
      exact hfits.mine
    · rw [htables]
      exact hfits.outcome
  | outcome o =>
    obtain ⟨hnone, hmine, hid, hsession, hbranch⟩ := hsaves
    have hsaved : Sound host limit s.drawn (s.tables.save (.outcome o)) :=
      hsound.newOutcome (fun o' ho' => hid ▸ hfits.outcome hnone o' ho') (hid ▸ hfits.mine o.id hmine)
        ⟨p.stored, hfits.stored, hid, hsession, hbranch⟩
    have houtcomes : ∀ o' ∈ (s.tables.save (.outcome o)).outcomes,
        o' ∈ s.tables.outcomes ∨ o'.inquiryId = p.stored.id := by
      intro o' ho'
      rcases mem_upsert.mp ho' with rfl | ⟨ho', -⟩
      · exact Or.inr hid.symm
      · exact Or.inl ho'
    have hmoved := moved_save hsaved rfl houtcomes htables hdrawn
    refine ⟨hmoved, trivial, ⟨?_, ?_, fun h => by cases h⟩, rfl⟩
    · rw [htables]
      exact hfits.stored
    · rw [hdrawn]
      exact hfits.mine
  | policy _ => exact hsaves.elim
  | task _ => exact hsaves.elim
  | plan _ => exact hsaves.elim

/-- **An operation of a thread** does what its phase says. -/
theorem performed_turn {op : ThreadOp} (hasks : p.Asks op) (answers : List Answer) :
    Performed host limit s p op (performThread host op (s.world p.stored.id answers)).1
      (performThread host op (s.world p.stored.id answers)).2 := by
  cases op with
  | inr call =>
    have hleaves := Act.wp_run (x := prepareLatest host call.sessionId)
      (s := s.world p.stored.id answers) (prepareLatest_wp hsound)
    have hmoved : Moved host limit (fun _ => False) s _ := moved_of_leaves hleaves
    exact ⟨moved_of_leaves hleaves, trivial, hfits.moved hmoved id, rfl⟩
  | inl op =>
    cases op with
    | now => exact performed_same hsound hfits rfl rfl rfl trivial
    | call c => exact performed_same hsound hfits rfl rfl rfl trivial
    | newId =>
      have hleaves : Leaves host limit s.tables s.drawn (s.world p.stored.id answers).draws :=
        ⟨hsound.draw [p.stored.id], Kept.refl _, [p.stored.id], rfl⟩
      refine ⟨moved_of_leaves hleaves, trivial, ⟨hfits.stored, fun id hid => ?_, hfits.outcome⟩, rfl⟩
      rcases List.mem_cons.mp hid with rfl | hid
      · exact drawnBy_new p.stored.id
      · exact (hfits.mine id hid).append [p.stored.id]
    | read =>
      refine performed_same hsound hfits rfl rfl rfl fun tables htables i hi hid => ?_
      have hread : tables = s.tables := by
        have hreply : (s.world p.stored.id answers).answer.reply s.tables = .ok tables := htables
        unfold Answer.reply at hreply
        split at hreply
        · cases hreply
        · cases hreply
          rfl
      rw [hread] at hi
      exact List.inj_on_of_nodup_map hsound.inquiryIds hi hfits.stored hid
    | save row =>
      cases hfault : (s.world p.stored.id answers).answer.fault with
      | some e =>
        have hperform : performThread host (.inl (.save row)) (s.world p.stored.id answers) =
            (.error e, (s.world p.stored.id answers).next) := by
          simp [performThread, perform, Answer.reply, hfault]
        rw [hperform]
        exact performed_same hsound hfits rfl rfl rfl trivial
      | none =>
        have hperform : performThread host (.inl (.save row)) (s.world p.stored.id answers) =
            (.ok (), (s.world p.stored.id answers).saved row) := by
          simp [performThread, perform, Answer.reply, hfault]
        rw [hperform]
        exact performed_save hsound hfits hasks rfl rfl

end Steps

/-! ## Runs -/

/-- A thread that follows its phase. -/
structure Attended (host : Host) (drawn : List String) (t : Tables) (thread : Thread) (p : Phase) :
    Prop where
  ident : p.stored.id = thread.inquiryId
  fits : Fits host drawn t p
  program : thread.program.wp inquirer (fun _ _ => True) p

/-- The inquiries of threads and of ended executions are stored, only they have
outcomes, and all others still wait. -/
structure Orderly (host : Host) (limit : String → Nat) (s : State) : Prop where
  sound : Sound host limit s.drawn s.tables
  distinct : (s.threads.map (·.inquiryId)).Nodup
  attended : ∀ thread ∈ s.threads, ∃ p, Attended host s.drawn s.tables thread p
  known : ∀ id, s.launched id = true → ∃ i ∈ s.tables.inquiries, i.id = id
  told : ∀ o ∈ s.tables.outcomes, s.launched o.inquiryId = true
  waiting : ∀ i ∈ s.tables.inquiries, s.launched i.id = false → i.status.active = true

theorem launched_iff {id : String} :
    s.launched id = true ↔ (∃ thread ∈ s.threads, thread.inquiryId = id) ∨ id ∈ s.ended := by
  simp [State.launched]

/-- A call of a user. -/
theorem Orderly.leave (h : Orderly host limit s) (hleaves : Leaves host limit s.tables s.drawn w) :
    Orderly host limit (s.leave w) where
  sound := hleaves.sound
  distinct := h.distinct
  attended := by
    intro thread hthread
    obtain ⟨p, hident, hfits, hprogram⟩ := h.attended thread hthread
    have hmoved : Moved host limit (fun _ => False) s w := moved_of_leaves hleaves
    exact ⟨p, hident, hfits.moved hmoved id, hprogram⟩
  known := by
    intro id hid
    obtain ⟨i, hi, rfl⟩ := h.known id hid
    exact ⟨i, hleaves.kept.old i hi, rfl⟩
  told := fun o ho => h.told o (hleaves.kept.outcomes ▸ ho)
  waiting := by
    intro i hi hnot
    rcases hleaves.kept.new i hi with hold | ⟨-, hactive⟩
    · exact h.waiting i hold hnot
    · exact hactive

theorem Orderly.call {α : Type} (h : Orderly host limit s) {sessionId : String} {answers : List Answer}
    {x : Act Op Reply Unit PyError α}
    (hx : x.wp (alone host) (fun _ _ w' => Leaves host limit s.tables s.drawn w') ()
      (s.world sessionId answers)) : Orderly host limit (s.call host sessionId answers x).2 :=
  h.leave (Act.wp_run hx)

/-- An inquiry that waits is launched. -/
theorem Orderly.launch (h : Orderly host limit s) {i : AutonomousInquiry}
    (hi : i ∈ s.tables.inquiries) (hnot : s.launched i.id = false) :
    Orderly host limit (s.launch i.id) := by
  have hmore : ∀ id, (s.launch i.id).launched id = true ↔ s.launched id = true ∨ i.id = id := by
    intro id
    rw [launched_iff, launched_iff]
    simp only [State.launch, List.mem_append, List.mem_singleton]
    constructor
    · rintro (⟨thread, hthread | rfl, hid⟩ | hended)
      · exact Or.inl (Or.inl ⟨thread, hthread, hid⟩)
      · exact Or.inr hid
      · exact Or.inl (Or.inr hended)
    · rintro ((⟨thread, hthread, hid⟩ | hended) | hid)
      · exact Or.inl ⟨thread, Or.inl hthread, hid⟩
      · exact Or.inr hended
      · exact Or.inl ⟨_, Or.inr rfl, hid⟩
  have hfree : ∀ thread ∈ s.threads, thread.inquiryId ≠ i.id := by
    intro thread hthread heq
    rw [launched_iff.mpr (Or.inl ⟨thread, hthread, heq⟩)] at hnot
    cases hnot
  refine ⟨h.sound, ?_, ?_, ?_, ?_, ?_⟩
  · unfold State.launch
    rw [List.map_append, List.nodup_append]
    refine ⟨h.distinct, List.nodup_singleton _, fun a ha b hb => ?_⟩
    obtain ⟨thread, hthread, rfl⟩ := List.mem_map.mp ha
    obtain rfl := List.mem_singleton.mp hb
    exact hfree thread hthread
  · intro thread hthread
    rcases List.mem_append.mp hthread with hold | hnew
    · exact h.attended thread hold
    · obtain rfl := List.mem_singleton.mp hnew
      refine ⟨{ stored := i }, rfl, ⟨hi, (fun id hid => by cases hid), fun _ o ho heq => ?_⟩, ?_⟩
      · have htold := h.told o ho
        rw [heq, hnot] at htold
        cases htold
      · exact executeInquiry_asks (p := { stored := i }) (h.waiting i hi hnot) rfl
  · intro id hid
    rcases (hmore id).mp hid with hold | rfl
    · exact h.known id hold
    · exact ⟨i, hi, rfl⟩
  · exact fun o ho => (hmore _).mpr (Or.inl (h.told o ho))
  · intro j hj hfalse
    refine h.waiting j hj (Bool.eq_false_iff.mpr fun hold => ?_)
    rw [(hmore j.id).mpr (Or.inl hold)] at hfalse
    cases hfalse

/-- **The turn of a thread.** -/
theorem Orderly.turn (h : Orderly host limit s) {thread : Thread} (hthread : thread ∈ s.threads)
    (answers : List Answer) : Orderly host limit (s.turn host thread answers) := by
  obtain ⟨p, hident, hfits, hprogram⟩ := h.attended thread hthread
  obtain ⟨inquiryId, program⟩ := thread
  dsimp only at hident
  subst hident
  have hothers : ∀ other ∈ s.threads.filter (·.inquiryId != p.stored.id),
      other ∈ s.threads ∧ other.inquiryId ≠ p.stored.id := by
    intro other hother
    obtain ⟨hmem, hne⟩ := List.mem_filter.mp hother
    exact ⟨hmem, bne_iff_ne.mp hne⟩
  have hdistinct : ((s.threads.filter (·.inquiryId != p.stored.id)).map (·.inquiryId)).Nodup :=
    h.distinct.sublist ((List.filter_sublist).map _)
  have hlaunched : s.launched p.stored.id = true := launched_iff.mpr (Or.inl ⟨_, hthread, rfl⟩)
  -- who is launched does not change when a thread ends or goes on
  have hsame : ∀ s' : State, s'.ended = s.ended ++ [p.stored.id] ∧
        s'.threads = s.threads.filter (·.inquiryId != p.stored.id) ∨
      s'.ended = s.ended ∧ (∃ next, s'.threads = s.threads.filter (·.inquiryId != p.stored.id) ++
        [⟨p.stored.id, next⟩]) → ∀ id, s'.launched id = s.launched id := by
    intro s' hs' id
    rw [Bool.eq_iff_iff, launched_iff]
    by_cases heq : id = p.stored.id
    · subst heq
      refine iff_of_true ?_ hlaunched
      rcases hs' with ⟨hended, -⟩ | ⟨-, next, hthreads⟩
      · exact Or.inr (hended ▸ List.mem_append_right _ List.mem_cons_self)
      · exact Or.inl ⟨_, hthreads ▸ List.mem_append_right _ List.mem_cons_self, rfl⟩
    · rw [launched_iff]
      have hmem : ∀ other : Thread, other.inquiryId = id →
          (other ∈ s.threads.filter (·.inquiryId != p.stored.id) ↔ other ∈ s.threads) := by
        intro other hother
        rw [List.mem_filter, bne_iff_ne, hother]
        exact and_iff_left heq
      rcases hs' with ⟨hended, hthreads⟩ | ⟨hended, next, hthreads⟩
      · rw [hended, hthreads, List.mem_append, List.mem_singleton]
        constructor
        · rintro (⟨other, hother, hid⟩ | hold | hnew)
          · exact Or.inl ⟨other, (hmem other hid).mp hother, hid⟩
          · exact Or.inr hold
          · exact absurd hnew heq
        · rintro (⟨other, hother, hid⟩ | hold)
          · exact Or.inl ⟨other, (hmem other hid).mpr hother, hid⟩
          · exact Or.inr (Or.inl hold)
      · rw [hended, hthreads]
        constructor
        · rintro (⟨other, hother, hid⟩ | hold)
          · rcases List.mem_append.mp hother with hother | hown
            · exact Or.inl ⟨other, (hmem other hid).mp hother, hid⟩
            · obtain rfl := List.mem_singleton.mp hown
              exact absurd hid.symm heq
          · exact Or.inr hold
        · rintro (⟨other, hother, hid⟩ | hold)
          · exact Or.inl ⟨other, List.mem_append_left _ ((hmem other hid).mpr hother), hid⟩
          · exact Or.inr hold
  cases program with
  | done r =>
    have hlaunch := hsame (s.turn host ⟨p.stored.id, .done r⟩ answers) (Or.inl ⟨rfl, rfl⟩)
    refine ⟨h.sound, hdistinct, fun other hother => h.attended other (hothers other hother).1, ?_, ?_, ?_⟩
    · exact fun id hid => h.known id (hlaunch id ▸ hid)
    · exact fun o ho => (hlaunch _).trans (h.told o ho)
    · exact fun i hi hnot => h.waiting i hi ((hlaunch i.id).symm.trans hnot)
  | op op next =>
    obtain ⟨hasks, hnext⟩ := hprogram
    have hperformed := performed_turn h.sound hfits hasks answers
    have hlaunch := hsame (s.turn host ⟨p.stored.id, .op op next⟩ answers) (Or.inr ⟨rfl, _, rfl⟩)
    have hmoved := hperformed.moved
    refine ⟨hmoved.sound, ?_, ?_, ?_, ?_, ?_⟩
    · change (List.map (fun t : Thread => t.inquiryId) (s.threads.filter (·.inquiryId != p.stored.id) ++ [_])).Nodup
      rw [List.map_append, List.nodup_append]
      refine ⟨hdistinct, List.nodup_singleton _, fun a ha b hb => ?_⟩
      obtain ⟨other, hother, rfl⟩ := List.mem_map.mp ha
      obtain rfl := List.mem_singleton.mp hb
      exact (hothers other hother).2
    · intro other hother
      rcases List.mem_append.mp hother with hother | hown
      · obtain ⟨hmem, hne⟩ := hothers other hother
        obtain ⟨q, hqident, hqfits, hqprogram⟩ := h.attended other hmem
        exact ⟨q, hqident, hqfits.moved hmoved fun heq => hne (hqident.symm.trans heq), hqprogram⟩
      · obtain rfl := List.mem_singleton.mp hown
        exact ⟨_, hperformed.ident, hperformed.fits, hnext _ hperformed.hears⟩
    · intro id hid
      obtain ⟨i, hi, rfl⟩ := h.known id (hlaunch id ▸ hid)
      exact hmoved.ids i hi
    · intro o ho
      rcases hmoved.outcomes o ho with hold | hown
      · exact (hlaunch _).trans (h.told o hold)
      · exact (hlaunch _).trans (hown ▸ hlaunched)
    · intro i hi hnot
      rcases hmoved.new i hi with hold | hown | hactive
      · exact h.waiting i hold ((hlaunch i.id).symm.trans hnot)
      · rw [hlaunch i.id, hown, hlaunched] at hnot
        cases hnot
      · exact hactive

/-- **Every event** of a session keeps the order. -/
theorem Orderly.step (h : Orderly host limit s) (event : Event) :
    Orderly host limit (step host s event) := by
  cases event with
  | branch branch =>
    have hrows : (s.tables.saveConceptBranch branch).inquiries = s.tables.inquiries ∧
        (s.tables.saveConceptBranch branch).outcomes = s.tables.outcomes := by
      unfold Tables.saveConceptBranch
      split <;> exact ⟨rfl, rfl⟩
    exact h.leave (w := ⟨s.tables.saveConceptBranch branch, s.drawn, "", []⟩)
      ⟨h.sound.saveConceptBranch branch, kept_of_eq hrows.1 hrows.2, [], (List.append_nil _).symm⟩
  | deliberate sessionId answers =>
    exact h.call (Act.wp_mono (deliberate_wp h.sound) fun _ _ _ hleft => hleft.leaves)
  | runAutonomy sessionId answers =>
    obtain ⟨hleaves, hcreated⟩ := Act.wp_run (x := runAutonomy host sessionId)
      (s := s.world sessionId answers) (runAutonomy_wp h.sound)
    dsimp only [Execution.step]
    split
    · next inquiry s' hcall =>
      obtain ⟨hresult, rfl⟩ := Prod.mk.inj hcall
      obtain ⟨hstored, hnew⟩ := hcreated inquiry hresult
      refine (h.leave hleaves).launch hstored (Bool.eq_false_iff.mpr fun hlaunched => ?_)
      obtain ⟨i, hi, hid⟩ := h.known inquiry.id hlaunched
      exact hnew (List.mem_map.mpr ⟨i, hi, hid⟩)
    · next r s' _ hcall =>
      obtain ⟨-, rfl⟩ := Prod.mk.inj hcall
      exact h.leave hleaves
  | prepareLatest sessionId answers => exact h.call (prepareLatest_wp h.sound)
  | enable sessionId actor answers => exact h.call (enable_wp h.sound actor)
  | disable sessionId answers => exact h.call (disable_wp h.sound)
  | execute inquiryId =>
    dsimp only [Execution.step]
    split
    · next hcan =>
      obtain ⟨hstored, hnot⟩ := hcan
      obtain ⟨i, hi, hid⟩ := List.any_eq_true.mp hstored
      obtain rfl := beq_iff_eq.mp hid
      exact h.launch hi hnot
    · exact h
  | turn inquiryId answers =>
    dsimp only [Execution.step]
    split
    · next thread hthread => exact h.turn (List.mem_of_find?_eq_some hthread) answers
    · exact h

/-- What the tables of a session promise in every state. -/
structure Bounded (host : Host) (limit : String → Nat) (t : Tables) : Prop where
  oneActive : ∀ i ∈ t.inquiries, ∀ j ∈ t.inquiries, i.sessionId = j.sessionId →
    i.status.active = true → j.status.active = true → i = j
  branchOnce : ∀ i ∈ t.inquiries, ∀ j ∈ t.inquiries, i.sessionId = j.sessionId →
    i.branchId = j.branchId → i = j
  inquiries : ∀ sessionId, (t.autonomousInquiries sessionId).length ≤ host.budget.maxDecisionsPerSession
  tasks : ∀ sessionId, (t.autonomousTasks sessionId).length ≤ limit sessionId
  taskOutcomes : ∀ k ∈ t.tasks, ∀ k' ∈ t.tasks, k.sessionId = k'.sessionId →
    k.outcomeId = k'.outcomeId → k = k'
  oneOutcome : ∀ o ∈ t.outcomes, ∀ o' ∈ t.outcomes, o.inquiryId = o'.inquiryId → o = o'
  outcomeInquiry : ∀ o ∈ t.outcomes, ∃ i ∈ t.inquiries,
    i.id = o.inquiryId ∧ i.sessionId = o.sessionId ∧ i.branchId = o.branchId

theorem Orderly.bounded (h : Orderly host limit s) : Bounded host limit s.tables where
  oneActive := fun i hi j hj hsession hactive hactive' => List.inj_on_of_nodup_map h.sound.inquiryIds hi hj
    (h.sound.oneActive i hi j hj hsession hactive hactive')
  branchOnce := fun i hi j hj hsession hbranch => List.inj_on_of_nodup_map h.sound.inquiryIds hi hj
    (h.sound.branchOnce i hi j hj hsession hbranch)
  inquiries := h.sound.inquiryBound
  tasks := h.sound.taskBound
  taskOutcomes := fun k hk k' hk' hsession houtcome => List.inj_on_of_nodup_map h.sound.taskIds hk hk'
    (h.sound.taskOutcomes k hk k' hk' hsession houtcome)
  oneOutcome := by
    intro o ho o' ho' hinquiry
    exact List.inj_on_of_nodup_map h.sound.outcomeIds ho ho' (h.sound.oneOutcome o ho o' ho' hinquiry)
  outcomeInquiry := h.sound.outcomeInquiry

/-- **Autonomous work is bounded**, whatever is called while inquiries are
executed, and wherever a call or an execution raises. -/
theorem bounded_of_run (host : Host) (branches : List ConceptBranch)
    (policies : List AutonomousWorkPolicy) (events : List Event) :
    Bounded host (fun sessionId => (policyOf { branches, policies } sessionId).maxTasksPerSession)
      (run host (.start branches policies) events).tables := by
  have hstart : Orderly host (fun sessionId => (policyOf { branches, policies } sessionId).maxTasksPerSession)
      (.start branches policies) := by
    refine ⟨sound_start, List.nodup_nil, ?_, ?_, ?_, ?_⟩
    · exact fun thread hthread => by cases hthread
    · exact fun id hid => by cases hid
    · exact fun o ho => by cases ho
    · exact fun i hi => by cases hi
  exact (Interleavings.keeps events (fun _ event h => h.step event) hstart).bounded

/-! ## One inquiry -/

/-- The identifiers are tallies. -/
def tally (n : Nat) : String := String.ofList (List.replicate (n + 1) 'I')

theorem tally_injective : tally.Injective := by
  intro a b h
  have hlength := congrArg (fun text : String => text.toList.length) h
  simpa [tally] using hlength

def plainHost : Host where
  newId := tally
  newId_injective := tally_injective
  round4 := id
  resolve := id
  systemRoot := "/tgram"
  budget := {}

def openBranch : ConceptBranch where
  id := "BRANCH"
  sessionId := "SESSION"
  signature := "caching"
  concept := "caching"
  insight := "Caches are shared."
  supportingFactIds := []
  parentBranchId := none
  depth := 0
  status := "EXPLORING"
  confidence := 1 / 2

/-- What is outside answers each operation; nothing raises. -/
def answered : Answer where
  sessions := ["SESSION"]
  requestId := "REQUEST"
  result := { id := "RESULT", claimIds := ["CLAIM"], answerSummary := "They are.", confidence := 1 }
  projects := [⟨"TGRAM", "/tgram", true, true⟩]
  ticket := { id := "TICKET" }

/-- A branch, the turn of the chat that launches its inquiry, and the turns of
the thread. -/
def cycle : List Event :=
  let answers := List.replicate 20 answered
  .branch openBranch :: .enable "SESSION" "owner" answers :: .runAutonomy "SESSION" answers ::
    List.replicate 20 (.turn (tally 1) answers)

/-- The inquiry is completed, and a task waits for the approval of its plan. -/
theorem bounded_of_run_cycle :
    let s := run plainHost (.start [] []) cycle
    Bounded plainHost (fun sessionId => (policyOf {} sessionId).maxTasksPerSession) s.tables ∧
      s.ended = [tally 1] ∧ s.tables.inquiries.map (·.status) = [.completed] ∧
      s.tables.outcomes.map (·.inquiryId) = [tally 1] ∧
      s.tables.tasks.map (·.status) = [.waitingForUserPlanApproval] :=
  ⟨bounded_of_run plainHost [] [] cycle, by decide +kernel⟩

end RlmGraph.Autonomy.Runs
