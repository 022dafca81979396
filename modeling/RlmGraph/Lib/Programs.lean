import Mathlib.Logic.Basic

/-! # Programs over operations

A `Prog` is a thread of control: it performs operations on a world it shares
with others and goes on with their replies. Between two operations it may be
stopped for good, or others may act, so the same program has many readings. Its
logic is one: `wp` takes what an operation requires and guarantees from an
`OpSpec`. `guarded` reads the operations by an executable meaning, with an
assertion before each of them, and is sound for complete executions
(`wp_exec`), for every operation performed (`wp_steps`) and for stopped ones
(`wp_after`). `protocol` reads them by their labels only, for any replies, so
it holds whatever others do between them. `Threads` interleaves two programs.

An `Act` is a program with local variables and exceptions; the locals survive
an exception. -/
namespace RlmGraph.Lib.Programs

inductive Prog (Op : Type) (Reply : Op → Type) (α : Type) where
  | done (a : α)
  | op (o : Op) (next : Reply o → Prog Op Reply α)

variable {Op : Type} {Reply : Op → Type} {S σ α β : Type}

def Prog.bind : Prog Op Reply α → (α → Prog Op Reply β) → Prog Op Reply β
  | .done a, f => f a
  | .op o next, f => .op o fun r => (next r).bind f

def Prog.isDone : Prog Op Reply α → Bool
  | .done _ => true
  | .op _ _ => false

theorem Prog.exists_of_isDone {p : Prog Op Reply α} (h : p.isDone = true) : ∃ a, p = .done a := by
  cases p with
  | done a => exact ⟨a, rfl⟩
  | op o next => cases h

/-! ## The logic -/

/-- What performing an operation in a state requires, given what is wanted of
its reply and the state after it. -/
structure OpSpec (Op : Type) (Reply : Op → Type) (S : Type) where
  holds : (o : Op) → S → (Reply o → S → Prop) → Prop
  mono : ∀ {o s} {K K' : Reply o → S → Prop}, (∀ r s', K r s' → K' r s') →
    holds o s K → holds o s K'

/-- The program ends only in results and states with `Q`, every operation on
the way meeting the specification. -/
def Prog.wp (T : OpSpec Op Reply S) : Prog Op Reply α → (α → S → Prop) → S → Prop
  | .done a, Q, s => Q a s
  | .op o next, Q, s => T.holds o s fun r s' => (next r).wp T Q s'

theorem Prog.wp_mono {T : OpSpec Op Reply S} {p : Prog Op Reply α} {Q Q' : α → S → Prop} {s : S}
    (hQ : ∀ a s', Q a s' → Q' a s') (h : p.wp T Q s) : p.wp T Q' s := by
  induction p generalizing s with
  | done a => exact hQ a s h
  | op o next ih => exact T.mono (fun r s' h' => ih r h') h

theorem Prog.wp_bind (T : OpSpec Op Reply S) (p : Prog Op Reply α) (f : α → Prog Op Reply β)
    (Q : β → S → Prop) (s : S) :
    (p.bind f).wp T Q s = p.wp T (fun a s' => (f a).wp T Q s') s := by
  induction p generalizing s with
  | done a => rfl
  | op o next ih =>
    unfold Prog.bind Prog.wp
    congr 1
    funext r s'
    exact ih r s'

/-! ## Executions -/

/-- An executable meaning of the operations. -/
abbrev Meaning (Op : Type) (Reply : Op → Type) (S : Type) := (o : Op) → S → Reply o × S

def Prog.exec (sem : Meaning Op Reply S) : Prog Op Reply α → S → α × S
  | .done a, s => (a, s)
  | .op o next, s => (next (sem o s).1).exec sem (sem o s).2

theorem Prog.exec_bind (sem : Meaning Op Reply S) (p : Prog Op Reply α)
    (f : α → Prog Op Reply β) (s : S) :
    (p.bind f).exec sem s = (f (p.exec sem s).1).exec sem (p.exec sem s).2 := by
  induction p generalizing s with
  | done a => rfl
  | op o next ih => exact ih _ _

/-- The state after at most `n` operations. -/
def Prog.after (sem : Meaning Op Reply S) : Nat → Prog Op Reply α → S → S
  | 0, _, s => s
  | _ + 1, .done _, s => s
  | n + 1, .op o next, s => (next (sem o s).1).after sem n (sem o s).2

/-- The operations an execution performs, each with the state it finds. -/
def Prog.steps (sem : Meaning Op Reply S) : Prog Op Reply α → S → List (Op × S)
  | .done _, _ => []
  | .op o next, s => (o, s) :: (next (sem o s).1).steps sem (sem o s).2

/-- What every operation keeps, complete and stopped executions keep. -/
theorem exec_keeps {sem : Meaning Op Reply S} {W : S → Prop} (hW : ∀ o s, W s → W (sem o s).2)
    (p : Prog Op Reply α) {s : S} (hs : W s) : W (p.exec sem s).2 := by
  induction p generalizing s with
  | done a => exact hs
  | op o next ih => exact ih _ (hW o s hs)

theorem after_keeps {sem : Meaning Op Reply S} {W : S → Prop} (hW : ∀ o s, W s → W (sem o s).2)
    (n : Nat) (p : Prog Op Reply α) {s : S} (hs : W s) : W (p.after sem n s) := by
  induction n generalizing p s with
  | zero => exact hs
  | succ n ih =>
    cases p with
    | done a => exact hs
    | op o next => exact ih _ (hW o s hs)

/-- The operations by their meaning, asserting `G` before each. -/
def guarded (G : Op → S → Prop) (sem : Meaning Op Reply S) : OpSpec Op Reply S where
  holds o s K := G o s ∧ K (sem o s).1 (sem o s).2
  mono hK h := ⟨h.1, hK _ _ h.2⟩

section Soundness
variable {G : Op → S → Prop} {sem : Meaning Op Reply S} {p : Prog Op Reply α}
  {Q : α → S → Prop} {s : S}

theorem wp_exec (h : p.wp (guarded G sem) Q s) : Q (p.exec sem s).1 (p.exec sem s).2 := by
  induction p generalizing s with
  | done a => exact h
  | op o next ih => exact ih _ h.2

theorem wp_steps (h : p.wp (guarded G sem) Q s) : ∀ x ∈ p.steps sem s, G x.1 x.2 := by
  induction p generalizing s with
  | done a => intro x hx; cases hx
  | op o next ih =>
    intro x hx
    cases hx with
    | head => exact h.1
    | tail _ hx => exact ih _ h.2 x hx

/-- Without assertions every program runs. -/
theorem wp_free (p : Prog Op Reply α) (s : S) :
    p.wp (guarded (fun _ _ => True) sem) (fun _ _ => True) s := by
  induction p generalizing s with
  | done a => trivial
  | op o next ih => exact ⟨trivial, ih _ _⟩

/-- A complete execution ends in what it computes. -/
theorem wp_exact (p : Prog Op Reply α) (s : S) :
    p.wp (guarded (fun _ _ => True) sem) (fun a s' => p.exec sem s = (a, s')) s := by
  induction p generalizing s with
  | done a => rfl
  | op o next ih => exact ⟨trivial, ih _ _⟩

/-- A stopped program has left a state that the assertion of its next operation
or its postcondition speaks about. -/
theorem wp_after (h : p.wp (guarded G sem) Q s) (n : Nat) :
    (∃ o, G o (p.after sem n s)) ∨ ∃ a, Q a (p.after sem n s) := by
  induction n generalizing p s with
  | zero =>
    cases p with
    | done a => exact Or.inr ⟨a, h⟩
    | op o next => exact Or.inl ⟨o, h.1⟩
  | succ n ih =>
    cases p with
    | done a => exact Or.inr ⟨a, h⟩
    | op o next => exact ih h.2

end Soundness

/-- The operations with a monitor that sees their labels. -/
def monitored (sem : Meaning Op Reply S) (watch : Op → σ → σ) : Meaning Op Reply (S × σ) :=
  fun o s => ((sem o s.1).1, (sem o s.1).2, watch o s.2)

/-- A monitor does not disturb what it watches. -/
theorem after_monitored (sem : Meaning Op Reply S) (watch : Op → σ → σ) (n : Nat)
    (p : Prog Op Reply α) (s : S) (m : σ) :
    (p.after (monitored sem watch) n (s, m)).1 = p.after sem n s := by
  induction n generalizing p s m with
  | zero => rfl
  | succ n ih =>
    cases p with
    | done a => rfl
    | op o next => exact ih _ _ _

/-- The operations by their labels: `allowed` in a phase, which every reply
moves on. -/
def protocol (allowed : σ → Op → Prop) (moves : σ → (o : Op) → Reply o → σ) :
    OpSpec Op Reply σ where
  holds o s K := allowed s o ∧ ∀ r, K r (moves s o r)
  mono hK h := ⟨h.1, fun r => hK r _ (h.2 r)⟩

/-- The operations of one kind, whatever they reply. -/
def anyReply (ok : Op → Prop) : OpSpec Op Reply Unit := protocol (fun _ => ok) fun u _ _ => u

theorem anyReply_mono {ok ok' : Op → Prop} (hok : ∀ o, ok o → ok' o) {p : Prog Op Reply α}
    {Q : α → Unit → Prop} {u : Unit} (h : p.wp (anyReply ok) Q u) : p.wp (anyReply ok') Q u := by
  induction p with
  | done a => exact h
  | op o next ih => exact ⟨hok o h.1, fun r => ih r (h.2 r)⟩

/-- What a kind of operations preserves, the programs of that kind preserve. -/
theorem wp_of_anyReply {ok : Op → Prop} {T : OpSpec Op Reply S} {W : S → Prop}
    (hW : ∀ o s, ok o → W s → T.holds o s fun _ => W) {p : Prog Op Reply α}
    {Q : α → Unit → Prop} (h : p.wp (anyReply ok) Q ()) {s : S} (hs : W s) :
    p.wp T (fun a s' => Q a () ∧ W s') s := by
  induction p generalizing s with
  | done a => exact ⟨h, hs⟩
  | op o next ih => exact T.mono (fun r s' hs' => ih r (h.2 r) hs') (hW o s h.1 hs)

/-! ## Two threads -/

/-- Two programs and the state they share. -/
structure Threads (Op : Type) (Reply : Op → Type) (S α β : Type) where
  first : Prog Op Reply α
  second : Prog Op Reply β
  state : S

namespace Threads

/-- One thread performs its next operation, the first one for `true`; a thread
that is done lets its turn pass. The meaning of an operation may depend on who
performs it. -/
def turn (sem : Bool → Meaning Op Reply S) (threads : Threads Op Reply S α β) :
    Bool → Threads Op Reply S α β
  | true =>
    match threads.first with
    | .done _ => threads
    | .op o next =>
      let r := sem true o threads.state
      ⟨next r.1, threads.second, r.2⟩
  | false =>
    match threads.second with
    | .done _ => threads
    | .op o next =>
      let r := sem false o threads.state
      ⟨threads.first, next r.1, r.2⟩

/-- The threads after some turns, in any order. -/
def run (sem : Bool → Meaning Op Reply S) (turns : List Bool) (threads : Threads Op Reply S α β) :
    Threads Op Reply S α β :=
  turns.foldl (turn sem) threads

/-- Whether the operation of a turn meets a condition. -/
def meets (G : Bool → Op → S → Prop) (threads : Threads Op Reply S α β) : Bool → Prop
  | true => ∀ o next, threads.first = .op o next → G true o threads.state
  | false => ∀ o next, threads.second = .op o next → G false o threads.state

/-- Every operation of an interleaving meets a condition. -/
def EveryTurn (sem : Bool → Meaning Op Reply S) (G : Bool → Op → S → Prop) (turns : List Bool)
    (threads : Threads Op Reply S α β) : Prop :=
  ∀ earlier client later, turns = earlier ++ client :: later →
    (threads.run sem earlier).meets G client

theorem everyTurn_nil {sem : Bool → Meaning Op Reply S} {G : Bool → Op → S → Prop}
    {threads : Threads Op Reply S α β} : EveryTurn sem G [] threads := by
  intro earlier client later h
  cases earlier <;> cases h

theorem everyTurn_cons {sem : Bool → Meaning Op Reply S} {G : Bool → Op → S → Prop} {client : Bool}
    {turns : List Bool} {threads : Threads Op Reply S α β} :
    EveryTurn sem G (client :: turns) threads ↔
      threads.meets G client ∧ EveryTurn sem G turns (threads.turn sem client) := by
  constructor
  · intro h
    refine ⟨h [] client turns rfl, fun earlier next later hturns => ?_⟩
    exact h (client :: earlier) next later (by rw [hturns]; rfl)
  · rintro ⟨hmeets, hlater⟩ earlier next later hturns
    cases earlier with
    | nil =>
      obtain ⟨rfl, rfl⟩ := List.cons.inj hturns
      exact hmeets
    | cons _ earlier =>
      obtain ⟨rfl, rfl⟩ := List.cons.inj hturns
      exact hlater earlier next later rfl

instance decidableMeets {G : Bool → Op → S → Prop} [∀ client o s, Decidable (G client o s)] :
    (threads : Threads Op Reply S α β) → (client : Bool) → Decidable (threads.meets G client)
  | ⟨.done _, _, _⟩, true => isTrue fun _ _ h => nomatch h
  | ⟨.op o next, _, s⟩, true =>
    decidable_of_iff (G true o s) ⟨fun h _ _ heq => by cases heq; exact h, fun h => h o next rfl⟩
  | ⟨_, .done _, _⟩, false => isTrue fun _ _ h => nomatch h
  | ⟨_, .op o next, s⟩, false =>
    decidable_of_iff (G false o s) ⟨fun h _ _ heq => by cases heq; exact h, fun h => h o next rfl⟩

instance decidableEveryTurn {sem : Bool → Meaning Op Reply S} {G : Bool → Op → S → Prop}
    [∀ client o s, Decidable (G client o s)] : (turns : List Bool) →
    (threads : Threads Op Reply S α β) → Decidable (EveryTurn sem G turns threads)
  | [], _ => isTrue everyTurn_nil
  | client :: turns, threads =>
    have : Decidable (EveryTurn sem G turns (threads.turn sem client)) :=
      decidableEveryTurn turns (threads.turn sem client)
    decidable_of_iff _ everyTurn_cons.symm

/-- Whether both threads are done. -/
def finished (threads : Threads Op Reply S α β) : Bool :=
  threads.first.isDone && threads.second.isDone

theorem exists_of_finished {threads : Threads Op Reply S α β} (h : threads.finished = true) :
    (∃ a, threads.first = .done a) ∧ ∃ b, threads.second = .done b := by
  obtain ⟨hfirst, hsecond⟩ := Bool.and_eq_true_iff.mp h
  exact ⟨Prog.exists_of_isDone hfirst, Prog.exists_of_isDone hsecond⟩

/-- **The rule of interleaving**: an invariant of the threads and their state
that every operation preserves, under a condition on the operations. -/
theorem invariant {sem : Bool → Meaning Op Reply S} {G : Bool → Op → S → Prop}
    {I : Threads Op Reply S α β → Prop} {turns : List Bool} {threads : Threads Op Reply S α β}
    (hfirst : ∀ o next second s, G true o s → I ⟨.op o next, second, s⟩ →
      I ⟨next (sem true o s).1, second, (sem true o s).2⟩)
    (hsecond : ∀ first o next s, G false o s → I ⟨first, .op o next, s⟩ →
      I ⟨first, next (sem false o s).1, (sem false o s).2⟩)
    (h : I threads) (hG : EveryTurn sem G turns threads) : I (threads.run sem turns) := by
  induction turns generalizing threads with
  | nil => exact h
  | cons client turns ih =>
    obtain ⟨hmeets, hlater⟩ := everyTurn_cons.mp hG
    refine ih ?_ hlater
    obtain ⟨first, second, s⟩ := threads
    cases client with
    | true =>
      cases first with
      | done a => exact h
      | op o next => exact hfirst o next second s (hmeets o next rfl) h
    | false =>
      cases second with
      | done b => exact h
      | op o next => exact hsecond first o next s (hmeets o next rfl) h

end Threads

/-! ## Local variables and exceptions -/

/-- A program with locals `L` that raises exceptions `ε`. -/
def Act (Op : Type) (Reply : Op → Type) (L ε α : Type) : Type :=
  L → Prog Op Reply (Except ε α × L)

namespace Act
variable {L ε : Type}

instance : Monad (Act Op Reply L ε) where
  pure a := fun l => .done (.ok a, l)
  bind x f := fun l => (x l).bind fun r =>
    match r.1 with
    | .ok a => f a r.2
    | .error e => .done (.error e, r.2)

def perform (o : Op) : Act Op Reply L ε (Reply o) := fun l => .op o fun r => .done (.ok r, l)

/-- `raise`. -/
def fail (e : ε) : Act Op Reply L ε α := fun l => .done (.error e, l)

/-- The locals. -/
def get : Act Op Reply L ε L := fun l => .done (.ok l, l)

def modify (f : L → L) : Act Op Reply L ε Unit := fun l => .done (.ok (), f l)

/-- A computed result or exception. -/
def ofExcept (r : Except ε α) : Act Op Reply L ε α := fun l => .done (r, l)

/-- `if not c: raise e`. -/
def require (c : Prop) [Decidable c] (e : ε) : Act Op Reply L ε Unit :=
  if c then pure () else fail e

/-- `if c: x`. -/
def when (c : Prop) [Decidable c] (x : Act Op Reply L ε Unit) : Act Op Reply L ε Unit :=
  if c then x else pure ()

/-- `try: x / except ...: handler`, for the exceptions the clause catches. -/
def onError (x : Act Op Reply L ε α) (catches : ε → Bool) (handler : ε → Act Op Reply L ε α) :
    Act Op Reply L ε α :=
  fun l => (x l).bind fun r =>
    match r.1 with
    | .ok a => .done (.ok a, r.2)
    | .error e => if catches e then handler e r.2 else .done (.error e, r.2)

/-- `try: x / finally: last`. An exception of the last block replaces the outcome. -/
def andFinally (x : Act Op Reply L ε α) (last : Act Op Reply L ε Unit) : Act Op Reply L ε α :=
  fun l => (x l).bind fun r => (last r.2).bind fun r' =>
    match r'.1 with
    | .ok _ => .done (r.1, r'.2)
    | .error e => .done (.error e, r'.2)

/-- How the program ends, as a result. -/
def captured (x : Act Op Reply L ε α) : Act Op Reply L ε (Except ε α) :=
  fun l => (x l).bind fun r => .done (.ok r.1, r.2)

/-- A call: the program with locals of its own. -/
def within {L' : Type} (x : Act Op Reply L ε α) (l : L) : Act Op Reply L' ε α :=
  fun l' => (x l).bind fun r => .done (r.1, l')

/-- A complete execution: how it ends, and the state it leaves. -/
def run (sem : Meaning Op Reply S) (x : Act Op Reply L ε α) (l : L) (s : S) : Except ε α × S :=
  let ending := (x l).exec sem s
  (ending.1.1, ending.2)

/-! ### Rules -/

/-- `Q` for the exceptions, `k` for the results. -/
def onOk (Q : Except ε β → L → S → Prop) (k : α → L → S → Prop) : Except ε α → L → S → Prop
  | .ok a => k a
  | .error e => Q (.error e)

@[simp] theorem onOk_ok (Q : Except ε β → L → S → Prop) (k : α → L → S → Prop) (a : α) :
    onOk Q k (.ok a) = k a := rfl

@[simp] theorem onOk_error (Q : Except ε β → L → S → Prop) (k : α → L → S → Prop) (e : ε) :
    onOk Q k (.error e) = Q (.error e) := rfl

/-- The program ends only in results or exceptions, locals and states with `Q`. -/
def wp (T : OpSpec Op Reply S) (x : Act Op Reply L ε α) (Q : Except ε α → L → S → Prop) (l : L)
    (s : S) : Prop :=
  (x l).wp T (fun r s' => Q r.1 r.2 s') s

variable {T : OpSpec Op Reply S} {x : Act Op Reply L ε α} {Q Q' : Except ε α → L → S → Prop}
  {l : L} {s : S}

theorem wp_run {G : Op → S → Prop} {sem : Meaning Op Reply S} {Q : Except ε α → S → Prop}
    (h : x.wp (guarded G sem) (fun r _ s' => Q r s') l s) :
    Q (x.run sem l s).1 (x.run sem l s).2 :=
  wp_exec h

/-- The rest of an execution whose first part returns. -/
theorem exec_bind {sem : Meaning Op Reply S} {x : Act Op Reply L ε α} {f : α → Act Op Reply L ε β}
    {a : α} {l l' : L} {s s' : S} (h : (x l).exec sem s = ((.ok a, l'), s')) :
    ((x >>= f) l).exec sem s = (f a l').exec sem s' := by
  refine (Prog.exec_bind sem (x l) _ s).trans ?_
  rw [h]

theorem exec_captured {sem : Meaning Op Reply S} (x : Act Op Reply L ε α) (l : L) (s : S) :
    (x.captured l).exec sem s =
      ((.ok ((x l).exec sem s).1.1, ((x l).exec sem s).1.2), ((x l).exec sem s).2) :=
  Prog.exec_bind sem (x l) _ s

theorem exec_within {L' : Type} {sem : Meaning Op Reply S} (x : Act Op Reply L ε α) (l : L) (l' : L')
    (s : S) : ((x.within l : Act Op Reply L' ε α) l').exec sem s =
      ((((x l).exec sem s).1.1, l'), ((x l).exec sem s).2) :=
  Prog.exec_bind sem (x l) _ s

theorem wp_mono (h : x.wp T Q l s) (hQ : ∀ r l' s', Q r l' s' → Q' r l' s') : x.wp T Q' l s :=
  Prog.wp_mono (fun r s' => hQ r.1 r.2 s') h

theorem wp_free {sem : Meaning Op Reply S} (x : Act Op Reply L ε α) (l : L) (s : S) :
    x.wp (guarded (fun _ _ => True) sem) (fun _ _ _ => True) l s :=
  Programs.wp_free (x l) s

/-- A complete execution, with what it computes. -/
theorem wp_exact {sem : Meaning Op Reply S} (h : x.wp (guarded (fun _ _ => True) sem) Q l s) :
    x.wp (guarded (fun _ _ => True) sem)
      (fun r l' s' => Q r l' s' ∧ (x l).exec sem s = ((r, l'), s')) l s := by
  refine Prog.wp_mono (fun r s' hexec => ⟨?_, hexec⟩) (Programs.wp_exact (x l) s)
  have hQ := wp_exec h
  rwa [hexec] at hQ

@[simp] theorem wp_pure (a : α) : (pure a : Act Op Reply L ε α).wp T Q l s = Q (.ok a) l s := rfl

@[simp] theorem wp_fail (e : ε) : (fail e : Act Op Reply L ε α).wp T Q l s = Q (.error e) l s := rfl

@[simp] theorem wp_ofExcept (r : Except ε α) :
    (ofExcept r : Act Op Reply L ε α).wp T Q l s = Q r l s := rfl

@[simp] theorem wp_get {Q : Except ε L → L → S → Prop} :
    (get : Act Op Reply L ε L).wp T Q l s = Q (.ok l) l s := rfl

@[simp] theorem wp_modify {Q : Except ε Unit → L → S → Prop} (f : L → L) :
    (modify f : Act Op Reply L ε Unit).wp T Q l s = Q (.ok ()) (f l) s := rfl

@[simp] theorem wp_perform {o : Op} {Q : Except ε (Reply o) → L → S → Prop} :
    (perform o : Act Op Reply L ε (Reply o)).wp T Q l s =
      T.holds o s fun r s' => Q (.ok r) l s' := rfl

theorem wp_require {c : Prop} [Decidable c] {e : ε} {Q : Except ε Unit → L → S → Prop} :
    (require c e : Act Op Reply L ε Unit).wp T Q l s =
      if c then Q (.ok ()) l s else Q (.error e) l s := by
  unfold require
  split <;> rfl

theorem wp_when {c : Prop} [Decidable c] {x : Act Op Reply L ε Unit}
    {Q : Except ε Unit → L → S → Prop} :
    (Act.when c x).wp T Q l s = if c then x.wp T Q l s else Q (.ok ()) l s := by
  unfold when
  split <;> rfl

theorem wp_ite {c : Prop} [Decidable c] {y : Act Op Reply L ε α} :
    (if c then x else y).wp T Q l s = if c then x.wp T Q l s else y.wp T Q l s := by
  split <;> rfl

@[simp] theorem wp_bind {f : α → Act Op Reply L ε β} {Q : Except ε β → L → S → Prop} :
    (x >>= f).wp T Q l s = x.wp T (onOk Q fun a => (f a).wp T Q) l s := by
  refine (Prog.wp_bind T (x l) _ _ s).trans ?_
  unfold wp
  congr 1
  funext r s'
  obtain ⟨r, l'⟩ := r
  cases r <;> rfl

/-- The rule of sequence, from a specification of the first part. -/
theorem wp_seq {f : α → Act Op Reply L ε β} {Q : Except ε β → L → S → Prop}
    {R : Except ε α → L → S → Prop} (hx : x.wp T R l s)
    (hok : ∀ a l' s', R (.ok a) l' s' → (f a).wp T Q l' s')
    (herror : ∀ e l' s', R (.error e) l' s' → Q (.error e) l' s') : (x >>= f).wp T Q l s := by
  rw [wp_bind]
  refine wp_mono hx fun r l' s' h => ?_
  cases r with
  | ok a => exact hok a l' s' h
  | error e => exact herror e l' s' h

/-- The rule of an operation. -/
theorem wp_op {o : Op} {f : Reply o → Act Op Reply L ε β} {Q : Except ε β → L → S → Prop}
    (h : T.holds o s fun r s' => (f r).wp T Q l s') : (perform o >>= f).wp T Q l s := h

/-- The rule of an assignment. -/
theorem wp_set {g : L → L} {f : Unit → Act Op Reply L ε β} {Q : Except ε β → L → S → Prop}
    (h : (f ()).wp T Q (g l) s) : (modify g >>= f).wp T Q l s := h

/-- The rule of a check. -/
theorem wp_check {c : Prop} [Decidable c] {e : ε} {f : Unit → Act Op Reply L ε β}
    {Q : Except ε β → L → S → Prop} (hpassed : c → (f ()).wp T Q l s)
    (hfailed : ¬c → Q (.error e) l s) : (require c e >>= f).wp T Q l s := by
  rw [wp_bind, wp_require]
  split
  · exact hpassed ‹c›
  · exact hfailed ‹¬c›

/-- The rule of a computed result or exception. -/
theorem wp_result {r : Except ε α} {f : α → Act Op Reply L ε β} {Q : Except ε β → L → S → Prop}
    (hok : ∀ a, r = .ok a → (f a).wp T Q l s) (herror : ∀ e, r = .error e → Q (.error e) l s) :
    (ofExcept r >>= f).wp T Q l s := by
  cases r with
  | ok a => exact hok a rfl
  | error e => exact herror e rfl

/-- The rule of `except`. -/
theorem wp_onError {catches : ε → Bool} {handler : ε → Act Op Reply L ε α}
    {R : Except ε α → L → S → Prop} (hx : x.wp T R l s)
    (hok : ∀ a l' s', R (.ok a) l' s' → Q (.ok a) l' s')
    (hcaught : ∀ e l' s', R (.error e) l' s' → catches e = true → (handler e).wp T Q l' s')
    (hpassed : ∀ e l' s', R (.error e) l' s' → catches e = false → Q (.error e) l' s') :
    (x.onError catches handler).wp T Q l s := by
  unfold wp onError
  rw [Prog.wp_bind]
  refine Prog.wp_mono (fun r s' h => ?_) hx
  obtain ⟨r, l'⟩ := r
  cases r with
  | ok a => exact hok a l' s' h
  | error e =>
    by_cases hc : catches e = true
    · simp only [hc, if_true]
      exact hcaught e l' s' h hc
    · simp only [hc]
      exact hpassed e l' s' h (by simpa using hc)

/-- The rule of `finally`. -/
theorem wp_andFinally {last : Act Op Reply L ε Unit} {R : Except ε α → L → S → Prop}
    (hx : x.wp T R l s)
    (hlast : ∀ r l' s', R r l' s' → last.wp T (fun r' l'' s'' =>
      match r' with
      | .ok _ => Q r l'' s''
      | .error e => Q (.error e) l'' s'') l' s') : (x.andFinally last).wp T Q l s := by
  unfold wp andFinally
  rw [Prog.wp_bind]
  refine Prog.wp_mono (fun r s' h => ?_) hx
  rw [Prog.wp_bind]
  refine Prog.wp_mono (fun r' s'' h' => ?_) (hlast r.1 r.2 s' h)
  obtain ⟨r', l''⟩ := r'
  cases r' <;> exact h'

/-- The rule of a loop over a list: an invariant over the part already done. -/
theorem wp_forM {xs : List β} {f : β → Act Op Reply L ε Unit} {Q : Except ε Unit → L → S → Prop}
    (I : List β → L → S → Prop) (hstart : I [] l s)
    (hstep : ∀ before x after l' s', xs = before ++ x :: after → I before l' s' →
      (f x).wp T (onOk Q fun _ => I (before ++ [x])) l' s')
    (hend : ∀ l' s', I xs l' s' → Q (.ok ()) l' s') : (xs.forM f).wp T Q l s := by
  suffices h : ∀ after before l' s', xs = before ++ after → I before l' s' →
      (after.forM f).wp T Q l' s' from h xs [] l s rfl hstart
  intro after
  induction after with
  | nil =>
    intro before l' s' hxs hI
    rw [List.append_nil] at hxs
    exact hend l' s' (hxs ▸ hI)
  | cons x after ih =>
    intro before l' s' hxs hI
    refine wp_seq (hstep before x after l' s' hxs hI) (fun _ l'' s'' h => ?_) fun _ _ _ h => h
    exact ih (before ++ [x]) l'' s'' (by simpa using hxs) h

/-- The rule of a call. -/
theorem wp_within {L' : Type} {l' : L'} {Q : Except ε α → L' → S → Prop}
    (h : x.wp T (fun r _ s' => Q r l' s') l s) :
    (x.within l : Act Op Reply L' ε α).wp T Q l' s := by
  unfold wp within
  rw [Prog.wp_bind]
  exact h

/-! ### Invariants -/

/-- The program keeps an invariant of its locals and the state, however it ends. -/
def Keeps (T : OpSpec Op Reply S) (I : L → S → Prop) (x : Act Op Reply L ε α) : Prop :=
  ∀ l s, I l s → x.wp T (fun _ => I) l s

section Keeps
variable {I : L → S → Prop}

theorem keeps_pure (a : α) : Keeps T I (pure a : Act Op Reply L ε α) := fun _ _ h => h

theorem keeps_fail (e : ε) : Keeps T I (fail e : Act Op Reply L ε α) := fun _ _ h => h

theorem keeps_get : Keeps T I (get : Act Op Reply L ε L) := fun _ _ h => h

theorem keeps_ofExcept (r : Except ε α) : Keeps T I (ofExcept r : Act Op Reply L ε α) :=
  fun _ _ h => h

theorem keeps_modify {f : L → L} (h : ∀ l s, I l s → I (f l) s) :
    Keeps T I (modify f : Act Op Reply L ε Unit) := h

theorem keeps_require (c : Prop) [Decidable c] (e : ε) :
    Keeps T I (require c e : Act Op Reply L ε Unit) := by
  intro l s h
  rw [wp_require]
  split <;> exact h

theorem keeps_perform {o : Op} (h : ∀ l s, I l s → T.holds o s fun _ s' => I l s') :
    Keeps T I (perform o : Act Op Reply L ε (Reply o)) := h

theorem Keeps.bind {f : α → Act Op Reply L ε β} (hx : Keeps T I x) (hf : ∀ a, Keeps T I (f a)) :
    Keeps T I (x >>= f) :=
  fun l s h => wp_seq (hx l s h) (fun a l' s' h' => hf a l' s' h') fun _ _ _ h' => h'

theorem Keeps.ite {c : Prop} [Decidable c] {y : Act Op Reply L ε α} (hx : Keeps T I x)
    (hy : Keeps T I y) : Keeps T I (if c then x else y) := by
  split
  · exact hx
  · exact hy

theorem Keeps.when {c : Prop} [Decidable c] {x : Act Op Reply L ε Unit} (hx : Keeps T I x) :
    Keeps T I (Act.when c x) :=
  hx.ite (keeps_pure ())

theorem Keeps.onError {catches : ε → Bool} {handler : ε → Act Op Reply L ε α} (hx : Keeps T I x)
    (hh : ∀ e, Keeps T I (handler e)) : Keeps T I (x.onError catches handler) :=
  fun l s h => wp_onError (hx l s h) (fun _ _ _ h' => h') (fun e l' s' h' _ => hh e l' s' h')
    fun _ _ _ h' _ => h'

theorem Keeps.andFinally {last : Act Op Reply L ε Unit} (hx : Keeps T I x)
    (hlast : Keeps T I last) : Keeps T I (x.andFinally last) :=
  fun l s h => wp_andFinally (hx l s h) fun _ l' s' h' =>
    wp_mono (hlast l' s' h') fun r' _ _ h'' => by cases r' <;> exact h''

theorem keeps_forM {xs : List β} {f : β → Act Op Reply L ε Unit}
    (hf : ∀ x ∈ xs, Keeps T I (f x)) : Keeps T I (xs.forM f) := by
  induction xs with
  | nil => exact keeps_pure ()
  | cons x xs ih =>
    exact (hf x List.mem_cons_self).bind fun _ => ih fun y hy => hf y (List.mem_cons_of_mem x hy)

/-- A program of one kind of operations that keeps an invariant of its locals,
whatever the operations reply. -/
def Confined (ok : Op → Prop) (I : L → Prop) (x : Act Op Reply L ε α) : Prop :=
  Keeps (anyReply ok) (fun l _ => I l) x

theorem Confined.mono {ok ok' : Op → Prop} {I : L → Prop} (h : Confined ok I x)
    (hok : ∀ o, ok o → ok' o) : Confined ok' I x :=
  fun l s hl => anyReply_mono hok (h l s hl)

theorem confined_perform {ok : Op → Prop} {I : L → Prop} {o : Op} (h : ok o) :
    Confined ok I (perform o : Act Op Reply L ε (Reply o)) := fun _ _ hl => ⟨h, fun _ => hl⟩

/-- A confined program that ends in an exception. -/
def Refuses (ok : Op → Prop) (I : L → Prop) (x : Act Op Reply L ε α) : Prop :=
  ∀ l s, I l → x.wp (anyReply ok) (fun r l' _ => I l' ∧ ∃ e, r = .error e) l s

theorem Refuses.confined {ok : Op → Prop} {I : L → Prop} (h : Refuses ok I x) : Confined ok I x :=
  fun l s hl => wp_mono (h l s hl) fun _ _ _ h' => h'.1

theorem refuses_fail {ok : Op → Prop} {I : L → Prop} (e : ε) :
    Refuses ok I (fail e : Act Op Reply L ε α) := fun _ _ hl => ⟨hl, e, rfl⟩

/-- A check that fails. -/
theorem refuses_check {ok : Op → Prop} {I : L → Prop} {c : Prop} [Decidable c] {e : ε}
    {f : Unit → Act Op Reply L ε β} (h : ¬c) : Refuses ok I (require c e >>= f) :=
  fun _ _ hl => wp_check (fun hc => absurd hc h) fun _ => ⟨hl, e, rfl⟩

theorem Refuses.bind {ok : Op → Prop} {I : L → Prop} {f : α → Act Op Reply L ε β}
    (hx : Refuses ok I x) : Refuses ok I (x >>= f) := by
  intro l s hl
  refine wp_seq (hx l s hl) (fun a l' s' h => ?_) fun e l' s' h => ⟨h.1, e, rfl⟩
  obtain ⟨-, e, he⟩ := h
  cases he

theorem Confined.refuses_bind {ok : Op → Prop} {I : L → Prop} {f : α → Act Op Reply L ε β}
    (hx : Confined ok I x) (hf : ∀ a, Refuses ok I (f a)) : Refuses ok I (x >>= f) :=
  fun l s hl => wp_seq (hx l s hl) (fun a l' s' h => hf a l' s' h) fun e _ _ h => ⟨h, e, rfl⟩

/-- What the operations preserve of the state holds along with the locals. -/
theorem Confined.keeps {ok : Op → Prop} {I : L → Prop} {W : S → Prop} (h : Confined ok I x)
    (hW : ∀ o s, ok o → W s → T.holds o s fun _ => W) : Keeps T (fun l s => I l ∧ W s) x :=
  fun l _ hI => wp_of_anyReply hW (h l () hI.1) hI.2

end Keeps
end Act

/-! ## More operations

A program is also one over its operations and others. -/

section Left
variable {Op₂ : Type} {Reply₂ : Op₂ → Type}

abbrev Either (Reply : Op → Type) (Reply₂ : Op₂ → Type) : Op ⊕ Op₂ → Type
  | .inl o => Reply o
  | .inr o => Reply₂ o

def Prog.left : Prog Op Reply α → Prog (Op ⊕ Op₂) (Either Reply Reply₂) α
  | .done a => .done a
  | .op o next => .op (.inl o) fun r => (next r).left

def OpSpec.left (T : OpSpec (Op ⊕ Op₂) (Either Reply Reply₂) S) : OpSpec Op Reply S where
  holds o s K := T.holds (.inl o) s K
  mono hK h := T.mono hK h

theorem Prog.wp_left {T : OpSpec (Op ⊕ Op₂) (Either Reply Reply₂) S} {p : Prog Op Reply α}
    {Q : α → S → Prop} {s : S} (h : p.wp T.left Q s) : p.left.wp T Q s := by
  induction p generalizing s with
  | done a => exact h
  | op o next ih => exact T.mono (fun r s' h' => ih r h') h

def Act.left {L ε : Type} (x : Act Op Reply L ε α) : Act (Op ⊕ Op₂) (Either Reply Reply₂) L ε α :=
  fun l => (x l).left

theorem Act.wp_left {L ε : Type} {T : OpSpec (Op ⊕ Op₂) (Either Reply Reply₂) S}
    {x : Act Op Reply L ε α} {Q : Except ε α → L → S → Prop} {l : L} {s : S}
    (h : x.wp T.left Q l s) : x.left.wp T Q l s :=
  Prog.wp_left h

end Left
end RlmGraph.Lib.Programs
