import RlmGraph.Lib.Programs
import Mathlib.Data.List.Basic

/-! # Pools of threads

Any number of programs that share a state and may start others. A thread has a
role, which its operations may depend on. The rule of pools (`PoolSpec.run`)
gives every thread a phase of its own and asks for two things: each program
keeps the contract of its role by its own phases, for every legal reply, and an
operation of one thread leaves the phases of the others and an invariant of all
phases and the state alone. -/
namespace RlmGraph.Lib.Programs

variable {Op : Type} {Reply : Op → Type} {S σ ρ α : Type}

/-- The operations by their labels, for the replies a thread relies on. -/
def contract (allowed : σ → Op → Prop) (legal : (o : Op) → Reply o → Prop)
    (moves : σ → (o : Op) → Reply o → σ) : OpSpec Op Reply σ where
  holds o s K := allowed s o ∧ ∀ r, legal o r → K r (moves s o r)
  mono hK h := ⟨h.1, fun r hr => hK r _ (h.2 r hr)⟩

abbrev Thread (Op : Type) (Reply : Op → Type) (ρ α : Type) := ρ × Prog Op Reply α

structure Pool (Op : Type) (Reply : Op → Type) (S ρ α : Type) where
  threads : List (Thread Op Reply ρ α)
  state : S

/-- What comes of an operation: the reply, the state and the threads it starts. -/
structure Outcome (Op : Type) (Reply : Op → Type) (S ρ α : Type) (o : Op) where
  reply : Reply o
  state : S
  started : List (Thread Op Reply ρ α) := []

/-- What the operation of a thread comes to; `none` when the thread has to wait. -/
abbrev PoolMeaning (Op : Type) (Reply : Op → Type) (S ρ α : Type) :=
  ρ → (o : Op) → S → Option (Outcome Op Reply S ρ α o)

namespace Pool

/-- A new thread. -/
def start (pool : Pool Op Reply S ρ α) (thread : Thread Op Reply ρ α) : Pool Op Reply S ρ α :=
  ⟨pool.threads ++ [thread], pool.state⟩

/-- A thread performs its next operation. -/
def turn (sem : PoolMeaning Op Reply S ρ α) (i : Nat) (pool : Pool Op Reply S ρ α) :
    Pool Op Reply S ρ α :=
  match pool.threads[i]? with
  | some (role, .op o next) =>
    match sem role o pool.state with
    | some outcome =>
      ⟨pool.threads.set i (role, next outcome.reply) ++ outcome.started, outcome.state⟩
    | none => pool
  | _ => pool

/-- The roles of the threads. -/
def roles (pool : Pool Op Reply S ρ α) : List ρ := pool.threads.map (·.1)

theorem turn_cases (sem : PoolMeaning Op Reply S ρ α) (i : Nat) (pool : Pool Op Reply S ρ α) :
    pool.turn sem i = pool ∨ ∃ role o next outcome, pool.threads[i]? = some (role, .op o next) ∧
      sem role o pool.state = some outcome ∧ pool.turn sem i =
        ⟨pool.threads.set i (role, next outcome.reply) ++ outcome.started, outcome.state⟩ := by
  unfold turn
  split
  · rename_i role o next hthread
    cases houtcome : sem role o pool.state with
    | none => exact Or.inl rfl
    | some outcome => exact Or.inr ⟨role, o, next, outcome, hthread, houtcome, rfl⟩
  · exact Or.inl rfl

end Pool

/-! ## The rule -/

/-- Every thread keeps the contract `T` of its role from the phase it is in, and
`W` holds of the roles, the phases and the state. -/
structure PoolSpec (T : ρ → OpSpec Op Reply σ) (Q : ρ → α → σ → Prop)
    (W : List ρ → (Nat → σ) → S → Prop) (phase : Nat → σ) (pool : Pool Op Reply S ρ α) : Prop where
  threads : ∀ i role (p : Prog Op Reply α), pool.threads[i]? = some (role, p) →
    p.wp (T role) (Q role) (phase i)
  world : W pool.roles phase pool.state

section
variable {T : ρ → OpSpec Op Reply σ} {Q : ρ → α → σ → Prop}
  {W : List ρ → (Nat → σ) → S → Prop} {phase : Nat → σ} {pool : Pool Op Reply S ρ α}

/-- A new thread may begin in any phase that suits its program and the others. -/
theorem PoolSpec.start {thread : Thread Op Reply ρ α} (h : PoolSpec T Q W phase pool) (first : σ)
    (hthread : thread.2.wp (T thread.1) (Q thread.1) first)
    (hworld : W (pool.roles ++ [thread.1]) (Function.update phase pool.threads.length first)
      pool.state) :
    PoolSpec T Q W (Function.update phase pool.threads.length first) (pool.start thread) where
  threads := by
    intro i role p hget
    rcases Nat.lt_trichotomy i pool.threads.length with hlt | rfl | hlt
    · rw [Function.update_of_ne (Nat.ne_of_lt hlt)]
      exact h.threads i role p (by rwa [Pool.start, List.getElem?_append_left hlt] at hget)
    · rw [Pool.start, List.getElem?_append_right (Nat.le_refl _), Nat.sub_self] at hget
      cases hget
      rw [Function.update_self]
      exact hthread
    · rw [Pool.start, List.getElem?_eq_none (by simp; omega)] at hget
      cases hget
  world := by
    rw [Pool.roles, Pool.start, List.map_append]
    exact hworld

/-- The phases after an operation of thread `i`: its own has moved, the others
are as they were, and the threads it has started are in theirs. -/
structure Moved (T : ρ → OpSpec Op Reply σ) (Q : ρ → α → σ → Prop)
    (W : List ρ → (Nat → σ) → S → Prop) (roles : List ρ) (phase : Nat → σ) (i : Nat) {o : Op}
    (K : Reply o → σ → Prop) (outcome : Outcome Op Reply S ρ α o) (phase' : Nat → σ) : Prop where
  own : K outcome.reply (phase' i)
  others : ∀ j, j < roles.length → j ≠ i → phase' j = phase j
  started : ∀ k role (p : Prog Op Reply α), outcome.started[k]? = some (role, p) →
    p.wp (T role) (Q role) (phase' (roles.length + k))
  world : W (roles ++ outcome.started.map (·.1)) phase' outcome.state

/-- **The rule of pools**, for one operation. -/
theorem PoolSpec.turn {sem : PoolMeaning Op Reply S ρ α} (h : PoolSpec T Q W phase pool) (i : Nat)
    (hstep : ∀ role o next outcome (K : Reply o → σ → Prop),
      pool.threads[i]? = some (role, .op o next) → pool.roles[i]? = some role →
      sem role o pool.state = some outcome → (T role).holds o (phase i) K →
      ∃ phase', Moved T Q W pool.roles phase i K outcome phase') :
    ∃ phase', PoolSpec T Q W phase' (pool.turn sem i) := by
  rcases pool.turn_cases sem i with hsame | ⟨role, o, next, outcome, hget, houtcome, hturn⟩
  · rw [hsame]
    exact ⟨phase, h⟩
  · have hrole : pool.roles[i]? = some role := by simp [Pool.roles, hget]
    obtain ⟨phase', hmoved⟩ := hstep role o next outcome _ hget hrole houtcome
      (h.threads i role _ hget)
    have hlength : pool.roles.length = pool.threads.length := List.length_map _
    rw [hturn]
    refine ⟨phase', ⟨fun j role' p hj => ?_, ?_⟩⟩
    · by_cases hlt : j < pool.threads.length
      · rw [List.getElem?_append_left (by simpa using hlt)] at hj
        by_cases heq : j = i
        · subst heq
          rw [List.getElem?_set_self hlt] at hj
          cases hj
          exact hmoved.own
        · rw [List.getElem?_set_ne (Ne.symm heq)] at hj
          rw [hmoved.others j (hlength ▸ hlt) heq]
          exact h.threads j role' p hj
      · rw [List.getElem?_append_right (by simpa using hlt), List.length_set] at hj
        have hstarted := hmoved.started _ role' p hj
        rwa [hlength, Nat.add_sub_of_le (Nat.le_of_not_lt hlt)] at hstarted
    · have hroles : (pool.threads.set i (role, next outcome.reply) ++ outcome.started).map (·.1) =
          pool.roles ++ outcome.started.map (·.1) := by
        rw [List.map_append, List.map_set]
        congr 1
        obtain ⟨hlt, hrole⟩ := List.getElem?_eq_some_iff.mp hrole
        rw [← hrole]
        exact List.set_getElem_self hlt
      rw [Pool.roles, hroles]
      exact hmoved.world

end
end RlmGraph.Lib.Programs
