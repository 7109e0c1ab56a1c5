import Mathlib.Tactic

/-! # Transition systems

    A system is a set of initial states and a labelled step relation. `Reachable` is what its
    runs reach; `Guarded` keeps the steps whose label meets a condition in the state before. -/

namespace Transition

variable {σ α : Type} {init : σ → Prop} {step : σ → α → σ → Prop}

/-- The states of the runs from an initial state. -/
inductive Reachable (init : σ → Prop) (step : σ → α → σ → Prop) : σ → Prop where
  | init : ∀ {s}, init s → Reachable init step s
  | step : ∀ {s s'} a, Reachable init step s → step s a s' → Reachable init step s'

/-- The steps that meet a condition on the state they are taken in. -/
def Guarded (step : σ → α → σ → Prop) (guard : σ → α → Prop) : σ → α → σ → Prop :=
  fun s a s' => guard s a ∧ step s a s'

/-- What holds at first and is kept by every step holds throughout. -/
theorem Reachable.invariant {I : σ → Prop} (hinit : ∀ s, init s → I s)
    (hstep : ∀ s a s', I s → step s a s' → I s') {s : σ} (h : Reachable init step s) :
    I s := by
  induction h with
  | init h => exact hinit _ h
  | step a _ hs ih => exact hstep _ a _ ih hs

/-- A run of guarded steps is a run. -/
theorem Reachable.of_guarded {guard : σ → α → Prop} {s : σ}
    (h : Reachable init (Guarded step guard) s) : Reachable init step s := by
  induction h with
  | init h => exact .init h
  | step a _ hs ih => exact .step a ih hs.2

/-- A system each of whose steps is, seen through a map, a step of another system or nothing reaches
    what the other one does. -/
theorem Reachable.refines {τ β : Type} {init' : τ → Prop} {step' : τ → β → τ → Prop} (f : σ → τ)
    (hinit : ∀ s, init s → init' (f s))
    (hstep : ∀ s a s', step s a s' → f s' = f s ∨ ∃ b, step' (f s) b (f s')) {s : σ}
    (h : Reachable init step s) : Reachable init' step' (f s) := by
  induction h with
  | init h => exact .init (hinit _ h)
  | step a _ hs ih =>
    rcases hstep _ a _ hs with hsame | ⟨b, hb⟩
    · rwa [hsame]
    · exact .step b ih hb

/-- The runs from one state to another, with their labels. -/
inductive Run (step : σ → α → σ → Prop) : σ → List α → σ → Prop where
  | nil : ∀ s, Run step s [] s
  | cons : ∀ {s s' s''} a as, step s a s' → Run step s' as s'' → Run step s (a :: as) s''

theorem Run.append {s s' s'' : σ} {as bs : List α} (h : Run step s as s')
    (h' : Run step s' bs s'') : Run step s (as ++ bs) s'' := by
  induction h with
  | nil => exact h'
  | cons a as hs _ ih => exact .cons a _ hs (ih h')

/-- A run of steps that are steps of another system is a run of that. -/
theorem Run.mono {step' : σ → α → σ → Prop} (hstep : ∀ s a s', step s a s' → step' s a s')
    {s s' : σ} {as : List α} (h : Run step s as s') : Run step' s as s' := by
  induction h with
  | nil => exact .nil _
  | cons a as hs _ ih => exact .cons a as (hstep _ a _ hs) ih

/-- What a run from a reachable state leads to is reachable. -/
theorem Reachable.run {s s' : σ} {as : List α} (h : Reachable init step s) (hrun : Run step s as s') :
    Reachable init step s' := by
  induction hrun with
  | nil => exact h
  | cons a as hs _ ih => exact ih (.step a h hs)

/-- What holds and is kept by every step holds at the end of a run. -/
theorem Run.invariant {I : σ → Prop} (hstep : ∀ s a s', I s → step s a s' → I s') {s s' : σ}
    {as : List α} (h : Run step s as s') (hs : I s) : I s' := by
  induction h with
  | nil => exact hs
  | cons a as hstep' _ ih => exact ih (hstep _ a _ hs hstep')

/-- What a run adds to a log was added by one of its steps, and meets what that step gives. -/
theorem Run.added {β : Type} {log : σ → List β} {given : σ → α → β → Prop}
    (hstep : ∀ s a s', step s a s' → ∃ new, log s' = log s ++ new ∧ ∀ b ∈ new, given s a b)
    {s s' : σ} {as : List α} (h : Run step s as s') :
    ∃ new, log s' = log s ++ new ∧ ∀ b ∈ new, ∃ earlier a later mid,
      as = earlier ++ a :: later ∧ Run step s earlier mid ∧ given mid a b := by
  induction h with
  | nil s => exact ⟨[], (List.append_nil _).symm, fun _ h => absurd h List.not_mem_nil⟩
  | @cons s s' s'' a as hs _ ih =>
    obtain ⟨new, hnew, hgiven⟩ := hstep s a s' hs
    obtain ⟨rest, hrest, hrun⟩ := ih
    refine ⟨new ++ rest, by rw [hrest, hnew, List.append_assoc], ?_⟩
    intro b hb
    rcases List.mem_append.mp hb with hb | hb
    · exact ⟨[], a, as, s, rfl, .nil s, hgiven b hb⟩
    · obtain ⟨earlier, a', later, mid, rfl, hearlier, hmid⟩ := hrun b hb
      exact ⟨a :: earlier, a', later, mid, rfl, .cons a earlier hs hearlier, hmid⟩

/-- A loop that goes on only where a measure drops comes to an end. -/
theorem stops_of_measure {more : Nat → Prop} {measure : Nat → Nat}
    (hdrops : ∀ n, (∀ m < n, more m) → more n → measure (n + 1) < measure n) :
    ∃ n, (∀ m < n, more m) ∧ ¬ more n := by
  by_contra hnever
  push Not at hnever
  have hall : ∀ n, more n := by
    intro n
    induction n using Nat.strongRecOn with
    | _ n ih => exact hnever n ih
  -- a loop that never ends would count the measure down forever
  have hcount : ∀ n, measure n + n ≤ measure 0 := by
    intro n
    induction n with
    | zero => exact Nat.le_refl _
    | succ n ih =>
      have hdrop := hdrops n (fun m _ => hall m) (hall n)
      omega
  have hpast := hcount (measure 0 + 1)
  omega

end Transition
