/-
Runs of a transition system.

A step takes an action where the action is enabled.  A run is described by its actions,
so that what is asked of every step can be checked along them.
-/

import Mathlib.Logic.Basic

namespace Transition

variable {State Action : Type}

def run (step : State → Action → Option State) (state : State) : List Action → Option State
  | [] => some state
  | action :: rest => (step state action).bind (fun next => run step next rest)

/-- `holds` at every step of the run that the actions describe. -/
def Along (step : State → Action → Option State) (holds : State → Action → State → Prop)
    (state : State) : List Action → Prop
  | [] => True
  | action :: rest =>
      ∀ next, step state action = some next → holds state action next ∧ Along step holds next rest

instance decidableAlong (step : State → Action → Option State)
    (holds : State → Action → State → Prop)
    [∀ state action next, Decidable (holds state action next)] :
    ∀ (actions : List Action) (state : State), Decidable (Along step holds state actions)
  | [], _ => isTrue trivial
  | action :: rest, state =>
      match taken : step state action with
      | none => isTrue (fun next stepped => by rw [taken] at stepped; cases stepped)
      | some next =>
          have := decidableAlong step holds rest next
          decidable_of_iff (holds state action next ∧ Along step holds next rest)
            ⟨fun both other stepped => by
              rw [taken] at stepped
              cases stepped
              exact both, fun along => along next taken⟩

variable {step : State → Action → Option State}

theorem run_cons {state last : State} {action : Action} {rest : List Action}
    (ran : run step state (action :: rest) = some last) :
    ∃ next, step state action = some next ∧ run step next rest = some last :=
  Option.bind_eq_some_iff.mp ran

theorem run_append {state middle : State} {actions : List Action}
    (ran : run step state actions = some middle) (more : List Action) :
    run step state (actions ++ more) = run step middle more := by
  induction actions generalizing state with
  | nil =>
      cases ran
      rfl
  | cons action rest ih =>
      obtain ⟨next, taken, onward⟩ := run_cons ran
      rw [List.cons_append, run, taken]
      exact ih onward

theorem exists_run_append {state last : State} {actions more : List Action}
    (ran : run step state (actions ++ more) = some last) :
    ∃ middle, run step state actions = some middle ∧ run step middle more = some last := by
  induction actions generalizing state with
  | nil => exact ⟨state, rfl, ran⟩
  | cons action rest ih =>
      obtain ⟨next, taken, onward⟩ := run_cons ran
      obtain ⟨middle, first, second⟩ := ih onward
      exact ⟨middle, by rw [run, taken]; exact first, second⟩

theorem along_append {holds : State → Action → State → Prop} {state middle : State}
    {actions more : List Action} (ran : run step state actions = some middle)
    (first : Along step holds state actions) (second : Along step holds middle more) :
    Along step holds state (actions ++ more) := by
  induction actions generalizing state with
  | nil =>
      cases ran
      exact second
  | cons action rest ih =>
      obtain ⟨next, taken, onward⟩ := run_cons ran
      intro other stepped
      rw [taken] at stepped
      cases stepped
      obtain ⟨now, later⟩ := first next taken
      exact ⟨now, ih onward later⟩

theorem along_of_append {holds : State → Action → State → Prop} {state middle : State}
    {actions more : List Action} (ran : run step state actions = some middle)
    (along : Along step holds state (actions ++ more)) :
    Along step holds state actions ∧ Along step holds middle more := by
  induction actions generalizing state with
  | nil =>
      cases ran
      exact ⟨trivial, along⟩
  | cons action rest ih =>
      obtain ⟨next, taken, onward⟩ := run_cons ran
      obtain ⟨now, later⟩ := along next taken
      obtain ⟨first, second⟩ := ih onward later
      refine ⟨fun other stepped => ?_, second⟩
      rw [taken] at stepped
      cases stepped
      exact ⟨now, first⟩

theorem along_of_step {holds : State → Action → State → Prop}
    (every : ∀ state action next, step state action = some next → holds state action next)
    (state : State) (actions : List Action) : Along step holds state actions := by
  induction actions generalizing state with
  | nil => exact trivial
  | cons action rest ih => exact fun next taken => ⟨every state action next taken, ih next⟩

theorem along_of_all {may : Action → Prop} {actions : List Action}
    (allowed : ∀ action, action ∈ actions → may action) (state : State) :
    Along step (fun _ action _ => may action) state actions := by
  induction actions generalizing state with
  | nil => exact trivial
  | cons action rest ih =>
      intro next _
      exact ⟨allowed action List.mem_cons_self,
        ih (fun other member => allowed other (List.mem_cons_of_mem action member)) next⟩

/-- The invariant rule: it holds at the start, and every step that satisfies the
condition keeps it. -/
theorem invariant_of_along {may : State → Action → Prop} (inv : State → Prop)
    (kept : ∀ state action next, inv state → may state action →
      step state action = some next → inv next)
    {state last : State} {actions : List Action} (initially : inv state)
    (allowed : Along step (fun state action _ => may state action) state actions)
    (ran : run step state actions = some last) : inv last := by
  induction actions generalizing state with
  | nil =>
      cases ran
      exact initially
  | cons action rest ih =>
      obtain ⟨next, taken, onward⟩ := run_cons ran
      have both := allowed next taken
      exact ih (kept state action next initially both.1 taken) both.2 onward

/-- The invariant rule where every step keeps it. -/
theorem invariant_of_step (inv : State → Prop)
    (kept : ∀ state action next, inv state → step state action = some next → inv next)
    {state last : State} {actions : List Action} (initially : inv state)
    (ran : run step state actions = some last) : inv last := by
  have allowed : Along step (fun _ _ _ => True) state actions :=
    along_of_step (fun _ _ _ _ => trivial) state actions
  exact invariant_of_along inv (fun state action next holds _ => kept state action next holds)
    initially allowed ran

/-- Where a property is lost by some steps, and never comes back, it holds at the end of a run
exactly if no step of the run lost it. -/
theorem iff_along {inv : State → Prop} {loses : State → Action → Prop}
    (each : ∀ state action next, step state action = some next →
      (inv next ↔ inv state ∧ ¬loses state action))
    {state last : State} {actions : List Action} (ran : run step state actions = some last) :
    inv last ↔
      inv state ∧ Along step (fun state action _ => ¬loses state action) state actions := by
  induction actions generalizing state with
  | nil =>
      cases ran
      exact (and_iff_left trivial).symm
  | cons action rest ih =>
      obtain ⟨next, taken, onward⟩ := run_cons ran
      rw [ih onward, each state action next taken, and_assoc]
      refine and_congr_right fun _ => ⟨fun both other stepped => ?_, fun along => along next taken⟩
      rw [taken] at stepped
      cases stepped
      exact both

/-- The ranking rule: while the goal is not reached some step can be taken that keeps the
invariant, and every such step lowers the rank.  Then every run that keeps it can be continued to
the goal. -/
theorem exists_run_to {may : Action → Prop} {inv goal : State → Prop} {rank : State → Nat}
    (kept : ∀ state action next, inv state → may action → step state action = some next → inv next)
    (lower : ∀ state action next, inv state → may action → step state action = some next →
      rank next < rank state)
    (progress : ∀ state, inv state → ¬goal state →
      ∃ action next, may action ∧ step state action = some next) {state : State}
    (initially : inv state) :
    ∃ actions last, (∀ action, action ∈ actions → may action) ∧
      run step state actions = some last ∧ goal last := by
  induction isRank : rank state using Nat.strongRecOn generalizing state with
  | ind count ih =>
      by_cases reached : goal state
      · exact ⟨[], state, nofun, rfl, reached⟩
      · obtain ⟨action, next, allowed, taken⟩ := progress state initially reached
        have fewer := lower state action next initially allowed taken
        rw [isRank] at fewer
        obtain ⟨actions, last, all, ran, isGoal⟩ :=
          ih (rank next) fewer (kept state action next initially allowed taken) rfl
        refine ⟨action :: actions, last, ?_, by rw [run, taken]; exact ran, isGoal⟩
        intro other member
        rcases List.mem_cons.mp member with same | later
        · rw [same]
          exact allowed
        · exact all other later

theorem invariant_of_all {may : Action → Prop} {inv : State → Prop}
    (kept : ∀ state action next, inv state → may action → step state action = some next → inv next)
    {state last : State} {actions : List Action} (initially : inv state)
    (allowed : ∀ action, action ∈ actions → may action)
    (ran : run step state actions = some last) : inv last :=
  invariant_of_along inv kept initially (along_of_all allowed state) ran

/-- A run whose steps lower the rank is no longer than the rank. -/
theorem length_le_rank {may : Action → Prop} {inv : State → Prop} {rank : State → Nat}
    (kept : ∀ state action next, inv state → may action → step state action = some next → inv next)
    (lower : ∀ state action next, inv state → may action → step state action = some next →
      rank next < rank state) {state last : State} {actions : List Action} (initially : inv state)
    (allowed : ∀ action, action ∈ actions → may action)
    (ran : run step state actions = some last) : actions.length + rank last ≤ rank state := by
  induction actions generalizing state with
  | nil =>
      cases ran
      exact Nat.le_of_eq (Nat.zero_add _)
  | cons action rest ih =>
      obtain ⟨next, taken, onward⟩ := run_cons ran
      have now := allowed action List.mem_cons_self
      have shorter := ih (kept state action next initially now taken)
        (fun other member => allowed other (List.mem_cons_of_mem action member)) onward
      have fewer := lower state action next initially now taken
      rw [List.length_cons]
      omega

def observed {Seen : Type} (step : State → Action → Option State)
    (observe : State → Action → Option Seen) (state : State) : List Action → List Seen
  | [] => []
  | action :: rest =>
      match step state action with
      | none => []
      | some next => (observe state action).toList ++ observed step observe next rest

theorem observed_append {Seen : Type} {observe : State → Action → Option Seen}
    {state middle : State} {actions : List Action} (ran : run step state actions = some middle)
    (more : List Action) :
    observed step observe state (actions ++ more) =
      observed step observe state actions ++ observed step observe middle more := by
  induction actions generalizing state with
  | nil =>
      cases ran
      rfl
  | cons action rest ih =>
      obtain ⟨next, taken, onward⟩ := run_cons ran
      rw [List.cons_append, observed, taken, observed, taken]
      exact (congrArg _ (ih onward)).trans (List.append_assoc _ _ _).symm

/-- The invariant rule with a history: what a step adds to the history keeps the invariant. -/
theorem invariant_of_observed {Seen : Type} {observe : State → Action → Option Seen}
    (inv : List Seen → State → Prop)
    (kept : ∀ seen state action next, inv seen state → step state action = some next →
      inv (seen ++ (observe state action).toList) next)
    {seen : List Seen} {state last : State} {actions : List Action} (initially : inv seen state)
    (ran : run step state actions = some last) :
    inv (seen ++ observed step observe state actions) last := by
  induction actions generalizing seen state with
  | nil =>
      cases ran
      rw [observed, List.append_nil]
      exact initially
  | cons action rest ih =>
      obtain ⟨next, taken, onward⟩ := run_cons ran
      rw [observed, taken, ← List.append_assoc]
      exact ih (kept seen state action next initially taken) onward

/-- Some action of the run, given those before it. -/
def Occurs (happens : List Action → Action → Prop) (actions : List Action) : Prop :=
  ∃ earlier action later, actions = earlier ++ action :: later ∧ happens earlier action

theorem not_occurs_nil {happens : List Action → Action → Prop} : ¬Occurs happens [] := by
  rintro ⟨earlier, action, later, split, _⟩
  cases earlier <;> cases split

theorem occurs_concat {happens : List Action → Action → Prop} {actions : List Action}
    {action : Action} :
    Occurs happens (actions ++ [action]) ↔ Occurs happens actions ∨ happens actions action := by
  constructor
  · rintro ⟨earlier, other, later, split, holds⟩
    rcases List.eq_nil_or_concat later with none | ⟨rest, last, isLater⟩
    · rw [none] at split
      obtain ⟨same, isOther⟩ := List.append_inj' split rfl
      cases isOther
      rw [same]
      exact Or.inr holds
    · rw [isLater, List.concat_eq_append, ← List.cons_append, ← List.append_assoc] at split
      exact Or.inl ⟨earlier, other, rest, (List.append_inj' split rfl).1, holds⟩
  · rintro (⟨earlier, other, later, rfl, holds⟩ | holds)
    · exact ⟨earlier, other, later ++ [action], by rw [List.append_assoc]; rfl, holds⟩
    · exact ⟨actions, action, [], rfl, holds⟩

end Transition
