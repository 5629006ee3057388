/-
What a run delivers.

A step may hand out messages, each addressed to a port.  The inbox of a port is what
has been addressed to it, in order.  A relation between two configurations and what
was handed out in between carries over from steps to runs if it composes.
-/

import AsPlatform.Library.EventSystem

namespace Reentrant

variable {State Request Error Label Port Message : Type}

def inbox [DecidableEq Port] (port : Port) (deliveries : List (Port × Message)) :
    List Message :=
  (deliveries.filter fun delivery => delivery.1 = port).map Prod.snd

section Inbox

variable [DecidableEq Port]

@[simp] theorem inbox_nil (port : Port) : inbox port ([] : List (Port × Message)) = [] := rfl

@[simp] theorem inbox_singleton (port target : Port) (message : Message) :
    inbox port [(target, message)] = if target = port then [message] else [] := by
  unfold inbox
  by_cases same : target = port <;> simp [same]

@[simp] theorem inbox_append (port : Port) (earlier later : List (Port × Message)) :
    inbox port (earlier ++ later) = inbox port earlier ++ inbox port later := by
  unfold inbox
  rw [List.filter_append, List.map_append]

end Inbox

namespace System

variable (system : System State Request Error Label)

/-- What the steps of a run hand out, in order. -/
def delivered (hands : Config State Request Error → Action Label → List (Port × Message))
    (config : Config State Request Error) : List (Action Label) → List (Port × Message)
  | [] => []
  | action :: rest =>
      match system.step config action with
      | none => []
      | some next => hands config action ++ delivered hands next rest

variable {system}

/-- The composition rule: what relates the ends of every step relates those of a run. -/
theorem relates_run
    {hands : Config State Request Error → Action Label → List (Port × Message)}
    (relates : Config State Request Error → List (Port × Message) →
      Config State Request Error → Prop)
    (inv : Config State Request Error → Prop)
    (nothing : ∀ config, relates config [] config)
    (compose : ∀ first earlier second later third, relates first earlier second →
      relates second later third → relates first (earlier ++ later) third)
    (kept : ∀ config action next, inv config → system.step config action = some next →
      inv next ∧ relates config (hands config action) next)
    (actions : List (Action Label)) {start last : Config State Request Error}
    (initially : inv start) (ran : system.run start actions = some last) :
    relates start (system.delivered hands start actions) last := by
  induction actions generalizing start with
  | nil =>
      cases ran
      exact nothing _
  | cons action rest ih =>
      cases taken : system.step start action with
      | none => simp [run, taken] at ran
      | some next =>
          have onward : system.run next rest = some last := by
            simpa [run, taken] using ran
          obtain ⟨held, related⟩ := kept start action next initially taken
          simp only [delivered, taken]
          exact compose _ _ _ _ _ related (ih held onward)

end System

end Reentrant
