/-
Straight-line programs.

Such a program takes steps of its own and makes calls out, one after the other.  Where a call
raises it stops, and the steps that it has taken by then are all it has done.
-/

import AsPlatform.Library.Playing

namespace Reentrant

variable {State Request Error Step : Type}

inductive Line (Step Request : Type) where
  | act (step : Step)
  | ask (request : Request)
  deriving DecidableEq

namespace Line

/-- The program with these lines; `apply` is what a step does to the state. -/
def program (apply : State → Step → State) :
    List (Line Step Request) → Handler State Request Error Unit
  | [] => pure ()
  | .act step :: rest => do
      Handler.modify fun state => apply state step
      program apply rest
  | .ask request :: rest => do
      Handler.callOut request
      program apply rest

/-- The steps before the first call that raises. -/
def taken (answer : Request → Except Error Unit) : List (Line Step Request) → List Step
  | [] => []
  | .act step :: rest => step :: taken answer rest
  | .ask request :: rest =>
      match answer request with
      | .ok _ => taken answer rest
      | .error _ => []

def steps : List (Line Step Request) → List Step
  | [] => []
  | .act step :: rest => step :: steps rest
  | .ask _ :: rest => steps rest

variable (apply : State → Step → State) (answer : Request → Except Error Unit)

theorem program_state (lines : List (Line Step Request)) (state : State) :
    ((program apply lines state : Prog State Request Error Unit).play answer).state =
      (taken answer lines).foldl apply state := by
  induction lines generalizing state with
  | nil => rfl
  | cons line rest ih =>
      cases line with
      | act step =>
          rw [program, Handler.run_bind, Handler.run_modify, Prog.bind_ok]
          exact ih (apply state step)
      | ask request =>
          rw [program, Handler.run_bind, Handler.run_callOut, Prog.play_bind, Prog.play_call,
            Prog.play_ret, taken]
          cases answer request with
          | ok value => exact ih state
          | error error => rfl

/-- A program that returns has taken all its steps. -/
theorem taken_of_returned (lines : List (Line Step Request)) (state : State)
    (returned : ((program apply lines state : Prog State Request Error Unit).play answer).result =
      .ok ()) : taken answer lines = steps lines := by
  induction lines generalizing state with
  | nil => rfl
  | cons line rest ih =>
      cases line with
      | act step =>
          rw [program, Handler.run_bind, Handler.run_modify, Prog.bind_ok] at returned
          rw [taken, steps, ih _ returned]
      | ask request =>
          rw [program, Handler.run_bind, Handler.run_callOut, Prog.play_bind, Prog.play_call,
            Prog.play_ret] at returned
          rw [taken, steps]
          cases answered : answer request with
          | ok value =>
              rw [answered] at returned
              exact ih _ returned
          | error error =>
              rw [answered] at returned
              cases returned

end Line

end Reentrant
