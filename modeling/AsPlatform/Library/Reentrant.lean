/-
Components that call out and may be re-entered.

A handler runs on the state of its component until it returns, raises, or calls
out.  While a call is out the environment may enter the component again, to any
depth, so what is left of the handler is a function of the state it finds when
the call comes back.  This module has the programs, the handlers as a monad, and
the equations by which a handler is run.
-/

import Mathlib.Logic.Basic

namespace Reentrant

variable {State Request Error Value Result : Type}

/-- One activation of a handler: where it stopped, and why. -/
inductive Prog (State Request Error Value : Type) : Type where
  | ret (state : State) (result : Except Error Value)
  | call (state : State) (request : Request)
      (resume : State → Except Error Unit → Prog State Request Error Value)

namespace Prog

def stop : Prog State Request Error Value → State
  | ret state _ => state
  | call state _ _ => state

def bind : Prog State Request Error Value →
    (State → Value → Prog State Request Error Result) → Prog State Request Error Result
  | ret state (.ok value), next => next state value
  | ret state (.error error), _ => ret state (.error error)
  | call state request resume, next =>
      call state request (fun back result => (resume back result).bind next)

/-- `try … finally cleanup`: the clean-up runs on a return and on an exception. -/
def ensure (cleanup : State → State) :
    Prog State Request Error Value → Prog State Request Error Value
  | ret state result => ret (cleanup state) result
  | call state request resume =>
      call state request (fun back result => (resume back result).ensure cleanup)

@[simp] theorem bind_ok (state : State) (value : Value)
    (next : State → Value → Prog State Request Error Result) :
    (ret state (.ok value)).bind next = next state value := rfl

@[simp] theorem bind_error (state : State) (error : Error)
    (next : State → Value → Prog State Request Error Result) :
    (ret state (.error error)).bind next = ret state (.error error) := rfl

@[simp] theorem bind_call (state : State) (request : Request)
    (resume : State → Except Error Unit → Prog State Request Error Value)
    (next : State → Value → Prog State Request Error Result) :
    (call state request resume).bind next =
      call state request (fun back result => (resume back result).bind next) := rfl

theorem bind_assoc {Last : Type} (program : Prog State Request Error Value)
    (next : State → Value → Prog State Request Error Result)
    (last : State → Result → Prog State Request Error Last) :
    (program.bind next).bind last =
      program.bind (fun state value => (next state value).bind last) := by
  induction program with
  | ret state result => cases result <;> rfl
  | call state request resume ih =>
      simp only [bind_call, call.injEq, true_and]
      funext back result
      exact ih back result

@[simp] theorem ensure_ret (cleanup : State → State) (state : State)
    (result : Except Error Value) :
    (ret state result : Prog State Request Error Value).ensure cleanup =
      ret (cleanup state) result := rfl

@[simp] theorem ensure_call (cleanup : State → State) (state : State) (request : Request)
    (resume : State → Except Error Unit → Prog State Request Error Value) :
    (call state request resume).ensure cleanup =
      call state request (fun back result => (resume back result).ensure cleanup) := rfl

@[simp] theorem stop_ret (state : State) (result : Except Error Value) :
    (ret state result : Prog State Request Error Value).stop = state := rfl

@[simp] theorem stop_call (state : State) (request : Request)
    (resume : State → Except Error Unit → Prog State Request Error Value) :
    (call state request resume).stop = state := rfl

end Prog

def Handler (State Request Error Value : Type) : Type :=
  State → Prog State Request Error Value

namespace Handler

instance : Monad (Handler State Request Error) where
  pure value := fun state => .ret state (.ok value)
  bind first next := fun state => (first state).bind (fun middle value => next value middle)

def get : Handler State Request Error State :=
  fun state => .ret state (.ok state)

def modify (change : State → State) : Handler State Request Error Unit :=
  fun state => .ret (change state) (.ok ())

def raise (error : Error) : Handler State Request Error Value :=
  fun state => .ret state (.error error)

def ofExcept (result : Except Error Value) : Handler State Request Error Value :=
  fun state => .ret state result

/-- Give control to the environment; what it does to the state is not known. -/
def callOut (request : Request) : Handler State Request Error Unit :=
  fun state => .call state request (fun back result => .ret back result)

def ensure (body : Handler State Request Error Value) (cleanup : State → State) :
    Handler State Request Error Value :=
  fun state => (body state).ensure cleanup

@[simp] theorem run_pure (value : Value) (state : State) :
    (pure value : Handler State Request Error Value) state = .ret state (.ok value) := rfl

@[simp] theorem run_bind (first : Handler State Request Error Value)
    (next : Value → Handler State Request Error Result) (state : State) :
    (first >>= next) state = (first state).bind (fun middle value => next value middle) := rfl

@[simp] theorem run_get (state : State) :
    (get : Handler State Request Error State) state = .ret state (.ok state) := rfl

@[simp] theorem run_modify (change : State → State) (state : State) :
    (modify change : Handler State Request Error Unit) state =
      .ret (change state) (.ok ()) := rfl

@[simp] theorem run_raise (error : Error) (state : State) :
    (raise error : Handler State Request Error Value) state = .ret state (.error error) := rfl

@[simp] theorem run_ofExcept (result : Except Error Value) (state : State) :
    (ofExcept result : Handler State Request Error Value) state = .ret state result := rfl

@[simp] theorem run_callOut (request : Request) (state : State) :
    (callOut request : Handler State Request Error Unit) state =
      .call state request (fun back result => .ret back result) := rfl

@[simp] theorem run_ensure (body : Handler State Request Error Value)
    (cleanup : State → State) (state : State) :
    (body.ensure cleanup) state = (body state).ensure cleanup := rfl

end Handler

end Reentrant
