/-
Programs that ask a server.

Such a program has no state of its own: it sends commands, one at a time, and goes on
with the reply.  A command may fail, and then the program fails, as a call that raises
does.  It can be run against a server, or followed along the exchanges of a history in
which others use the server too.
-/

import Mathlib.Logic.Basic

inductive Asking (Command : Type) (Reply : Command → Type) (Error Value : Type) : Type where
  | done (outcome : Except Error Value)
  | ask (command : Command)
      (resume : Except Error (Reply command) → Asking Command Reply Error Value)

namespace Asking

variable {Command : Type} {Reply : Command → Type} {Error Value Result : Type}

def bind : Asking Command Reply Error Value → (Value → Asking Command Reply Error Result) →
    Asking Command Reply Error Result
  | done (.ok value), next => next value
  | done (.error error), _ => done (.error error)
  | ask command resume, next => ask command (fun reply => (resume reply).bind next)

instance : Monad (Asking Command Reply Error) where
  pure value := done (.ok value)
  bind := bind

def ofExcept (outcome : Except Error Value) : Asking Command Reply Error Value :=
  done outcome

def request (command : Command) : Asking Command Reply Error (Reply command) :=
  ask command done

@[simp] theorem pure_eq (value : Value) :
    (pure value : Asking Command Reply Error Value) = done (.ok value) := rfl

@[simp] theorem bind_ok (value : Value) (next : Value → Asking Command Reply Error Result) :
    (done (.ok value) >>= next) = next value := rfl

@[simp] theorem bind_error (error : Error) (next : Value → Asking Command Reply Error Result) :
    (done (.error error) >>= next) = done (.error error) := rfl

@[simp] theorem request_bind (command : Command)
    (next : Reply command → Asking Command Reply Error Result) :
    (request command >>= next) = ask command (fun reply => done reply >>= next) := rfl

@[simp] theorem ofExcept_bind (outcome : Except Error Value)
    (next : Value → Asking Command Reply Error Result) :
    (ofExcept outcome >>= next) = (done outcome >>= next) := rfl

/-! ### Against a server -/

variable {Server : Type}

def run (serve : (command : Command) → Server → Server × Except Error (Reply command)) :
    Asking Command Reply Error Value → Server → Server × Except Error Value
  | done outcome, server => (server, outcome)
  | ask command resume, server =>
      run serve (resume (serve command server).2) (serve command server).1

variable (serve : (command : Command) → Server → Server × Except Error (Reply command))

@[simp] theorem run_done (outcome : Except Error Value) (server : Server) :
    (done outcome : Asking Command Reply Error Value).run serve server = (server, outcome) := rfl

@[simp] theorem run_ask (command : Command)
    (resume : Except Error (Reply command) → Asking Command Reply Error Value)
    (server : Server) :
    (ask command resume).run serve server =
      (resume (serve command server).2).run serve (serve command server).1 := rfl

/-- A program that returned goes on on the server it left. -/
theorem run_bind_ok {program : Asking Command Reply Error Value} {server left : Server}
    {value : Value} (ran : program.run serve server = (left, .ok value))
    (next : Value → Asking Command Reply Error Result) :
    (program >>= next).run serve server = (next value).run serve left := by
  induction program generalizing server with
  | done outcome =>
      cases ran
      rfl
  | ask command resume ih => exact ih _ ran

/-! ### Among the exchanges of others -/

abbrev Exchange (Command : Type) (Reply : Command → Type) (Error : Type) : Type :=
  (command : Command) × Except Error (Reply command)

inductive Follows : Asking Command Reply Error Value → List (Exchange Command Reply Error) →
    Asking Command Reply Error Value → Prop
  | here (program : Asking Command Reply Error Value) : Follows program [] program
  | exchange {command : Command} {trace : List (Exchange Command Reply Error)}
      {resume : Except Error (Reply command) → Asking Command Reply Error Value}
      {rest : Asking Command Reply Error Value} (reply : Except Error (Reply command))
      (onward : Follows (resume reply) trace rest) :
      Follows (ask command resume) (⟨command, reply⟩ :: trace) rest

theorem Follows.snoc {program : Asking Command Reply Error Value}
    {trace : List (Exchange Command Reply Error)} {command : Command}
    {resume : Except Error (Reply command) → Asking Command Reply Error Value}
    (follows : Follows program trace (ask command resume))
    (reply : Except Error (Reply command)) :
    Follows program (trace ++ [⟨command, reply⟩]) (resume reply) := by
  generalize left : ask command resume = rest at follows
  induction follows with
  | here program =>
      subst left
      exact Follows.exchange reply (Follows.here _)
  | exchange first _ ih => exact Follows.exchange first (ih left)

end Asking
