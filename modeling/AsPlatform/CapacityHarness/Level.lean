/-
One level of the capacity driver, `_run_level`, as its threads run it.

The main thread, one worker for each offered call and the thread in which the worker drives
its call take their steps in any order.  How a call ends is up to the factory: a call that
ends in time does so before its worker has waited for the timeout, any other only later.
-/

import AsPlatform.Library.Threads

namespace AsPlatform

namespace CapacityDriver

/-- How an invocation of the call factory ends, within the timeout or after it. -/
inductive CallOutcome where
  | returns (inTime : Bool)
  | raises (inTime : Bool)
  | never
  deriving DecidableEq

def CallOutcome.inTime : CallOutcome → Bool
  | .returns inTime => inTime
  | .raises inTime => inTime
  | .never => false

structure CapacityLevelResult (Gap : Type) where
  level : Nat
  completed : Nat
  timedOut : Nat
  loopGapMs : Option Gap
  deriving DecidableEq

inductive WorkerPhase where
  | unstarted
  | started
  | atBarrier
  | released
  | waiting
  | reaping (finished : Bool)
  | locking (finished : Bool)
  | loading (finished : Bool)
  | storing (finished : Bool) (loaded : Nat)
  | unlocking (finished : Bool)
  | ended (finished : Bool)
  deriving DecidableEq

def WorkerPhase.finished? : WorkerPhase → Option Bool
  | .reaping finished => some finished
  | .locking finished => some finished
  | .loading finished => some finished
  | .storing finished _ => some finished
  | .unlocking finished => some finished
  | .ended finished => some finished
  | _ => none

/-- `done` is the event that the thread of the call sets when the call has ended. -/
structure Worker where
  phase : WorkerPhase
  done : Bool
  deriving DecidableEq

structure Shared where
  arrived : Nat
  lock : Option Nat
  completed : Nat
  timedOut : Nat
  deriving DecidableEq

def Shared.counter (shared : Shared) : Bool → Nat
  | true => shared.completed
  | false => shared.timedOut

def Shared.setCounter (shared : Shared) (value : Nat) : Bool → Shared
  | true => { shared with completed := value }
  | false => { shared with timedOut := value }

inductive MainPhase (Gap : Type) where
  | starting (next : Nat)
  | atBarrier
  | joining (next : Nat)
  | returned (result : CapacityLevelResult Gap)
  deriving DecidableEq

structure Level (Gap : Type) where
  level : Nat
  shared : Shared
  workers : List Worker
  main : MainPhase Gap
  deriving DecidableEq

inductive LevelAction where
  | main
  | worker (index : Nat)
  | call (index : Nat)
  | graceExpires
  deriving DecidableEq

def Level.initial {Gap : Type} (level : Nat) : Level Gap where
  level := level
  shared := { arrived := 0, lock := none, completed := 0, timedOut := 0 }
  workers := List.replicate level { phase := .unstarted, done := false }
  main := .starting 0

/-! ### Steps -/

/-- A step of `worker()`: the threads that wait at the barrier are released when the last
one has arrived, and a counter is read and written under the lock. -/
def workerStep (parties : Nat) (outcome : CallOutcome) (index : Nat) (shared : Shared)
    (worker : Worker) : Option (Shared × Worker) :=
  match worker.phase with
  | .unstarted => none
  | .started => some ({ shared with arrived := shared.arrived + 1 },
      { worker with phase := .atBarrier })
  | .atBarrier =>
      if parties ≤ shared.arrived then some (shared, { worker with phase := .released })
      else none
  | .released => some (shared, { worker with phase := .waiting })
  | .waiting =>
      if worker.done = true then some (shared, { worker with phase := .reaping true })
      else if outcome.inTime = true then none
      else some (shared, { worker with phase := .reaping false })
  | .reaping finished => some (shared, { worker with phase := .locking finished })
  | .locking finished =>
      if shared.lock = none then
        some ({ shared with lock := some index }, { worker with phase := .loading finished })
      else none
  | .loading finished =>
      some (shared, { worker with phase := .storing finished (shared.counter finished) })
  | .storing finished loaded =>
      some (shared.setCounter (loaded + 1) finished, { worker with phase := .unlocking finished })
  | .unlocking finished =>
      some ({ shared with lock := none }, { worker with phase := .ended finished })
  | .ended _ => none

/-- The call ends, by returning or by raising: either way `done` is set. -/
def callStep (outcome : CallOutcome) (worker : Worker) : Option Worker :=
  if worker.done = false ∧ outcome ≠ .never ∧
      (if outcome.inTime = true then worker.phase = .waiting
        else worker.phase.finished? = some false) then
    some { worker with done := true }
  else none

def mainStep {Gap : Type} (loopGap : Option Gap) (level : Level Gap) : Option (Level Gap) :=
  match level.main with
  | .starting next =>
      if next < level.level then
        match level.workers[next]? with
        | some ⟨.unstarted, done⟩ =>
            some { level with
              workers := level.workers.set next { phase := .started, done := done }
              main := .starting (next + 1) }
        | _ => none
      else
        some { level with
          shared := { level.shared with arrived := level.shared.arrived + 1 }
          main := .atBarrier }
  | .atBarrier =>
      if level.level + 1 ≤ level.shared.arrived then some { level with main := .joining 0 }
      else none
  | .joining next =>
      if next < level.level then
        match level.workers[next]? with
        | some ⟨.ended _, _⟩ => some { level with main := .joining (next + 1) }
        | _ => none
      else
        some { level with
          main := .returned
            { level := level.level
              completed := level.shared.completed
              timedOut := level.shared.timedOut
              loopGapMs := loopGap } }
  | .returned _ => none

/-- The main thread stops waiting for the thread that it joins. -/
def expireStep {Gap : Type} (level : Level Gap) : Option (Level Gap) :=
  match level.main with
  | .joining next =>
      if next < level.level then some { level with main := .joining (next + 1) } else none
  | _ => none

def levelStep {Gap : Type} (outcome : Nat → CallOutcome) (loopGap : Option Gap)
    (level : Level Gap) : LevelAction → Option (Level Gap)
  | .main => mainStep loopGap level
  | .worker index =>
      level.workers[index]?.bind fun worker =>
        (workerStep (level.level + 1) (outcome index) index level.shared worker).map fun next =>
          { level with
            shared := next.1
            workers := level.workers.set index next.2 }
  | .call index =>
      level.workers[index]?.bind fun worker =>
        (callStep (outcome index) worker).map fun next =>
          { level with workers := level.workers.set index next }
  | .graceExpires => expireStep level

/-! ### The main thread -/

inductive MainStepped {Gap : Type} (loopGap : Option Gap) (level : Level Gap) :
    Level Gap → Prop where
  | starts {index : Nat} {done : Bool} (isMain : level.main = .starting index)
      (further : index < level.level)
      (found : level.workers[index]? = some { phase := .unstarted, done := done }) :
      MainStepped loopGap level
        { level with
          workers := level.workers.set index { phase := .started, done := done }
          main := .starting (index + 1) }
  | arrives {index : Nat} (isMain : level.main = .starting index) (all : ¬index < level.level) :
      MainStepped loopGap level
        { level with
          shared := { level.shared with arrived := level.shared.arrived + 1 }
          main := .atBarrier }
  | released (isMain : level.main = .atBarrier)
      (all : level.level + 1 ≤ level.shared.arrived) :
      MainStepped loopGap level { level with main := .joining 0 }
  | joins {index : Nat} {finished done : Bool} (isMain : level.main = .joining index)
      (further : index < level.level)
      (found : level.workers[index]? = some { phase := .ended finished, done := done }) :
      MainStepped loopGap level { level with main := .joining (index + 1) }
  | returns {index : Nat} (isMain : level.main = .joining index) (all : ¬index < level.level) :
      MainStepped loopGap level
        { level with
          main := .returned
            { level := level.level
              completed := level.shared.completed
              timedOut := level.shared.timedOut
              loopGapMs := loopGap } }

theorem mainStep_stepped {Gap : Type} {loopGap : Option Gap} {level next : Level Gap}
    (taken : mainStep loopGap level = some next) : MainStepped loopGap level next := by
  unfold mainStep at taken
  split at taken
  · rename_i index isMain
    by_cases further : index < level.level
    · rw [if_pos further] at taken
      split at taken
      · rename_i done found
        cases taken
        exact .starts isMain further found
      · cases taken
    · rw [if_neg further] at taken
      cases taken
      exact .arrives isMain further
  · rename_i isMain
    obtain ⟨all, stepped⟩ := Option.ite_none_right_eq_some.mp taken
    cases stepped
    exact .released isMain all
  · rename_i index isMain
    by_cases further : index < level.level
    · rw [if_pos further] at taken
      split at taken
      · rename_i finished done found
        cases taken
        exact .joins isMain further found
      · cases taken
    · rw [if_neg further] at taken
      cases taken
      exact .returns isMain further
  · cases taken

theorem MainStepped.taken {Gap : Type} {loopGap : Option Gap} {level next : Level Gap}
    (stepped : MainStepped loopGap level next) : mainStep loopGap level = some next := by
  cases stepped with
  | starts isMain further found => simp only [mainStep, isMain, if_pos further, found]
  | arrives isMain all => simp only [mainStep, isMain, if_neg all]
  | released isMain all => simp only [mainStep, isMain, if_pos all]
  | joins isMain further found => simp only [mainStep, isMain, if_pos further, found]
  | returns isMain all => simp only [mainStep, isMain, if_neg all]

end CapacityDriver

end AsPlatform
