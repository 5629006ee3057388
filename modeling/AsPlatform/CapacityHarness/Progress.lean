/-
A level always returns.

Every step leaves fewer steps to be taken, and while the main thread has not returned some
thread can take one: a worker that it waits for is held up by nothing but its own call, which
ends or is given up, or by the owner of the lock, which nothing holds up.
-/

import AsPlatform.CapacityHarness.Counts

namespace AsPlatform

namespace CapacityDriver

open Threads

variable {Gap : Type} {outcome : Nat → CallOutcome} {loopGap : Option Gap}
  {level next : Level Gap}

/-! ### Fewer steps -/

def MainPhase.left (size : Nat) : MainPhase Gap → Nat
  | .starting next => (size - next) + size + 3
  | .atBarrier => size + 2
  | .joining next => (size - next) + 1
  | .returned _ => 0

def Level.left (level : Level Gap) : Nat :=
  total Worker.left level.workers + level.main.left level.level

theorem mainStep_left (taken : mainStep loopGap level = some next) : next.left < level.left := by
  cases mainStep_stepped taken with
  | @starts index done isMain further found =>
      have sum := total_set found Worker.left { phase := .started, done := done }
      have fewer : ({ phase := .started, done := done } : Worker).left <
          ({ phase := .unstarted, done := done } : Worker).left := by
        simp [Worker.left]
      simp only [Level.left, isMain, MainPhase.left]
      omega
  | arrives isMain all =>
      simp only [Level.left, isMain, MainPhase.left]
      omega
  | released isMain all =>
      simp only [Level.left, isMain, MainPhase.left]
      omega
  | joins isMain further found =>
      simp only [Level.left, isMain, MainPhase.left]
      omega
  | returns isMain all =>
      simp only [Level.left, isMain, MainPhase.left]
      omega

theorem Level.Sound.left_lt (sound : level.Sound outcome loopGap) {action : LevelAction}
    (patient : action ≠ .graceExpires)
    (taken : levelStep outcome loopGap level action = some next) : next.left < level.left := by
  cases action with
  | main => exact mainStep_left taken
  | worker index =>
      obtain ⟨worker, found, advanced⟩ := Option.bind_eq_some_iff.mp taken
      obtain ⟨⟨shared, after⟩, stepped, isNext⟩ := Option.map_eq_some_iff.mp advanced
      have fewer := (workerStep_stepped (sound.each index worker found) stepped).left
      have sum := total_set found Worker.left after
      subst isNext
      change total Worker.left (level.workers.set index after) + _ < level.left
      rw [Level.left]
      exact Nat.add_lt_add_right (by omega) _
  | call index =>
      obtain ⟨worker, found, advanced⟩ := Option.bind_eq_some_iff.mp taken
      obtain ⟨after, stepped, isNext⟩ := Option.map_eq_some_iff.mp advanced
      obtain ⟨running, isAfter, _⟩ := callStep_ended (sound.each index worker found) stepped
      have sum := total_set found Worker.left after
      have fewer : after.left < worker.left := by
        rw [isAfter]
        simp [Worker.left, running]
      subst isNext
      change total Worker.left (level.workers.set index after) + _ < level.left
      rw [Level.left]
      exact Nat.add_lt_add_right (by omega) _
  | graceExpires => exact absurd rfl patient

/-! ### Some step -/

/-- Nothing holds up the owner of the lock. -/
theorem workerStep_of_holds {worker : Worker} (holds : worker.holds = true) (parties : Nat)
    (ending : CallOutcome) (index : Nat) (shared : Shared) :
    ∃ stepped, workerStep parties ending index shared worker = some stepped := by
  obtain ⟨phase, done⟩ := worker
  cases phase with
  | loading finished => exact ⟨_, rfl⟩
  | storing finished loaded => exact ⟨_, rfl⟩
  | unlocking finished => exact ⟨_, rfl⟩
  | _ => cases holds

theorem levelStep_worker {index : Nat} {worker : Worker}
    (found : level.workers[index]? = some worker)
    (steps : ∃ stepped, workerStep (level.level + 1) (outcome index) index level.shared worker =
      some stepped) : ∃ next, levelStep outcome loopGap level (.worker index) = some next := by
  obtain ⟨stepped, isStep⟩ := steps
  exact ⟨_, by rw [levelStep, found, Option.bind_some, isStep]; rfl⟩

theorem Level.Sound.worker_progress (sound : level.Sound outcome loopGap) {index : Nat}
    {worker : Worker} (found : level.workers[index]? = some worker)
    (started : worker.phase ≠ .unstarted) (running : worker.isOver = false)
    (opened : level.level + 1 ≤ level.shared.arrived) :
    ∃ action next, action ≠ LevelAction.graceExpires ∧
      levelStep outcome loopGap level action = some next := by
  have byItself : (∃ stepped, workerStep (level.level + 1) (outcome index) index level.shared
      worker = some stepped) → ∃ action next, action ≠ LevelAction.graceExpires ∧
        levelStep outcome loopGap level action = some next := by
    intro steps
    obtain ⟨next, taken⟩ := levelStep_worker found steps
    exact ⟨.worker index, next, nofun, taken⟩
  obtain ⟨phase, done⟩ := worker
  cases phase with
  | unstarted => exact absurd rfl started
  | atBarrier => exact byItself ⟨_, if_pos opened⟩
  | waiting =>
      by_cases ended : done = true
      · exact byItself ⟨_, if_pos ended⟩
      · by_cases inTime : (outcome index).inTime = true
        · have ends : callStep (outcome index) { phase := .waiting, done := done } =
              some { phase := .waiting, done := true } := by
            apply if_pos
            refine ⟨Bool.eq_false_iff.mpr ended, ?_, by rw [if_pos inTime]⟩
            intro never
            rw [never] at inTime
            cases inTime
          exact ⟨.call index, _, nofun, by rw [levelStep, found, Option.bind_some, ends]; rfl⟩
        · exact byItself ⟨_, (if_neg ended).trans (if_neg inTime)⟩
  | locking finished =>
      cases owner : level.shared.lock with
      | none => exact byItself ⟨_, if_pos owner⟩
      | some other =>
          have inside := sound.owner other owner
          rw [← sound.size] at inside
          have isOther := List.getElem?_eq_getElem inside
          have holds := (sound.each other _ isOther).holds.mpr owner
          obtain ⟨next, taken⟩ := levelStep_worker isOther
            (workerStep_of_holds holds _ _ _ _)
          exact ⟨.worker other, next, nofun, taken⟩
  | ended finished => cases running
  | _ => exact byItself ⟨_, rfl⟩

/-- While the main thread has not returned some thread can take a step. -/
theorem Level.Sound.progress (sound : level.Sound outcome loopGap)
    (running : ∀ result, level.main ≠ .returned result) :
    ∃ action next, action ≠ LevelAction.graceExpires ∧
      levelStep outcome loopGap level action = some next := by
  have main := sound.main
  have byItself : ∀ next, MainStepped loopGap level next →
      ∃ action next, action ≠ LevelAction.graceExpires ∧
        levelStep outcome loopGap level action = some next :=
    fun next stepped => ⟨.main, next, nofun, stepped.taken⟩
  cases isMain : level.main with
  | starting index =>
      rw [isMain] at main
      obtain ⟨_, each⟩ := main
      by_cases further : index < level.level
      · have inside := further
        rw [← sound.size] at inside
        have found := List.getElem?_eq_getElem inside
        have unstarted := (each index _ found).mpr (Nat.le_refl index)
        cases isWorker : level.workers[index] with
        | mk phase done =>
            rw [isWorker] at found unstarted
            cases unstarted
            exact byItself _ (.starts isMain further found)
      · exact byItself _ (.arrives isMain further)
  | atBarrier =>
      rw [isMain] at main
      by_cases all : level.level + 1 ≤ level.shared.arrived
      · exact byItself _ (.released isMain all)
      · -- Somebody is missing at the barrier, and nothing keeps it from arriving.
        have arrived : level.shared.arrived = total Worker.arrivals level.workers + 1 := by
          rw [sound.arrived, isMain]
          rfl
        have few : total Worker.arrivals level.workers < level.workers.length := by
          rw [sound.size]
          omega
        obtain ⟨index, worker, found, missing⟩ := exists_of_total_lt few
        have started : worker.phase ≠ .unstarted := main index worker found
        obtain ⟨phase, done⟩ := worker
        cases phase with
        | unstarted => exact absurd rfl started
        | started =>
            obtain ⟨next, taken⟩ := levelStep_worker found ⟨_, rfl⟩
            exact ⟨.worker index, next, nofun, taken⟩
        | _ => cases missing
  | joining index =>
      rw [isMain] at main
      obtain ⟨opened, each⟩ := main
      by_cases further : index < level.level
      · have inside := further
        rw [← sound.size] at inside
        have found := List.getElem?_eq_getElem inside
        cases isOver : level.workers[index].isOver with
        | false =>
            exact sound.worker_progress found (each index _ found).1 isOver opened
        | true =>
            cases isWorker : level.workers[index] with
            | mk phase done =>
                rw [isWorker] at found isOver
                cases phase with
                | ended finished => exact byItself _ (.joins isMain further found)
                | _ => cases isOver
      · exact byItself _ (.returns isMain further)
  | returned result => exact absurd isMain (running result)

end CapacityDriver

end AsPlatform
