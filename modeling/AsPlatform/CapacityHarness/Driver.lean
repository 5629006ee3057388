/-
The capacity driver, `run`.

The levels are run one after the other in the order in which they were asked for.  Threads of
a level that has returned may still be running: calls that have been given up.
-/

import AsPlatform.CapacityHarness.Progress
import AsPlatform.Library.Transition

namespace AsPlatform

namespace CapacityDriver

open Threads

inductive RunPhase where
  | atLoop
  | inLevel
  | returned
  deriving DecidableEq

/-- `started` are the levels that have been started, the last of them the current one. -/
structure Driver (Gap : Type) where
  remaining : List Nat
  started : List (Level Gap)
  phase : RunPhase
  results : List (CapacityLevelResult Gap)
  deriving DecidableEq

def Driver.initial {Gap : Type} (levels : List Nat) : Driver Gap where
  remaining := levels
  started := []
  phase := .atLoop
  results := []

inductive DriverAction where
  | run
  | level (index : Nat) (action : LevelAction)
  deriving DecidableEq

variable {Gap : Type}

def runStep (driver : Driver Gap) : Option (Driver Gap) :=
  match driver.phase with
  | .atLoop =>
      match driver.remaining with
      | [] => some { driver with phase := .returned }
      | level :: rest =>
          some { driver with
            remaining := rest
            started := driver.started ++ [Level.initial level]
            phase := .inLevel }
  | .inLevel =>
      match driver.started.getLast? with
      | some ⟨_, _, _, .returned result⟩ =>
          some { driver with
            results := driver.results ++ [result]
            phase := .atLoop }
      | _ => none
  | .returned => none

/-- How the calls end and what the gap of the loop is may differ from level to level. -/
def driverStep (outcome : Nat → Nat → CallOutcome) (loopGap : Nat → Option Gap)
    (driver : Driver Gap) : DriverAction → Option (Driver Gap)
  | .run => runStep driver
  | .level index action =>
      driver.started[index]?.bind fun level =>
        (levelStep (outcome index) (loopGap index) level action).map fun next =>
          { driver with started := driver.started.set index next }

def DriverAction.Patient (action : DriverAction) : Prop :=
  ∀ index, action ≠ .level index .graceExpires

/-! ### The property -/

/-- One result for each level that was asked for, in ascending order, in which the calls of
the level are told apart by whether they returned in time. -/
structure AddsUp (levels : List Nat) (outcome : Nat → Nat → CallOutcome)
    (results : List (CapacityLevelResult Gap)) : Prop where
  requested : (results.map CapacityLevelResult.level).Perm levels
  ascending : (results.map CapacityLevelResult.level).Pairwise (· ≤ ·)
  total : ∀ result, result ∈ results → result.completed + result.timedOut = result.level
  completed : Every (fun index result => result.completed =
    callsThat (fun ending => decide (ending = .returns true)) (outcome index) result.level) results

def Driver.left (driver : Driver Gap) : Nat :=
  (driver.remaining.map fun level => (Level.initial level : Level Gap).left + 3).sum +
    total Level.left driver.started +
    match driver.phase with
    | .atLoop => 1
    | .inLevel => 2
    | .returned => 0

/-- However the threads take their turns the run can be completed, no run goes on for ever, and
what is returned adds up. -/
def ObservationsAddUp (levels : List Nat) (outcome : Nat → Nat → CallOutcome)
    (loopGap : Nat → Option Gap) : Prop :=
  ∀ actions driver, (∀ action, action ∈ actions → DriverAction.Patient action) →
    Transition.run (driverStep outcome loopGap) (Driver.initial levels) actions = some driver →
      (∃ more last, (∀ action, action ∈ more → DriverAction.Patient action) ∧
        Transition.run (driverStep outcome loopGap) driver more = some last ∧
          last.phase = .returned) ∧
      actions.length ≤ (Driver.initial levels : Driver Gap).left ∧
      (driver.phase = .returned → AddsUp levels outcome driver.results)

/-! ### What a step keeps -/

section Run

variable {levels : List Nat} {outcome : Nat → Nat → CallOutcome} {loopGap : Nat → Option Gap}
  {driver next : Driver Gap}

theorem mainStep_level {gap : Option Gap} {level after : Level Gap}
    (taken : mainStep gap level = some after) :
    after.level = level.level ∧ ∀ result, level.main ≠ .returned result := by
  cases mainStep_stepped taken with
  | starts isMain => exact ⟨rfl, by rw [isMain]; nofun⟩
  | arrives isMain => exact ⟨rfl, by rw [isMain]; nofun⟩
  | released isMain => exact ⟨rfl, by rw [isMain]; nofun⟩
  | joins isMain => exact ⟨rfl, by rw [isMain]; nofun⟩
  | returns isMain => exact ⟨rfl, by rw [isMain]; nofun⟩

/-- A level stays the level that it is, and what it has returned is not taken back. -/
theorem levelStep_level {ending : Nat → CallOutcome} {gap : Option Gap} {level after : Level Gap}
    {action : LevelAction} (patient : action ≠ .graceExpires)
    (taken : levelStep ending gap level action = some after) :
    after.level = level.level ∧
      ∀ result, level.main = .returned result → after.main = .returned result := by
  cases action with
  | main =>
      obtain ⟨same, running⟩ := mainStep_level taken
      exact ⟨same, fun result returned => absurd returned (running result)⟩
  | worker index =>
      obtain ⟨worker, _, advanced⟩ := Option.bind_eq_some_iff.mp taken
      obtain ⟨_, _, isNext⟩ := Option.map_eq_some_iff.mp advanced
      subst isNext
      exact ⟨rfl, fun _ => id⟩
  | call index =>
      obtain ⟨worker, _, advanced⟩ := Option.bind_eq_some_iff.mp taken
      obtain ⟨_, _, isNext⟩ := Option.map_eq_some_iff.mp advanced
      subst isNext
      exact ⟨rfl, fun _ => id⟩
  | graceExpires => exact absurd rfl patient

inductive RunStepped (driver : Driver Gap) : Driver Gap → Prop where
  | ends (isPhase : driver.phase = .atLoop) (isRemaining : driver.remaining = []) :
      RunStepped driver { driver with phase := .returned }
  | enters {level : Nat} {rest : List Nat} (isPhase : driver.phase = .atLoop)
      (isRemaining : driver.remaining = level :: rest) :
      RunStepped driver
        { driver with
          remaining := rest
          started := driver.started ++ [Level.initial level]
          phase := .inLevel }
  | collects {level : Level Gap} {result : CapacityLevelResult Gap}
      (isPhase : driver.phase = .inLevel) (last : driver.started.getLast? = some level)
      (isMain : level.main = .returned result) :
      RunStepped driver
        { driver with
          results := driver.results ++ [result]
          phase := .atLoop }

theorem runStep_stepped (taken : runStep driver = some next) : RunStepped driver next := by
  unfold runStep at taken
  split at taken
  · rename_i isPhase
    split at taken
    · rename_i isRemaining
      cases taken
      exact .ends isPhase isRemaining
    · rename_i level rest isRemaining
      cases taken
      exact .enters isPhase isRemaining
  · rename_i isPhase
    split at taken
    · rename_i level shared workers result last
      cases taken
      exact .collects isPhase last rfl
    · cases taken
  · cases taken

theorem RunStepped.taken (stepped : RunStepped driver next) : runStep driver = some next := by
  cases stepped with
  | ends isPhase isRemaining => simp only [runStep, isPhase, isRemaining]
  | enters isPhase isRemaining => simp only [runStep, isPhase, isRemaining]
  | @collects level result isPhase last isMain =>
      obtain ⟨size, shared, workers, main⟩ := level
      cases isMain
      simp only [runStep, isPhase, last]

structure Driver.Sound (levels : List Nat) (outcome : Nat → Nat → CallOutcome)
    (loopGap : Nat → Option Gap) (driver : Driver Gap) : Prop where
  levels : driver.started.map Level.level ++ driver.remaining = levels
  each : Every (fun index level => level.Sound (outcome index) (loopGap index)) driver.started
  collected : Every (fun index level => ∀ result, driver.results[index]? = some result →
    level.main = .returned result) driver.started
  count : driver.results.length + (if driver.phase = .inLevel then 1 else 0) =
    driver.started.length
  ended : driver.phase = .returned → driver.remaining = []

theorem Driver.sound_initial (levels : List Nat) (outcome : Nat → Nat → CallOutcome)
    (loopGap : Nat → Option Gap) : (Driver.initial levels).Sound levels outcome loopGap where
  levels := rfl
  each := nofun
  collected := nofun
  count := rfl
  ended := nofun

theorem Driver.Sound.level (sound : driver.Sound levels outcome loopGap) {index : Nat}
    {action : LevelAction} (patient : action ≠ .graceExpires)
    (taken : driverStep outcome loopGap driver (.level index action) = some next) :
    next.Sound levels outcome loopGap := by
  obtain ⟨level, found, advanced⟩ := Option.bind_eq_some_iff.mp taken
  obtain ⟨after, stepped, isNext⟩ := Option.map_eq_some_iff.mp advanced
  obtain ⟨sameLevel, keeps⟩ := levelStep_level patient stepped
  subst isNext
  refine ⟨?_, ?_, ?_, ?_, sound.ended⟩
  · exact (congrArg (· ++ driver.remaining) (map_set_of_eq found sameLevel)).trans sound.levels
  · exact sound.each.set ((sound.each index level found).step patient stepped)
      (fun _ _ _ same => same)
  · exact sound.collected.set
      (fun result isResult => keeps result (sound.collected index level found result isResult))
      (fun _ _ _ same => same)
  · rw [List.length_set]
    exact sound.count

theorem Driver.Sound.run (sound : driver.Sound levels outcome loopGap)
    (taken : driverStep outcome loopGap driver .run = some next) :
    next.Sound levels outcome loopGap := by
  have count := sound.count
  have levels := sound.levels
  cases runStep_stepped taken with
  | ends isPhase isRemaining =>
      rw [isPhase, if_neg nofun] at count
      exact ⟨levels, sound.each, sound.collected, count, fun _ => isRemaining⟩
  | @enters level rest isPhase isRemaining =>
      rw [isPhase, if_neg nofun] at count
      rw [isRemaining] at levels
      refine ⟨?_, sound.each.concat (Level.sound_initial _ _ level),
        sound.collected.concat ?_, ?_, nofun⟩
      · rw [List.map_append, List.append_assoc]
        exact levels
      · intro result isResult
        rw [List.getElem?_eq_none (Nat.le_of_eq count)] at isResult
        cases isResult
      · rw [if_pos rfl, List.length_append, ← count]
        rfl
  | @collects level result isPhase last isMain =>
      rw [isPhase, if_pos rfl] at count
      refine ⟨levels, sound.each, ?_, ?_, nofun⟩
      · intro index current found added isAdded
        rcases Nat.lt_or_ge index driver.results.length with before | behind
        · rw [List.getElem?_append_left before] at isAdded
          exact sound.collected index current found added isAdded
        · have inside : index < driver.started.length :=
            (List.getElem?_eq_some_iff.mp found).choose
          have isLast : index = driver.started.length - 1 := by omega
          rw [isLast, ← List.getLast?_eq_getElem?, last] at found
          cases found
          have newest : index = driver.results.length := by omega
          rw [newest, List.getElem?_concat_length] at isAdded
          cases isAdded
          exact isMain
      · rw [if_neg nofun, List.length_append]
        exact count

theorem Driver.Sound.step (sound : driver.Sound levels outcome loopGap) {action : DriverAction}
    (patient : action.Patient) (taken : driverStep outcome loopGap driver action = some next) :
    next.Sound levels outcome loopGap := by
  cases action with
  | run => exact sound.run taken
  | level index action =>
      exact sound.level (fun expires => patient index (by rw [expires])) taken

/-! ### The run ends -/

theorem Driver.Sound.left_lt (sound : driver.Sound levels outcome loopGap) {action : DriverAction}
    (patient : action.Patient) (taken : driverStep outcome loopGap driver action = some next) :
    next.left < driver.left := by
  cases action with
  | run =>
      cases runStep_stepped taken with
      | ends isPhase isRemaining =>
          simp only [Driver.left, isPhase, isRemaining]
          omega
      | enters isPhase isRemaining =>
          simp only [Driver.left, isPhase, isRemaining, List.map_cons, List.sum_cons, total,
            List.map_append, List.sum_append, List.map_nil, List.sum_nil]
          omega
      | collects isPhase =>
          simp only [Driver.left, isPhase]
          omega
  | level index action =>
      obtain ⟨level, found, advanced⟩ := Option.bind_eq_some_iff.mp taken
      obtain ⟨after, stepped, isNext⟩ := Option.map_eq_some_iff.mp advanced
      have fewer := (sound.each index level found).left_lt
        (fun expires => patient index (by rw [expires])) stepped
      have sum := total_set found Level.left after
      subst isNext
      simp only [Driver.left]
      omega

theorem Driver.Sound.progress (sound : driver.Sound levels outcome loopGap)
    (running : driver.phase ≠ .returned) :
    ∃ action next, DriverAction.Patient action ∧
      driverStep outcome loopGap driver action = some next := by
  have byItself : ∀ next, RunStepped driver next →
      ∃ action next, DriverAction.Patient action ∧
        driverStep outcome loopGap driver action = some next :=
    fun next stepped => ⟨.run, next, nofun, stepped.taken⟩
  cases isPhase : driver.phase with
  | atLoop =>
      cases isRemaining : driver.remaining with
      | nil => exact byItself _ (.ends isPhase isRemaining)
      | cons level rest => exact byItself _ (.enters isPhase isRemaining)
  | inLevel =>
      have count := sound.count
      rw [isPhase, if_pos rfl] at count
      have inside : driver.started.length - 1 < driver.started.length := by omega
      have found := List.getElem?_eq_getElem inside
      by_cases returned : ∃ result, driver.started[driver.started.length - 1].main =
          .returned result
      · obtain ⟨result, isMain⟩ := returned
        exact byItself _ (.collects isPhase (List.getLast?_eq_getElem?.trans found) isMain)
      · obtain ⟨action, next, patient, taken⟩ := (sound.each _ _ found).progress
          (fun result isMain => returned ⟨result, isMain⟩)
        refine ⟨.level (driver.started.length - 1) action, _, ?_,
          by rw [driverStep, found, Option.bind_some, taken]; rfl⟩
        intro index expires
        cases expires
        exact patient rfl
  | returned => exact absurd isPhase running

/-! ### What is returned -/

theorem callsThat_inTime (outcome : Nat → CallOutcome) (level : Nat) :
    callsThat CallOutcome.inTime outcome level =
      callsThat (fun ending => decide (ending = .returns true)) outcome level +
        callsThat (fun ending => decide (ending = .raises true)) outcome level := by
  have one : ∀ ending : CallOutcome, (if ending.inTime = true then 1 else 0) =
      (if decide (ending = .returns true) = true then 1 else 0) +
        if decide (ending = .raises true) = true then 1 else 0 := by
    intro ending
    cases ending with
    | returns inTime => cases inTime <;> rfl
    | raises inTime => cases inTime <;> rfl
    | never => rfl
  unfold callsThat
  induction List.range level with
  | nil => rfl
  | cons call rest ih =>
      simp only [List.countP_cons, one] at ih ⊢
      omega

theorem callsThat_add_not (holds : CallOutcome → Bool) (outcome : Nat → CallOutcome)
    (level : Nat) :
    callsThat holds outcome level + callsThat (fun ending => !holds ending) outcome level =
      level := by
  have both := List.length_eq_countP_add_countP (l := List.range level)
    (p := fun call => holds (outcome call))
  rw [List.length_range] at both
  simpa [callsThat] using both.symm

theorem callsThat_eq_zero {outcome : Nat → CallOutcome} {level : Nat} :
    callsThat (fun ending => decide (ending = .raises true)) outcome level = 0 ↔
      ∀ call, call < level → outcome call ≠ .raises true := by
  simp [callsThat, List.countP_eq_zero]

def NoneRaises (levels : List Nat) (outcome : Nat → Nat → CallOutcome) : Prop :=
  Every (fun index level => ∀ call, call < level → outcome index call ≠ .raises true) levels

theorem Driver.Sound.results (sound : driver.Sound levels outcome loopGap)
    (returned : driver.phase = .returned) :
    driver.results.map CapacityLevelResult.level = levels ∧
      Every (fun index result => result.loopGapMs = loopGap index ∧
        result.completed = callsThat CallOutcome.inTime (outcome index) result.level ∧
        result.completed + result.timedOut = result.level) driver.results := by
  have count := sound.count
  rw [returned, if_neg nofun] at count
  have isLevels := sound.levels
  rw [sound.ended returned, List.append_nil] at isLevels
  have ofLevel : ∀ (index : Nat) (result : CapacityLevelResult Gap),
      driver.results[index]? = some result → ∃ level, driver.started[index]? = some level ∧
        level.Sound (outcome index) (loopGap index) ∧ level.main = .returned result := by
    intro index result isResult
    have inside : index < driver.started.length := by
      have bound := (List.getElem?_eq_some_iff.mp isResult).choose
      omega
    have found := List.getElem?_eq_getElem inside
    exact ⟨_, found, sound.each index _ found, sound.collected index _ found result isResult⟩
  constructor
  · rw [← isLevels]
    apply List.ext_getElem?
    intro index
    rw [List.getElem?_map, List.getElem?_map]
    cases isResult : driver.results[index]? with
    | none =>
        have outside := List.getElem?_eq_none_iff.mp isResult
        rw [List.getElem?_eq_none (by omega)]
        rfl
    | some result =>
        obtain ⟨level, found, sane, isMain⟩ := ofLevel index result isResult
        rw [found]
        exact congrArg some (sane.result isMain).1
  · intro index result isResult
    obtain ⟨level, found, sane, isMain⟩ := ofLevel index result isResult
    obtain ⟨sameLevel, gap, completed, timedOut⟩ := sane.result isMain
    refine ⟨gap, by rw [completed, sameLevel], ?_⟩
    rw [completed, timedOut, sameLevel]
    exact callsThat_add_not CallOutcome.inTime (outcome index) level.level

/-- What has been returned adds up exactly if the levels were in ascending order and no call
raised within the timeout. -/
theorem Driver.Sound.addsUp_iff (sound : driver.Sound levels outcome loopGap)
    (returned : driver.phase = .returned) :
    AddsUp levels outcome driver.results ↔
      levels.Pairwise (· ≤ ·) ∧ NoneRaises levels outcome := by
  obtain ⟨isLevels, each⟩ := sound.results returned
  have byLevel : ∀ (index : Nat) (level : Nat), levels[index]? = some level →
      ∃ result, driver.results[index]? = some result ∧ result.level = level := by
    intro index level isLevel
    rw [← isLevels, List.getElem?_map] at isLevel
    exact Option.map_eq_some_iff.mp isLevel
  constructor
  · intro addsUp
    refine ⟨isLevels ▸ addsUp.ascending, ?_⟩
    intro index level isLevel
    obtain ⟨result, isResult, sameLevel⟩ := byLevel index level isLevel
    have completed : result.completed = _ := addsUp.completed index result isResult
    rw [(each index result isResult).2.1, callsThat_inTime, sameLevel] at completed
    exact callsThat_eq_zero.mp (Nat.add_eq_left.mp completed)
  · rintro ⟨ascending, noneRaises⟩
    refine ⟨by rw [isLevels], by rw [isLevels]; exact ascending, ?_, ?_⟩
    · intro result member
      obtain ⟨index, isResult⟩ := List.mem_iff_getElem?.mp member
      exact (each index result isResult).2.2
    · intro index result isResult
      have isLevel : levels[index]? = some result.level := by
        rw [← isLevels, List.getElem?_map, isResult]
        rfl
      rw [(each index result isResult).2.1, callsThat_inTime,
        callsThat_eq_zero.mpr (noneRaises index result.level isLevel), Nat.add_zero]

end Run

/-- For every list of levels, all outcomes of the calls and every order of the steps: the run
ends, and what it returns adds up exactly if the levels are in ascending order and no call
raises within the timeout. -/
theorem observationsAddUp_iff (levels : List Nat) (outcome : Nat → Nat → CallOutcome)
    (loopGap : Nat → Option Gap) :
    ObservationsAddUp levels outcome loopGap ↔
      levels.Pairwise (· ≤ ·) ∧ NoneRaises levels outcome := by
  have kept : ∀ driver action next, Driver.Sound levels outcome loopGap driver →
      DriverAction.Patient action → driverStep outcome loopGap driver action = some next →
        Driver.Sound levels outcome loopGap next :=
    fun _ _ _ sound patient taken => sound.step patient taken
  have lower : ∀ driver action next, Driver.Sound levels outcome loopGap driver →
      DriverAction.Patient action → driverStep outcome loopGap driver action = some next →
        next.left < driver.left :=
    fun _ _ _ sound patient taken => sound.left_lt patient taken
  have ends : ∀ driver, Driver.Sound levels outcome loopGap driver →
      ∃ more last, (∀ action, action ∈ more → DriverAction.Patient action) ∧
        Transition.run (driverStep outcome loopGap) driver more = some last ∧
          last.phase = .returned :=
    fun _ sound => Transition.exists_run_to kept lower
      (fun _ sound running => sound.progress running) sound
  have initially := Driver.sound_initial levels outcome loopGap
  constructor
  · intro addUp
    obtain ⟨actions, last, patient, ran, returned⟩ := ends _ initially
    have sound := Transition.invariant_of_all kept initially patient ran
    exact (sound.addsUp_iff returned).mp ((addUp actions last patient ran).2.2 returned)
  · intro condition actions driver patient ran
    have sound := Transition.invariant_of_all kept initially patient ran
    have bounded := Transition.length_le_rank kept lower initially patient ran
    exact ⟨ends driver sound, Nat.le_trans (Nat.le_add_right _ _) bounded,
      fun returned => (sound.addsUp_iff returned).mpr condition⟩

def sampleLevel : List DriverAction :=
  [.run, .level 0 .main, .level 0 (.worker 0), .level 0 .main, .level 0 .main,
    .level 0 (.worker 0), .level 0 (.worker 0), .level 0 (.call 0), .level 0 (.worker 0),
    .level 0 (.worker 0), .level 0 (.worker 0), .level 0 (.worker 0), .level 0 (.worker 0),
    .level 0 (.worker 0), .level 0 .main, .level 0 .main, .run]

def sampleEmptyLevel : List DriverAction :=
  [.run, .level 1 .main, .level 1 .main, .level 1 .main, .run]

/-- Levels in descending order are run in that order, and a call that raises is counted as
completed. -/
theorem not_observationsAddUp :
    ¬ObservationsAddUp [1, 0] (fun _ _ => .returns true) (fun _ => (none : Option Nat)) ∧
      ¬ObservationsAddUp [1] (fun _ _ => .raises true) (fun _ => (none : Option Nat)) := by
  constructor
  · intro addUp
    have patient : ∀ action, action ∈ sampleLevel ++ sampleEmptyLevel ++ [.run] →
        DriverAction.Patient action := by
      intro action member index expires
      subst expires
      simp [sampleLevel, sampleEmptyLevel] at member
    have ascending := ((addUp _ _ patient rfl).2.2 rfl).ascending
    revert ascending
    decide
  · intro addUp
    have patient : ∀ action, action ∈ sampleLevel ++ [.run] → DriverAction.Patient action := by
      intro action member index expires
      subst expires
      simp [sampleLevel] at member
    have completed : (1 : Nat) = 0 := ((addUp _ _ patient rfl).2.2 rfl).completed 0 _ rfl
    cases completed

end CapacityDriver

end AsPlatform
