/-
The calls of one process, and what stopping the process does to their timers.
-/

import AsPlatform.CallController.Timers

namespace AsPlatform

open Reentrant

def Call.dispose (call : Call) : Call :=
  call.cancelNoAnswerTimer

structure BaseCallMap where
  controllers : List Call

namespace BaseCallMap

/-- `for controller in self.controllers: controller.dispose()`. -/
def dispose (map : BaseCallMap) : BaseCallMap :=
  { map with controllers := map.controllers.map Call.dispose }

def Silent (map : BaseCallMap) : Prop :=
  ∀ call, call ∈ map.controllers → ∀ timer, timer < call.timers.length →
    call.armed timer = false

instance (map : BaseCallMap) : Decidable map.Silent := by
  unfold Silent
  infer_instance

theorem dispose_silent_iff_referred (map : BaseCallMap) :
    map.dispose.Silent ↔ ∀ call, call ∈ map.controllers → call.Referred := by
  unfold Silent dispose
  rw [List.forall_mem_map]
  refine forall₂_congr fun call _ => ?_
  rw [← Call.silent_cancelNoAnswerTimer_iff]
  refine ⟨fun silent timer => ?_, fun silent timer _ => silent timer⟩
  by_contra still
  rw [Bool.not_eq_false] at still
  have armed : call.dispose.armed timer = true := still
  rw [silent timer (Call.lt_of_armed armed)] at armed
  cases armed

end BaseCallMap

structure CallRun where
  app : App
  process : Process
  globalConfig : GlobalConfig
  nextHop : Option (String × Nat)
  actions : List CallAction

namespace CallRun

def start (run : CallRun) : World :=
  run.process.newCall run.globalConfig run.nextHop

def Passes (run : CallRun) (call : Call) : Prop :=
  ∃ config, (callSystem run.app).Passes (Config.initial run.start) run.actions config ∧
    config.state.toCall = call

theorem referred_iff_passes (run : CallRun) :
    CallAlong run.app (fun _ _ next => next.state.Referred) run.start run.actions ↔
      ∀ call, run.Passes call → call.Referred := by
  refine (System.along_iff_passes ?_ run.actions).trans ⟨?_, ?_⟩
  · intro timer within
    cases within
  · rintro all call ⟨config, passes, rfl⟩
    exact all config passes
  · exact fun all config passes => all _ ⟨config, passes, rfl⟩

end CallRun

/-- Whatever calls the map holds and whatever has happened to them, disposing of the
map leaves no timer armed: exactly if none of the runs leaves a timer behind. -/
theorem dispose_silent_iff (runs : List CallRun) :
    (∀ map : BaseCallMap,
      (∀ call, call ∈ map.controllers → ∃ run, run ∈ runs ∧ run.Passes call) →
        map.dispose.Silent) ↔
    ∀ run, run ∈ runs →
      CallAlong run.app (fun config action _ => ¬LeavesTimer config.state.toCall action)
        run.start run.actions := by
  have referred : ∀ run : CallRun,
      CallAlong run.app (fun config action _ => ¬LeavesTimer config.state.toCall action)
        run.start run.actions ↔ ∀ call, run.Passes call → call.Referred := by
    intro run
    rw [← run.referred_iff_passes]
    exact (referred_iff run.app run.process run.globalConfig run.nextHop run.actions).symm
  constructor
  · intro silent run member
    rw [referred run]
    intro call passes
    have alone := silent ⟨[call]⟩ (fun other only => by
      rw [List.mem_singleton.mp only]
      exact ⟨run, member, passes⟩)
    exact (BaseCallMap.dispose_silent_iff_referred _).mp alone call List.mem_cons_self
  · intro leavesNone map reached
    rw [BaseCallMap.dispose_silent_iff_referred]
    intro call member
    obtain ⟨run, known, passes⟩ := reached call member
    exact (referred run).mp (leavesNone run known) call passes

/-- The first hop answers with a failure at once, and the timer of its attempt outlives
the process. -/
theorem not_dispose_silent :
    ∃ reached : CallConfig,
      (callSystem (App.deciding (sampleRelay [sampleHop "1", sampleHop "2"]))).run
          (Config.initial sampleWorld)
          (sampleOpening ++ [.enter (.raises (.leg 0) sampleFail), .comeBack]) =
        some reached ∧
      reached.idle = true ∧ ¬(BaseCallMap.dispose ⟨[reached.state.toCall]⟩).Silent := by
  refine ⟨_, rfl, ?_, ?_⟩
  · decide
  · decide

end AsPlatform
