/-
The timers of all calls of a process, and what disposing of a call map does to them.

Each call has had its share of the events, so what is known of the timers of one call alone
is known of each of many.
-/

import AsPlatform.CallController.Admission
import AsPlatform.CallController.CallMap
import AsPlatform.CallController.Projection

namespace AsPlatform

open Reentrant

/-- The action starts a failover of a call while the timer of the attempt that failed is
armed. -/
def LeavesTimerIn (config : AsConfig) : AsAction → Prop
  | .enter (.call index label) =>
      ∃ controller, config.state.controllers[index]? = some controller ∧
        LeavesTimer controller.call (.enter label)
  | _ => False

instance (config : AsConfig) : ∀ action, Decidable (LeavesTimerIn config action)
  | .enter (.call index label) =>
      match found : config.state.controllers[index]? with
      | none => .isFalse fun leaves => by
          obtain ⟨controller, isThere, _⟩ := leaves
          rw [found] at isThere
          cases isThere
      | some controller =>
          decidable_of_iff (LeavesTimer controller.call (.enter label))
            ⟨fun leaves => ⟨controller, found, leaves⟩, fun ⟨other, isThere, leaves⟩ => by
              rw [found] at isThere
              cases isThere
              exact leaves⟩
  | .enter (.request _ _) | .enter (.ruleHit _) | .enter (.appError _) | .comeBack => .isFalse id

def concerned (config : AsConfig) : AsAction → Option Nat
  | .enter (.call index _) => some index
  | .comeBack => config.frames.head?.map fun frame => frame.request.controller
  | _ => none

/-- A call has no share of what concerns others. -/
theorem projected_eq_none {servers : Nat → AsInstance} {config : AsConfig} {action : AsAction}
    {index : Nat} {controller : Controller}
    (found : config.state.controllers[index]? = some controller)
    (apart : concerned config action ≠ some index) :
    projected servers index config action = none := by
  cases action with
  | comeBack =>
      unfold concerned at apart
      simp only [projected]
      cases suspended : config.frames with
      | nil => rfl
      | cons frame older =>
          rw [suspended] at apart
          exact if_neg fun same => apart (congrArg some same)
  | enter label =>
      cases label with
      | request owner request =>
          refine if_neg fun both => ?_
          have within := (List.getElem?_eq_some_iff.mp found).1
          exact Nat.ne_of_gt within both.2
      | call other label => exact if_neg fun same => apart (congrArg some same)
      | ruleHit ruleId => rfl
      | appError code => rfl

def Call.Silent (call : Call) : Prop :=
  ∀ timer, call.armed timer = false

/-- `for controller in self.controllers: controller.dispose()`, for the map of an owner. -/
def Interpreter.disposeCallMap (owner : Nat) (interpreter : Interpreter) : Interpreter :=
  { interpreter with
    controllers := interpreter.controllers.map fun controller =>
      if controller.owner = owner then { controller with call := controller.call.dispose }
      else controller }

structure CallsKept (servers : Nat → AsInstance) (start : Interpreter) (config : AsConfig) :
    Prop where
  settled : Settled config
  each : ∀ index, ∃ seen, Shares servers start index seen config ∧
    ∀ controller, config.state.controllers[index]? = some controller →
      CallAlong (servers controller.owner).app
        (fun config action _ => ¬LeavesTimer config.state.toCall action)
        (start.toProcess.newCall (servers controller.owner).globalConfig
          (servers controller.owner).nhAddr) seen

namespace CallsKept

variable {servers : Nat → AsInstance} {start : Interpreter} {config next : AsConfig}

/-- Of every call the armed timers are the one referred to. -/
theorem referred (kept : CallsKept servers start config) {controller : Controller}
    (member : controller ∈ config.state.controllers) : controller.call.Referred := by
  obtain ⟨index, found⟩ := List.mem_iff_getElem?.mp member
  obtain ⟨seen, shares, along⟩ := kept.each index
  obtain ⟨alone, accompanies⟩ := shares.present controller found
  rw [← accompanies.call]
  have all := (referred_iff _ _ _ _ _).mpr (along controller found)
  refine (System.along_iff_passes ?_ seen).mp all alone ⟨seen, [], (List.append_nil _).symm,
    accompanies.ran⟩
  intro timer within
  cases within

theorem silent_dispose (kept : CallsKept servers start config) {controller : Controller}
    (member : controller ∈ config.state.controllers) : controller.call.dispose.Silent :=
  Call.silent_cancelNoAnswerTimer_iff.mpr (kept.referred member)

theorem stays (settled : Settled config) {action : AsAction}
    (taken : (asSystem servers).step config action = some next) {index : Nat}
    {controller : Controller} (found : config.state.controllers[index]? = some controller) :
    ∃ later, next.state.controllers[index]? = some later ∧ later.owner = controller.owner := by
  have origins := congrArg Ledger.origins (ledger_step settled taken).1
  change next.state.controllers.map Controller.origin =
    config.state.controllers.map Controller.origin ++ _ at origins
  have kept : (next.state.controllers.map Controller.origin)[index]? = some controller.origin := by
    rw [origins, List.getElem?_append_left, List.getElem?_map, found]
    · rfl
    · rw [List.length_map]
      exact (List.getElem?_eq_some_iff.mp found).1
  rw [List.getElem?_map] at kept
  obtain ⟨later, foundLater, same⟩ := Option.map_eq_some_iff.mp kept
  exact ⟨later, foundLater, congrArg Prod.fst same⟩

theorem comes (settled : Settled config) {action : AsAction}
    (taken : (asSystem servers).step config action = some next) {index : Nat}
    (absent : config.state.controllers[index]? = none) {later : Controller}
    (found : next.state.controllers[index]? = some later) :
    ∃ request, action = .enter (.request later.owner request) := by
  have origins := congrArg Ledger.origins (ledger_step settled taken).1
  change next.state.controllers.map Controller.origin =
    config.state.controllers.map Controller.origin ++ _ at origins
  have added : later.origin ∈ (admittedBy servers action).toList := by
    have origin : (next.state.controllers.map Controller.origin)[index]? = some later.origin := by
      rw [List.getElem?_map, found]
      rfl
    rw [origins, List.getElem?_append_right] at origin
    · exact List.mem_of_getElem? origin
    · rw [List.length_map]
      exact List.getElem?_eq_none_iff.mp absent
  cases action with
  | comeBack => cases added
  | enter label =>
      cases label with
      | request owner request =>
          obtain ⟨_, same⟩ := Option.ite_none_right_eq_some.mp (Option.mem_toList.mp added)
          cases same
          exact ⟨_, rfl⟩
      | call other label => cases added
      | ruleHit ruleId => cases added
      | appError code => cases added

/-- The call of a controller that a step does not concern is as it was. -/
theorem untouched (kept : CallsKept servers start config) {action : AsAction}
    (nested : Nested config action) (taken : (asSystem servers).step config action = some next)
    {index : Nat} {controller : Controller}
    (found : config.state.controllers[index]? = some controller)
    (apart : projected servers index config action = none) :
    ∃ later, next.state.controllers[index]? = some later ∧ later.owner = controller.owner ∧
      later.call = controller.call := by
  obtain ⟨later, foundLater, sameOwner⟩ := stays kept.settled taken found
  refine ⟨later, foundLater, sameOwner, ?_⟩
  obtain ⟨seen, shares, _⟩ := kept.each index
  obtain ⟨alone, accompanies⟩ := shares.present controller found
  have sharesNext := shares.step nested taken
  rw [apart, Option.toList_none, List.append_nil] at sharesNext
  obtain ⟨aloneNext, accompaniesNext⟩ := sharesNext.present later foundLater
  have ran := accompaniesNext.ran
  rw [sameOwner, accompanies.ran] at ran
  cases ran
  exact accompaniesNext.call.symm.trans accompanies.call

theorem step (kept : CallsKept servers start config) {action : AsAction}
    (nested : Nested config action) (leavesNone : ¬LeavesTimerIn config action)
    (taken : (asSystem servers).step config action = some next) :
    CallsKept servers start next := by
  refine ⟨(ledger_step kept.settled taken).2, fun index => ?_⟩
  obtain ⟨seen, shares, along⟩ := kept.each index
  refine ⟨_, shares.step nested taken, fun later foundLater => ?_⟩
  -- what the call is given does not leave its timer
  have clean : ∀ call given, projected servers index config action = some given →
      (∀ controller, config.state.controllers[index]? = some controller →
        controller.call = call) → ¬LeavesTimer call given := by
    intro call given isGiven same leaves
    cases action with
    | comeBack =>
        simp only [projected] at isGiven
        split at isGiven
        · cases isGiven
        · obtain ⟨_, isComeBack⟩ := Option.ite_none_right_eq_some.mp isGiven
          cases isComeBack
          exact leaves
    | enter label =>
        cases label with
        | request owner request =>
            obtain ⟨_, isInvite⟩ := Option.ite_none_right_eq_some.mp isGiven
            cases isInvite
            exact leaves
        | call other label =>
            obtain ⟨own, isLabel⟩ := Option.ite_none_right_eq_some.mp isGiven
            cases isLabel
            obtain ⟨program, entered, _⟩ := System.step_enter.mp taken
            obtain ⟨controller, found, _⟩ := asSystem_enter_call.mp entered
            refine leavesNone ⟨controller, found, ?_⟩
            rw [same controller (own ▸ found)]
            exact leaves
        | ruleHit ruleId => cases isGiven
        | appError code => cases isGiven
  cases found : config.state.controllers[index]? with
  | none =>
      rw [(shares.absent found).1, List.nil_append]
      cases given : projected servers index config action with
      | none => trivial
      | some action =>
          intro _ _
          refine ⟨clean _ _ given fun controller isThat => ?_, trivial⟩
          rw [found] at isThat
          cases isThat
  | some controller =>
      obtain ⟨other, foundOther, sameOwner⟩ := stays kept.settled taken found
      rw [foundLater] at foundOther
      cases foundOther
      obtain ⟨alone, accompanies⟩ := shares.present controller found
      have soFar := along controller found
      rw [sameOwner]
      cases given : projected servers index config action with
      | none =>
          rw [Option.toList_none, List.append_nil]
          exact soFar
      | some action =>
          refine System.along_concat soFar accompanies.ran fun _ _ => ?_
          refine clean _ _ given fun isThat same => ?_
          rw [found] at same
          cases same
          exact accompanies.call.symm

theorem without_calls {interpreter : Interpreter} (none : interpreter.controllers = [])
    (escaped : List PyError) : CallsKept servers interpreter
      { state := interpreter, frames := [], escaped := escaped } where
  settled := fun _ member => (List.not_mem_nil member).elim
  each index := by
    have absent : interpreter.controllers[index]? = Option.none := by
      rw [none]
      rfl
    refine ⟨[], ⟨⟨interpreter.standing, rfl, rfl⟩, rfl, ⟨index, List.forall_mem_nil _⟩,
      fun _ => ⟨rfl, List.forall_mem_nil _⟩, ?_⟩, fun controller found => ?_⟩
    · intro controller found
      change interpreter.controllers[index]? = some controller at found
      rw [absent] at found
      cases found
    · change interpreter.controllers[index]? = some controller at found
      rw [absent] at found
      cases found

theorem idle_of_none (kept : CallsKept servers start config)
    (none : config.state.controllers = []) : config.frames = [] := by
  apply List.eq_nil_iff_forall_not_mem.mpr
  intro frame member
  obtain ⟨seen, shares, _⟩ := kept.each frame.request.controller
  exact (shares.absent (by rw [none]; rfl)).2 frame member rfl

theorem appendLog (kept : CallsKept servers start config) (entry : Option LogRecord) :
    CallsKept servers start { config with state := config.state.appendLog entry } where
  settled := kept.settled
  each index := by
    obtain ⟨seen, shares, along⟩ := kept.each index
    exact ⟨seen, shares.unseen rfl rfl rfl shares.standing, along⟩

theorem disposeCallMap (kept : CallsKept servers start config) (idle : config.frames = [])
    (owner : Nat) : CallsKept servers start
      { config with state := config.state.disposeCallMap owner } where
  settled := kept.settled
  each index := by
    obtain ⟨seen, shares, along⟩ := kept.each index
    have standing : Standing False start.sipConf
        { config with state := config.state.disposeCallMap owner } := by
      have same : (config.state.disposeCallMap owner).standing = config.state.standing := by
        unfold Interpreter.standing Interpreter.disposeCallMap
        rw [List.map_map]
        refine congrArg (Prod.mk _) (List.map_congr_left fun controller _ => ?_)
        dsimp only [Function.comp]
        split
        · have base := Call.toBaseCallController_cancelNoAnswerTimer controller.call
          have config := congrArg BaseCallController.globalConfig base
          exact config
        · rfl
      obtain ⟨base, first, stacked⟩ := shares.standing
      refine ⟨base, first, ?_⟩
      change Stacked _ _ _ (config.state.disposeCallMap owner).standing _
      rw [same]
      exact stacked
    have nobody : ∀ frame ∈ config.frames, frame.request.controller ≠ index := by
      rw [idle]
      exact List.forall_mem_nil _
    have found : (config.state.disposeCallMap owner).controllers[index]? =
        (config.state.controllers[index]?).map fun controller =>
          if controller.owner = owner then { controller with call := controller.call.dispose }
          else controller := List.getElem?_map
    -- where the controller is not one of the map, nothing is seen of it
    have unseen : (config.state.disposeCallMap owner).controllers[index]? =
        config.state.controllers[index]? → ∃ seen, Shares servers start index seen
          { config with state := config.state.disposeCallMap owner } ∧
        ∀ controller, (config.state.disposeCallMap owner).controllers[index]? = some controller →
          CallAlong (servers controller.owner).app
            (fun config action _ => ¬LeavesTimer config.state.toCall action)
            (start.toProcess.newCall (servers controller.owner).globalConfig
              (servers controller.owner).nhAddr) seen := by
      intro same
      refine ⟨seen, shares.foreign nobody nobody (congrArg (·, config.state.isEnabledFor) same)
        standing shares.atWork, ?_⟩
      rw [same]
      exact along
    cases present : config.state.controllers[index]? with
    | none => exact unseen (by rw [found, present]; rfl)
    | some controller =>
        rw [present, Option.map_some] at found
        by_cases own : controller.owner = owner
        · rw [if_pos own] at found
          obtain ⟨alone, accompanies⟩ := shares.present controller present
          obtain ⟨resting, conf⟩ := accompanies.quiet nobody
          have taken : (callSystem (servers controller.owner).app).step alone (.enter .dispose) =
              some { alone with state := alone.state.mapCall Call.dispose } :=
            System.step_enter.mpr ⟨_, if_pos (List.isEmpty_iff.mpr resting), settle_ok _ _ _ _⟩
          refine ⟨seen ++ [.enter .dispose], Shares.own accompanies.ran taken ?_ shares.levels
            standing ⟨index, by rw [idle]; exact List.forall_mem_nil _⟩, ?_⟩
          · refine ⟨⟨⟨_, found, rfl⟩, ?_, ?_, ?_⟩, ?_⟩
            · exact (Interpreter.callOf_of_getElem? found).trans
                (congrArg Call.dispose accompanies.call.symm)
            · exact (shares.standing.conf_of_idle (List.isEmpty_iff.mpr idle)).trans conf.symm
            · exact shares.levels.trans accompanies.levels.symm
            · rw [idle, resting]
              exact .nil
          · intro later foundLater
            rw [found] at foundLater
            cases foundLater
            exact System.along_concat (along controller present) accompanies.ran
              fun _ _ leaves => leaves
        · rw [if_neg own] at found
          exact unseen (by rw [found, present])

end CallsKept

end AsPlatform
