/-
What can still fire when the stack shuts its transaction manager down.

The stack stops in an order: the timers of the loop, those of the calls and those of the
transactions are cancelled before the manager is shut down.  Whether this leaves none armed
is a question of what the stack still refers to, and so of the whole run.
-/

import AsPlatform.Stack.Lifecycle

namespace AsPlatform

open Reentrant Reentrant.Handler Ownership Platform

/-- After the walk no timer that a transaction of the manager referred to is armed. -/
theorem cancelTransactionTimers_disarms {Key Transaction Object Callback Loop : Type}
    [DecidableEq Object] [DecidableEq Transaction]
    {cancel : Object → Objects Key Transaction Object Callback Loop →
      Objects Key Transaction Object Callback Loop} (cancels : CancelsTimer cancel)
    {objects : Objects Key Transaction Object Callback Loop} {timer : Object}
    (reaches : objects.Reaches timer) :
    ¬(cancelTransactionTimers cancel objects).objects.Armed timer := by
  obtain ⟨calls, swept⟩ := cancelTransactionTimers_swept cancels objects
  obtain ⟨transaction, timerName, isThere, isName, refers⟩ := reaches
  have cell := Objects.mem_cells.mpr ⟨isThere, isName⟩
  intro armed
  obtain ⟨wasArmed, spared⟩ := (swept.armed_iff timer).mp armed
  exact spared ((swept.called timer).mpr ⟨wasArmed, _, cell, refers⟩)

variable {Link LinkCall : Type} {sippy : SippyTypes}

structure Quiet (manager : Nat) (platform found : Platform Link sippy) : Prop where
  loopTimers : ∀ thing, found.holdings.Held thing →
    found.holdings.place .transactionManager = some thing ∨
      found.holdings.place .internalApi = some thing
  noAnswerTimers : ∀ controller ∈ found.calls.state.controllers, controller.call.Silent
  transactionTimers : ∀ timer, (platform.objects manager).Reaches timer →
    ¬(found.objects manager).Armed timer

def Platform.Concerns (platform : Platform Link sippy) : AsAction → Prop
  | .enter (.request owner _) => platform.callMap = some owner
  | action => ∀ index ∈ concerned platform.calls action,
      ∀ controller ∈ platform.calls.state.controllers[index]?,
        platform.callMap = some controller.owner

theorem Platform.Concerns.owner {platform : Platform Link sippy} {action : AsAction}
    (present : platform.Concerns action) {index : Nat} {controller : Controller}
    (concerns : concerned platform.calls action = some index)
    (found : platform.calls.state.controllers[index]? = some controller) :
    platform.callMap = some controller.owner := by
  cases action with
  | comeBack => exact present index concerns controller found
  | enter label =>
      cases label with
      | request owner request => cases concerns
      | call other label => exact present index concerns controller found
      | ruleHit ruleId => cases concerns
      | appError code => cases concerns

namespace BaseAsStack

variable (stack : BaseAsStack Link LinkCall)

/-- The stack is started only when it is down, and stopped only when no handler is at work.
What happens to calls happens to those of its present call map and while it is up, and leaves no
timer.  Nothing is taken for an attribute that still refers to something. -/
def Orderly (platform : Platform Link sippy) (action : PlatformAction LinkCall sippy) : Prop :=
  ¬stack.Overwrites platform action ∧
    match action with
    | .start _ => platform.holdings.place .transactionManager = none
    | .stop _ => platform.calls.idle = true
    | .calls action =>
        platform.holdings.place .transactionManager ≠ none ∧ Nested platform.calls action ∧
          ¬LeavesTimerIn platform.calls action ∧ platform.Concerns action
    | _ => True

def Identified (interpreter : Interpreter) : Prop :=
  identify stack.sipUserAgentName stack.transport.address stack.transport.port interpreter =
    interpreter

structure Calm (servers : Nat → AsInstance) (platform : Platform Link sippy) : Prop where
  owned : platform.holdings.Owned
  slow : ∀ server ∈ platform.lingering, platform.outlasts server = true
  kept : ∃ own, CallsKept servers own platform.calls ∧
    (stack.Identified own ∨ platform.calls.state.controllers = [] ∧
      platform.holdings.place .transactionManager = none)
  dropped : ∀ controller ∈ platform.calls.state.controllers,
    platform.callMap ≠ some controller.owner → controller.call.Silent
  down : platform.holdings.place .transactionManager = none →
    ∀ controller ∈ platform.calls.state.controllers, controller.call.Silent

variable {stack} {servers : Nat → AsInstance} {own : Interpreter}
  {platform : Platform Link sippy}

def KeepsCalls (servers : Nat → AsInstance) (own : Interpreter) (controllers : List Controller)
    (found : Platform Link sippy) : Prop :=
  CallsKept servers own found.calls ∧ found.calls.state.controllers = controllers

theorem KeepsCalls.appendLog {controllers : List Controller} (found : Platform Link sippy)
    (entry : Option LogRecord) (kept : KeepsCalls servers own controllers found) :
    KeepsCalls servers own controllers (found.mapInterpreter (Interpreter.appendLog entry)) :=
  ⟨kept.1.appendLog entry, kept.2⟩

theorem start_keepsCalls {controllers : List Controller} (answer : Replies LinkCall)
    (kept : KeepsCalls servers own controllers (platform.mapInterpreter
      (identify stack.sipUserAgentName stack.transport.address stack.transport.port))) :
    KeepsCalls servers own controllers ((stack.start platform).play answer).state := by
  have meets := stack.start_keeps answer
    (KeepsCalls servers own controllers : Platform Link sippy → Prop) (fun _ _ holds => holds)
    (fun _ _ _ _ _ holds => holds) (fun _ _ holds => holds) (fun _ _ holds => holds)
    KeepsCalls.appendLog
  exact meets.left kept

def KeepsMap (servers : Nat → AsInstance) (own : Interpreter)
    (platform found : Platform Link sippy) : Prop :=
  KeepsCalls servers own platform.calls.state.controllers found ∧ found.callMap = platform.callMap

theorem KeepsMap.appendLog (found : Platform Link sippy) (entry : Option LogRecord)
    (kept : KeepsMap servers own platform found) :
    KeepsMap servers own platform (found.mapInterpreter (Interpreter.appendLog entry)) :=
  ⟨kept.1.appendLog found entry, kept.2⟩

theorem startInternalApi_keepsMap (answer : Replies LinkCall)
    (kept : CallsKept servers own platform.calls) :
    KeepsMap servers own platform ((stack.startInternalApi platform).play answer).state := by
  have meets := stack.startInternalApi_keeps answer (KeepsMap servers own platform)
    (fun _ holds => holds) KeepsMap.appendLog
  exact meets.left ⟨⟨kept, rfl⟩, rfl⟩

theorem run_keepsMap (controller : Nat) (answer : Replies LinkCall)
    (kept : CallsKept servers own platform.calls) :
    KeepsMap servers own platform ((stack.run controller platform).play answer).state := by
  have given : KeepsMap servers own platform
      (mapHoldings (Holdings.take .reloadTimer .reloadTimer)
        (mapHoldings (Holdings.take .shutdownTimer (.shutdownTimer controller)) platform)) :=
    ⟨⟨kept, rfl⟩, rfl⟩
  refine (stack.run_keeps answer (KeepsMap servers own platform) controller
    KeepsMap.appendLog).leaves ?_ (fun _ _ => id) given
  rintro _ _ ⟨earlier, holds, rfl⟩
  exact holds

/-! ### Stopping -/

structure Hushed (servers : Nat → AsInstance) (own : Interpreter)
    (platform found : Platform Link sippy) : Prop where
  freed : Freed platform.holdings [.reloadTimer, .shutdownTimer] found
  kept : CallsKept servers own found.calls
  silent : ∀ controller ∈ found.calls.state.controllers, controller.call.Silent
  none : platform.calls.state.controllers = [] → found.calls.state.controllers = []

/-- Disposing of the present call map leaves no call with a timer. -/
theorem Calm.disposed (calm : stack.Calm servers platform) (idle : platform.calls.idle = true)
    (kept : CallsKept servers own platform.calls) {found : Platform Link sippy}
    (freed : Freed platform.holdings [.reloadTimer, .shutdownTimer] found)
    (calls : found.calls = platform.calls) (callMap : found.callMap = platform.callMap) :
    Hushed servers own platform found.disposeCallMap := by
  unfold disposeCallMap
  rw [callMap]
  cases isMap : platform.callMap with
  | none =>
      refine ⟨freed, by rw [calls]; exact kept, ?_, fun none => by rw [calls]; exact none⟩
      rw [calls]
      exact fun controller member => calm.dropped controller member (by rw [isMap]; nofun)
  | some owner =>
      have keptMap := kept.disposeCallMap (List.isEmpty_iff.mp idle) owner
      refine ⟨freed, ?_, ?_, ?_⟩
      · change CallsKept servers own
          { found.calls with state := found.calls.state.disposeCallMap owner }
        rw [calls]
        exact keptMap
      · intro controller member
        change controller ∈ (found.calls.state.disposeCallMap owner).controllers at member
        rw [calls] at member
        obtain ⟨before, wasThere, rfl⟩ := List.mem_map.mp member
        split
        · exact kept.silent_dispose wasThere
        · rename_i other
          refine calm.dropped before wasThere ?_
          rw [isMap]
          exact fun same => other (Option.some.inj same).symm
      · intro none
        change (found.calls.state.disposeCallMap owner).controllers = []
        rw [calls, Interpreter.disposeCallMap, none]
        rfl

variable [DecidableEq sippy.Object] [DecidableEq sippy.Transaction]
  {cancel : sippy.Object → sippy.Objects → sippy.Objects}

/-- Where a `stop` shuts the manager down, nothing can fire any more. -/
theorem Calm.stop (calm : stack.Calm servers platform) (idle : platform.calls.idle = true)
    (kept : CallsKept servers own platform.calls) (cancels : CancelsTimer cancel)
    (answer : Replies LinkCall) :
    Meets answer (Eq platform) (stack.stop cancel)
      ⟨fun request found => ∀ manager, request = .shutdown manager → Quiet manager platform found,
        fun _ => Hushed servers own platform, fun _ => Hushed servers own platform⟩ := by
  let hushed := Hushed servers own platform
  let untouched (found : Platform Link sippy) : Prop := found.calls = platform.calls ∧
    found.callMap = platform.callMap ∧ found.objects = platform.objects
  refine meets_bind (fun _ found => Freed platform.holdings [.shutdownTimer] found ∧
    untouched found) (meets_modify ?_) fun _ => ?_
  · rintro _ rfl
    have fresh : Freed platform.holdings [] platform :=
      ⟨Holdings.Released.refl _, List.forall_mem_nil _⟩
    exact ⟨fresh.release .shutdownTimer, rfl, rfl, rfl⟩
  refine meets_bind (fun _ found => Freed platform.holdings [.reloadTimer, .shutdownTimer] found ∧
    untouched found) (meets_modify ?_) fun _ => ?_
  · rintro found ⟨freed, rest⟩
    exact ⟨freed.release .reloadTimer, rest⟩
  refine meets_bind (fun _ found => hushed found ∧ found.objects = platform.objects)
    (meets_modify ?_) fun _ => ?_
  · rintro found ⟨freed, calls, callMap, objects⟩
    refine ⟨calm.disposed idle kept freed calls callMap, ?_⟩
    obtain ⟨_, disposed⟩ := disposeCallMap_eq found
    rw [disposed]
    exact objects
  have released : ∀ (slot : StackPlace) (found : Platform Link sippy), hushed found →
      hushed (found.mapHoldings (Holdings.release slot)) := by
    intro slot found holds
    have freed := holds.freed.release slot
    exact ⟨⟨freed.1, fun other member => freed.2 other (List.mem_cons_of_mem _ member)⟩,
      holds.kept, holds.silent, holds.none⟩
  refine meets_bind (fun _ => hushed) ?_ fun _ => ?_
  · refine meets_bind (fun value found => (hushed found ∧ found.objects = platform.objects) ∧
      value = found) (meets_get fun found holds => ⟨holds, rfl⟩) fun value => ?_
    cases refers : value.holdings.place .transactionManager with
    | none => exact meets_pure fun found holds => holds.1.1
    | some manager =>
        refine meets_bind (fun _ found => hushed found ∧
          ∀ other, (StackCall.shutdown manager : StackCall LinkCall) = .shutdown other →
            Quiet other platform found) (meets_modify ?_) fun _ => ?_
        · rintro found ⟨⟨holds, objects⟩, rfl⟩
          refine ⟨⟨holds.freed, holds.kept, holds.silent, holds.none⟩, ?_⟩
          rintro _ ⟨⟩
          refine ⟨fun thing held => ?_, holds.silent, ?_⟩
          · obtain ⟨slot, isSlot⟩ := (holds.freed.1.owned.mpr calm.owned) thing held
            cases slot with
            | transactionManager => exact Or.inl isSlot
            | internalApi => exact Or.inr isSlot
            | shutdownTimer =>
                rw [holds.freed.2 .shutdownTimer (by simp)] at isSlot
                cases isSlot
            | reloadTimer =>
                rw [holds.freed.2 .reloadTimer (by simp)] at isSlot
                cases isSlot
          · intro timer reaches
            change ¬(Function.update value.objects manager _ manager).Armed timer
            rw [Function.update_self, objects]
            exact cancelTransactionTimers_disarms cancels reaches
        refine meets_bind (fun _ => hushed)
          (meets_callOut (fun found holds => holds.2) (fun _ holds _ => holds.1)
            fun _ _ holds _ => holds.1) fun _ => ?_
        exact meets_modify fun found holds => released .transactionManager found holds
  refine meets_bind (fun _ => hushed) ?_ fun _ => ?_
  · refine meets_bind (fun _ => hushed) (meets_get fun found holds => holds) fun value => ?_
    cases refers : value.holdings.place .internalApi with
    | none => exact meets_pure fun found holds => holds
    | some server =>
        refine meets_bind (fun _ => hushed)
          (meets_modify fun found holds => ⟨holds.freed, holds.kept, holds.silent, holds.none⟩)
          fun _ => ?_
        refine meets_bind (fun _ => hushed)
          (meets_callOut (fun _ _ => nofun) (fun _ holds _ => holds) fun _ _ holds _ => holds)
          fun _ => ?_
        refine meets_bind (fun _ => hushed) (meets_modify fun found holds => ?_) fun _ => ?_
        · obtain ⟨_, letGone⟩ := letGo_eq server found
          rw [letGone]
          exact ⟨holds.freed, holds.kept, holds.silent, holds.none⟩
        exact meets_modify fun found holds => released .internalApi found holds
  exact meets_transport (fun _ _ holds => ⟨holds.freed, holds.kept, holds.silent, holds.none⟩)
    (fun _ _ => nofun) _

/-! ### Whole runs -/

omit [DecidableEq sippy.Object] [DecidableEq sippy.Transaction] in
/-- A stack that has its identity keeps it. -/
theorem Identified.again (identified : stack.Identified own) {interpreter : Interpreter}
    (same : interpreter.sipConf = own.sipConf) : stack.Identified interpreter := by
  have conf : (Platform.identify stack.sipUserAgentName stack.transport.address
      stack.transport.port interpreter).sipConf = interpreter.sipConf := by
    refine Eq.trans ?_ ((congrArg (fun named : Interpreter => named.sipConf) identified).trans
      same.symm)
    unfold Platform.identify
    rw [same]
  change { interpreter with sipConf := (Platform.identify stack.sipUserAgentName
    stack.transport.address stack.transport.port interpreter).sipConf } = interpreter
  rw [conf]

omit [DecidableEq sippy.Object] [DecidableEq sippy.Transaction] in
theorem Calm.identify (calm : stack.Calm servers platform) (idle : platform.calls.idle = true) :
    ∃ own, stack.Identified own ∧ KeepsCalls servers own platform.calls.state.controllers
      (platform.mapInterpreter (Platform.identify stack.sipUserAgentName
        stack.transport.address stack.transport.port)) := by
  obtain ⟨own, kept, identified | ⟨none, _⟩⟩ := calm.kept
  · obtain ⟨_, shares, _⟩ := kept.each 0
    have again := Identified.again identified (shares.standing.conf_of_idle idle)
    refine ⟨own, identified, ?_, rfl⟩
    unfold mapInterpreter
    rw [again]
    exact kept
  · refine ⟨Platform.identify stack.sipUserAgentName stack.transport.address stack.transport.port
      platform.calls.state, rfl, ?_, rfl⟩
    have frames := kept.idle_of_none none
    change CallsKept servers _ { state := _, frames := platform.calls.frames, escaped := _ }
    rw [frames]
    have named : (Platform.identify stack.sipUserAgentName stack.transport.address
      stack.transport.port platform.calls.state).controllers = [] := none
    exact CallsKept.without_calls named _

omit [DecidableEq sippy.Object] [DecidableEq sippy.Transaction] in
theorem Calm.aside (calm : stack.Calm servers platform) {next : Platform Link sippy}
    (owned : next.holdings.Owned)
    (slow : ∀ server ∈ next.lingering, next.outlasts server = true)
    (kept : KeepsMap servers own platform next)
    (identified : stack.Identified own ∨ platform.calls.state.controllers = [] ∧
      platform.holdings.place .transactionManager = none)
    (manager : next.holdings.place .transactionManager =
      platform.holdings.place .transactionManager) : stack.Calm servers next where
  owned := owned
  slow := slow
  kept := ⟨own, kept.1.1, by rw [kept.1.2, manager]; exact identified⟩
  dropped := by
    rw [kept.1.2, kept.2]
    exact calm.dropped
  down := by
    rw [kept.1.2, manager]
    exact calm.down

omit [DecidableEq sippy.Object] [DecidableEq sippy.Transaction] in
theorem Calm.calls (calm : stack.Calm servers platform) {action : AsAction} {calls : AsConfig}
    (up : platform.holdings.place .transactionManager ≠ none)
    (nested : Nested platform.calls action) (leavesNone : ¬LeavesTimerIn platform.calls action)
    (present : platform.Concerns action)
    (taken : (asSystem servers).step platform.calls action = some calls) :
    stack.Calm servers { platform with calls := calls } := by
  obtain ⟨own, kept, identified⟩ := calm.kept
  have identified : stack.Identified own := identified.resolve_right fun both => up both.2
  refine ⟨calm.owned, calm.slow, ⟨own, kept.step nested leavesNone taken, Or.inl identified⟩, ?_,
    fun none => absurd none up⟩
  intro later member other
  obtain ⟨index, foundLater⟩ := List.mem_iff_getElem?.mp member
  cases found : platform.calls.state.controllers[index]? with
  | some controller =>
      -- a controller of an earlier call map, which nothing happens to
      obtain ⟨same, foundSame, sameOwner⟩ := CallsKept.stays kept.settled taken found
      rw [foundLater] at foundSame
      cases foundSame
      have apart : projected servers index platform.calls action = none := by
        refine projected_eq_none found fun isConcerned => other ?_
        rw [sameOwner]
        exact present.owner isConcerned found
      obtain ⟨asWas, foundAsWas, _, sameCall⟩ := kept.untouched nested taken found apart
      rw [foundLater] at foundAsWas
      cases foundAsWas
      rw [sameCall]
      exact calm.dropped controller (List.mem_of_getElem? found) (by rw [← sameOwner]; exact other)
  | none =>
      -- a new controller is one of the present call map
      obtain ⟨request, rfl⟩ := CallsKept.comes kept.settled taken found foundLater
      exact absurd present other

theorem Calm.step (cancels : CancelsTimer cancel) (calm : stack.Calm servers platform)
    {next : Platform Link sippy} {action : PlatformAction LinkCall sippy}
    (orderly : stack.Orderly platform action)
    (taken : stack.step cancel servers platform action = some next) :
    stack.Calm servers next := by
  have owned : next.holdings.Owned :=
    (stack.step_owned action taken).mpr ⟨calm.owned, orderly.1⟩
  have slow : ∀ server ∈ next.lingering, next.outlasts server = true := by
    obtain ⟨outlasts, lingering⟩ := stack.step_lingering action taken
    intro server member
    rw [outlasts]
    rcases (lingering server).mp member with earlier | letGo
    · exact calm.slow server earlier
    · exact letGo.outlasts
  obtain ⟨own, kept, identified⟩ := calm.kept
  have asWas : KeepsMap servers own platform platform := ⟨⟨kept, rfl⟩, rfl⟩
  cases step_cases taken with
  | start answer idle =>
      obtain ⟨named, isNamed, keeps⟩ := calm.identify idle
      obtain ⟨keptNext, controllers⟩ := start_keepsCalls answer keeps
      refine ⟨owned, slow, ⟨named, keptNext, Or.inl isNamed⟩, ?_, ?_⟩
      · rw [controllers]
        exact fun controller member _ => calm.down orderly.2 controller member
      · rw [controllers]
        exact fun _ controller member => calm.down orderly.2 controller member
  | startInternalApi answer =>
      refine calm.aside owned slow (startInternalApi_keepsMap answer kept) identified ?_
      rcases stack.startInternalApi_took answer platform with ⟨_, took⟩ | ⟨_, same⟩
      · rw [took, Holdings.place_take, Function.update_of_ne (by decide)]
      · rw [same]
  | run controller answer idle outside =>
      refine calm.aside owned slow (run_keepsMap controller answer kept) identified ?_
      rw [run_took, Holdings.place_take, Function.update_of_ne (by decide), Holdings.place_take,
        Function.update_of_ne (by decide)]
  | stop answer =>
      have hushed := (calm.stop orderly.2 kept cancels answer).left rfl
      refine ⟨owned, slow, ⟨own, hushed.kept, ?_⟩, fun controller member _ =>
        hushed.silent controller member, fun _ => hushed.silent⟩
      exact identified.imp id fun both => ⟨hushed.none both.1, hushed.freed.1.vacant both.2⟩
  | calls action calls onward =>
      obtain ⟨_, up, nested, leavesNone, present⟩ := orderly
      exact calm.calls up nested leavesNone present onward
  | request | poll | leaveLoop | transactions | endThread =>
      exact calm.aside owned slow asWas identified rfl

structure Fresh (platform : Platform Link sippy) : Prop where
  holdings : platform.holdings = Holdings.empty
  lingering : platform.lingering = []
  frames : platform.calls.frames = []
  controllers : platform.calls.state.controllers = []

omit [DecidableEq sippy.Object] [DecidableEq sippy.Transaction] in
theorem Fresh.calm (fresh : Fresh platform) : stack.Calm servers platform where
  owned := fresh.holdings ▸ Holdings.owned_empty
  slow := by
    rw [fresh.lingering]
    exact fun server member => (List.not_mem_nil member).elim
  kept := by
    refine ⟨platform.calls.state, ?_, Or.inr ⟨fresh.controllers, ?_⟩⟩
    · have kept : CallsKept servers platform.calls.state
          { state := platform.calls.state, frames := [], escaped := platform.calls.escaped } :=
        CallsKept.without_calls fresh.controllers _
      rw [← fresh.frames] at kept
      exact kept
    · rw [fresh.holdings]
      rfl
  dropped := by
    rw [fresh.controllers]
    exact fun controller member => (List.not_mem_nil member).elim
  down := by
    rw [fresh.controllers]
    exact fun _ controller member => (List.not_mem_nil member).elim

/-- Wherever an orderly run has come to, and whichever calls raise: when `stop` shuts the
transaction manager down, no timer of the loop, of any call there ever was or that one of the
manager's transactions referred to is armed any more; and when it returns, nothing of the stack is
held but servers whose thread outlasted the join. -/
theorem quiet_at_shutdown (cancels : CancelsTimer cancel) {start : Platform Link sippy}
    (fresh : Fresh start) {actions : List (PlatformAction LinkCall sippy)}
    (ran : Transition.run (stack.step cancel servers) start actions = some platform)
    (orderly : Transition.Along (stack.step cancel servers)
      (fun platform action _ => stack.Orderly platform action) start actions)
    (idle : platform.calls.idle = true) (answer : Replies LinkCall) :
    (∀ manager found,
      (.shutdown manager, found) ∈ ((stack.stop cancel platform).play answer).calls →
        Quiet manager platform found) ∧
      (((stack.stop cancel platform).play answer).result = .ok () →
        (∀ thing, ((stack.stop cancel platform).play answer).state.Holds thing →
          platform.outlasts thing = true) ∧
        ∀ controller ∈ ((stack.stop cancel platform).play answer).state.calls.state.controllers,
          controller.call.Silent) := by
  have calm : stack.Calm servers platform :=
    Transition.invariant_of_along (stack.Calm servers)
      (fun _ _ _ calm orderly taken => calm.step cancels orderly taken) fresh.calm orderly ran
  obtain ⟨own, kept, _⟩ := calm.kept
  have met := calm.stop idle kept cancels answer platform rfl
  refine ⟨fun manager found called => met.asks _ found called manager rfl, fun returned => ?_⟩
  obtain ⟨released, vacant⟩ := stack.stop_vacant returned
  refine ⟨?_, (met.returns () returned).silent⟩
  rintro thing ⟨held | lingers, _⟩
  · have traced := (released.traced thing).mpr (calm.owned thing)
    exact absurd held ((Holdings.traced_iff_of_vacant vacant thing).mp traced)
  · rcases ((stack.stop_letGoOf cancel answer platform).2 thing).mp lingers with earlier | letGo
    · exact calm.slow thing earlier
    · exact letGo.2

/-! ### A stack that is stopped in the middle of a call -/

instance (platform : Platform Link sippy) : ∀ action, Decidable (platform.Concerns action)
  | .enter (.request owner _) => inferInstanceAs (Decidable (platform.callMap = some owner))
  | .enter (.call index _) =>
      inferInstanceAs (Decidable (∀ concern ∈ some index,
        ∀ controller ∈ platform.calls.state.controllers[concern]?,
          platform.callMap = some controller.owner))
  | .comeBack =>
      inferInstanceAs (Decidable (∀ concern ∈ concerned platform.calls .comeBack,
        ∀ controller ∈ platform.calls.state.controllers[concern]?,
          platform.callMap = some controller.owner))
  | .enter (.ruleHit _) | .enter (.appError _) => .isTrue nofun

omit [DecidableEq sippy.Object] [DecidableEq sippy.Transaction] in
instance (platform : Platform Link sippy) : ∀ action, Decidable (stack.Orderly platform action)
  | .start _ | .stop _ | .startInternalApi _ | .run _ _ | .request _ _ | .poll _ | .leaveLoop
  | .calls _ | .transactions _ _ | .endThread _ => by
      unfold Orderly
      infer_instance

end BaseAsStack

instance : DecidableEq sampleSippy.Object :=
  inferInstanceAs (DecidableEq Unit)

instance : DecidableEq sampleSippy.Key :=
  inferInstanceAs (DecidableEq Unit)

/-- One timer, which both tables and all transactions refer to. -/
def sampleTransactions : sampleSippy.Objects :=
  { table := fun _ => some (some (OrderedDict.singleton () ()))
    attributes := fun _ _ => some (some ())
    cbFunc := fun _ => some (some ())
    loop := () }

def sampleDisarm (timer : sampleSippy.Object) (objects : sampleSippy.Objects) :
    sampleSippy.Objects :=
  { objects with cbFunc := Function.update objects.cbFunc timer (some none) }

def sampleShift : List (PlatformAction Empty sampleSippy) :=
  [.start returning, .run 0 returning, .transactions 0 sampleTransactions] ++
    sampleAdmission.map .calls ++ [.request 0 "signal SIGTERM", .poll 1, .leaveLoop]

theorem quiet_at_shutdown_of_call :
    ∃ platform found,
      Transition.run (sampleStack.step sampleDisarm sampleServer) samplePlatform sampleShift =
        some platform ∧
      (∃ controller ∈ platform.calls.state.controllers, ¬controller.call.Silent) ∧
      (.shutdown 0, found) ∈ ((sampleStack.stop sampleDisarm platform).play returning).calls ∧
      Quiet 0 platform found := by
  have cancels : CancelsTimer sampleDisarm := fun _ objects _ => ⟨objects.loop, rfl⟩
  have fresh : BaseAsStack.Fresh samplePlatform := ⟨rfl, rfl, rfl, rfl⟩
  obtain ⟨platform, ran, idle, ringing, asked⟩ : ∃ platform,
      Transition.run (sampleStack.step sampleDisarm sampleServer) samplePlatform sampleShift =
        some platform ∧ platform.calls.idle = true ∧
      (platform.calls.state.controllers[0]?).map (fun controller => controller.call.armed 0) =
        some true ∧
      ((sampleStack.stop sampleDisarm platform).play returning).calls.map Prod.fst =
        [.shutdown 0] := ⟨_, rfl, rfl, rfl, rfl⟩
  obtain ⟨controller, isThere, armed⟩ := Option.map_eq_some_iff.mp ringing
  obtain ⟨⟨request, found⟩, called, rfl⟩ : ∃ call ∈
      ((sampleStack.stop sampleDisarm platform).play returning).calls, call.1 = .shutdown 0 :=
    List.mem_map.mp (asked ▸ List.mem_singleton.mpr rfl)
  have quiet := sampleStack.quiet_at_shutdown cancels fresh ran (by decide) idle returning
  exact ⟨platform, found, ran,
    ⟨controller, List.mem_of_getElem? isThere, fun silent => Bool.noConfusion
      (armed.symm.trans (silent 0))⟩, called, quiet.1 0 found called⟩

end AsPlatform
