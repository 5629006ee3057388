/-
How the loop of the stack comes to its end.

A handler of a signal only sets a flag, which a timer of the loop polls.  The loop may be
entered long after the signal, and what happens in it may stop the stack.
-/

import AsPlatform.Stack.Graceful

namespace AsPlatform

open Reentrant Reentrant.Handler Ownership Platform

variable {Link LinkCall : Type} {sippy : SippyTypes}

def StackThing.home : StackThing → StackPlace
  | .shutdownTimer _ => .shutdownTimer
  | .reloadTimer => .reloadTimer
  | .transactionManager _ => .transactionManager
  | .internalApi => .internalApi

structure SameLoop (before found : Platform Link sippy) : Prop where
  looping : found.looping = before.looping
  loopBroken : found.loopBroken = before.loopBroken
  controllers : found.controllers = before.controllers

namespace SameLoop

variable {before found : Platform Link sippy}

theorem refl (platform : Platform Link sippy) : SameLoop platform platform :=
  ⟨rfl, rfl, rfl⟩

theorem change (same : SameLoop before found) {next : Platform Link sippy}
    (looping : next.looping = found.looping) (loopBroken : next.loopBroken = found.loopBroken)
    (controllers : next.controllers = found.controllers) : SameLoop before next :=
  ⟨looping.trans same.looping, loopBroken.trans same.loopBroken,
    controllers.trans same.controllers⟩

end SameLoop

namespace BaseAsStack

variable (stack : BaseAsStack Link LinkCall)

/-! ### The operations -/

section Operations

variable (answer : Replies LinkCall) (before : Platform Link sippy)

theorem start_sameLoop : SameLoop before ((stack.start before).play answer).state := by
  have meets := stack.start_keeps answer (SameLoop before)
    (fun _ _ same => same.change rfl rfl rfl) (fun _ _ _ _ _ same => same.change rfl rfl rfl)
    (fun _ _ same => same.change rfl rfl rfl) (fun _ _ same => same.change rfl rfl rfl)
    (fun _ _ same => same.change rfl rfl rfl)
  exact meets.left ((SameLoop.refl before).change rfl rfl rfl)

theorem startInternalApi_sameLoop :
    SameLoop before ((stack.startInternalApi before).play answer).state := by
  have meets := stack.startInternalApi_keeps answer (SameLoop before)
    (fun _ same => same.change rfl rfl rfl) (fun _ _ same => same.change rfl rfl rfl)
  exact meets.left (SameLoop.refl before)

/-- `run` raises, or is in the loop, which nothing has broken yet. -/
theorem run_loop (controller : Nat) :
    ((stack.run controller before).play answer).state.controllers = before.controllers ∧
      (((stack.run controller before).play answer).state.looping = before.looping ∨
        ((stack.run controller before).play answer).state.looping = true ∧
          ((stack.run controller before).play answer).state.loopBroken = false) := by
  let loops (found : Platform Link sippy) : Prop := found.controllers = before.controllers ∧
    (found.looping = before.looping ∨ found.looping = true ∧ found.loopBroken = false)
  have given : SameLoop before (mapHoldings (Holdings.take .reloadTimer .reloadTimer)
      (mapHoldings (Holdings.take .shutdownTimer (.shutdownTimer controller)) before)) :=
    (SameLoop.refl before).change rfl rfl rfl
  have meets := stack.run_keeps answer (SameLoop before) controller
    fun _ _ same => same.change rfl rfl rfl
  have leaves : loops ((stack.run controller before).play answer).state := by
    refine meets.leaves ?_ ?_ given
    · rintro _ _ ⟨earlier, same, rfl⟩
      exact ⟨same.controllers, Or.inr ⟨rfl, rfl⟩⟩
    · exact fun _ _ same => ⟨same.controllers, Or.inl same.looping⟩
  exact leaves

theorem stop_sameLoop [DecidableEq sippy.Transaction]
    (cancel : sippy.Object → sippy.Objects → sippy.Objects) :
    SameLoop before ((stack.stop cancel before).play answer).state := by
  have meets := stack.stop_keeps answer (SameLoop before) cancel
    (fun _ _ same => same.change rfl rfl rfl) (fun _ _ same => same.change rfl rfl rfl)
    (fun _ _ same => same.change rfl rfl rfl) (fun _ _ same => same.change rfl rfl rfl)
    (fun _ _ same => same.change rfl rfl rfl) (fun _ _ same => same.change rfl rfl rfl)
  exact meets.left (SameLoop.refl before)

end Operations

/-! ### One step -/

section Steps

variable {stack} [DecidableEq sippy.Transaction]
  {cancel : sippy.Object → sippy.Objects → sippy.Objects} {servers : Nat → AsInstance}
  {platform next : Platform Link sippy} {action : PlatformAction LinkCall sippy}

theorem step_poll_of_requested {timer controller : Nat} (looping : platform.looping = true)
    (held : platform.holdings.Held timer)
    (isTimer : platform.holdings.things[timer]? = some (.shutdownTimer controller))
    (requested : platform.Requested controller) :
    stack.step cancel servers platform (.poll timer) =
      some { platform with loopBroken := true } := by
  obtain ⟨broken, polled, breaks⟩ := platform.pollShutdown_eq controller
  rw [breaks.mpr (Or.inr requested)] at polled
  have enabled : (platform.looping && decide (platform.holdings.Held timer)) = true := by
    rw [looping, Bool.true_and, decide_eq_true_iff]
    exact held
  refine (if_pos enabled).trans ?_
  rw [isTimer, ← polled]

theorem step_leaveLoop (looping : platform.looping = true)
    (broken : platform.loopBroken = true) :
    stack.step cancel servers platform .leaveLoop = some { platform with looping := false } := by
  have enabled : (platform.looping && platform.loopBroken) = true := by
    rw [looping, broken]
    decide
  exact if_pos enabled

/-- What a step does to the flags: a request sets one, and nothing clears any. -/
theorem step_requested (taken : stack.step cancel servers platform action = some next) :
    next.controllers.length = platform.controllers.length ∧ ∀ controller,
      (next.Requested controller ↔ platform.Requested controller ∨
        controller < platform.controllers.length ∧
          ∃ reason, action = .request controller reason) := by
  have untouched : next.controllers = platform.controllers →
      (∀ controller reason, action ≠ .request controller reason) →
      next.controllers.length = platform.controllers.length ∧ ∀ controller,
        (next.Requested controller ↔ platform.Requested controller ∨
          controller < platform.controllers.length ∧
            ∃ reason, action = .request controller reason) := by
    intro same other
    refine ⟨congrArg List.length same, fun controller => ?_⟩
    unfold Requested
    rw [same]
    exact (or_iff_left fun both => both.2.elim (other controller)).symm
  cases step_cases taken with
  | start answer idle => exact untouched (stack.start_sameLoop answer platform).controllers nofun
  | startInternalApi answer =>
      exact untouched (stack.startInternalApi_sameLoop answer platform).controllers nofun
  | run controller answer idle outside =>
      exact untouched (stack.run_loop answer platform controller).1 nofun
  | stop answer => exact untouched (stack.stop_sameLoop answer platform cancel).controllers nofun
  | request controller reason =>
      refine ⟨List.length_modify _ _ _, fun other => ?_⟩
      unfold Requested
      rw [List.getElem?_modify]
      by_cases same : controller = other
      · cases same
        constructor
        · rintro ⟨shutdown, found, _⟩
          obtain ⟨before, isBefore, _⟩ := Option.map_eq_some_iff.mp found
          exact Or.inr ⟨(List.getElem?_eq_some_iff.mp isBefore).1, reason, rfl⟩
        · intro either
          have within : controller < platform.controllers.length := by
            rcases either with ⟨shutdown, found, _⟩ | ⟨within, _⟩
            · exact (List.getElem?_eq_some_iff.mp found).1
            · exact within
          refine ⟨ShutdownController.request reason platform.controllers[controller], ?_, rfl⟩
          rw [List.getElem?_eq_getElem within, Option.map_eq_map, Option.map_some, if_pos rfl]
      · have unchanged : (fun shutdown => if controller = other then
            ShutdownController.request reason shutdown else shutdown) = id :=
          funext fun _ => if_neg same
        rw [unchanged, Option.map_eq_map, Option.map_id, id]
        refine (or_iff_left ?_).symm
        rintro ⟨_, otherReason, isRequest⟩
        cases isRequest
        exact same rfl
  | poll | leaveLoop | calls | transactions | endThread => exact untouched rfl nofun

/-- A step that does not enter the loop leaves it, breaks it by a poll, or lets it be. -/
theorem step_loop (notRun : ∀ controller answer, action ≠ .run controller answer)
    (taken : stack.step cancel servers platform action = some next) :
    (next.looping = true ↔ platform.looping = true ∧ action ≠ .leaveLoop) ∧
      (next.loopBroken = true ↔ platform.loopBroken = true ∨
        ∃ timer controller, action = .poll timer ∧
          platform.holdings.things[timer]? = some (.shutdownTimer controller) ∧
          platform.Requested controller) := by
  have untouched : SameLoop platform next → (∀ timer, action ≠ .poll timer) →
      action ≠ .leaveLoop → (next.looping = true ↔ platform.looping = true ∧ action ≠ .leaveLoop) ∧
        (next.loopBroken = true ↔ platform.loopBroken = true ∨
          ∃ timer controller, action = .poll timer ∧
            platform.holdings.things[timer]? = some (.shutdownTimer controller) ∧
            platform.Requested controller) := by
    intro same other stays
    rw [same.looping, same.loopBroken]
    refine ⟨(and_iff_left stays).symm, (or_iff_left ?_).symm⟩
    rintro ⟨timer, _, isPoll, _⟩
    exact other timer isPoll
  cases step_cases taken with
  | start answer idle => exact untouched (stack.start_sameLoop answer platform) nofun nofun
  | startInternalApi answer =>
      exact untouched (stack.startInternalApi_sameLoop answer platform) nofun nofun
  | run controller answer idle outside => exact absurd rfl (notRun controller answer)
  | stop answer => exact untouched (stack.stop_sameLoop answer platform cancel) nofun nofun
  | request controller reason =>
      refine ⟨(and_iff_left nofun).symm, (or_iff_left ?_).symm⟩
      rintro ⟨_, _, isPoll, _⟩
      cases isPoll
  | poll timer controller broken looping held isTimer breaks =>
      refine ⟨(and_iff_left nofun).symm, breaks.trans (or_congr_right ?_)⟩
      constructor
      · exact fun requested => ⟨timer, controller, rfl, isTimer, requested⟩
      · rintro ⟨_, other, isPoll, isOther, requested⟩
        cases isPoll
        cases isTimer.symm.trans isOther
        exact requested
  | leaveLoop looping broken =>
      refine ⟨iff_of_false Bool.false_ne_true fun both => both.2 rfl, (or_iff_left ?_).symm⟩
      rintro ⟨_, _, isPoll, _⟩
      cases isPoll
  | calls | transactions | endThread => exact untouched ⟨rfl, rfl, rfl⟩ nofun nofun

inductive Shifts (stops : Prop) (before after : Holdings StackPlace StackThing) : Prop where
  | takes (thing : StackThing) (other : thing.home ≠ .shutdownTimer) (goesOn : ¬stops)
      (isAfter : after = before.take thing.home thing)
  | stays (goesOn : ¬stops) (isAfter : after = before)
  | releases (stops : stops) (released : Holdings.Released before after)
      (cancelled : after.place .shutdownTimer = none)

theorem step_shifts (notRun : ∀ controller answer, action ≠ .run controller answer)
    (taken : stack.step cancel servers platform action = some next) :
    Shifts (∃ answer, action = .stop answer) platform.holdings next.holdings := by
  cases step_cases taken with
  | start answer idle =>
      rcases stack.start_took answer platform with ⟨_, took⟩ | ⟨_, same⟩
      · exact .takes (.transactionManager platform.maps) nofun
          (fun ⟨_, stops⟩ => nomatch stops) took
      · exact .stays (fun ⟨_, stops⟩ => nomatch stops) same
  | startInternalApi answer =>
      rcases stack.startInternalApi_took answer platform with ⟨_, took⟩ | ⟨_, same⟩
      · exact .takes .internalApi (by decide) (fun ⟨_, stops⟩ => nomatch stops) took
      · exact .stays (fun ⟨_, stops⟩ => nomatch stops) same
  | run controller answer idle outside => exact absurd rfl (notRun controller answer)
  | stop answer =>
      have freed := stack.stop_released cancel answer platform
      exact .releases ⟨answer, rfl⟩ freed.1 (freed.2 _ (by simp))
  | request | poll | leaveLoop | calls | transactions | endThread =>
      exact .stays (fun ⟨_, stops⟩ => nomatch stops) rfl

end Steps

/-! ### Whole runs -/

section Runs

variable {stack} {start platform next : Platform Link sippy}

/-- A shutdown was requested of the controller before the run or in it. -/
def Signalled (start : Platform Link sippy) (actions : List (PlatformAction LinkCall sippy))
    (controller : Nat) : Prop :=
  start.Requested controller ∨ controller < start.controllers.length ∧
    ∃ reason, .request controller reason ∈ actions

theorem signalled_concat {actions : List (PlatformAction LinkCall sippy)}
    {action : PlatformAction LinkCall sippy} {controller : Nat} :
    Signalled start (actions ++ [action]) controller ↔ Signalled start actions controller ∨
      controller < start.controllers.length ∧ ∃ reason, action = .request controller reason := by
  unfold Signalled
  simp only [List.mem_append, List.mem_singleton, exists_or, and_or_left, or_assoc]
  simp only [eq_comm]

variable [DecidableEq sippy.Transaction]
  {cancel : sippy.Object → sippy.Objects → sippy.Objects} {servers : Nat → AsInstance}

/-- No request is lost, and none is made up. -/
theorem requested_iff {actions : List (PlatformAction LinkCall sippy)}
    (ran : Transition.run (stack.step cancel servers) start actions = some platform) :
    platform.controllers.length = start.controllers.length ∧ ∀ controller,
      (platform.Requested controller ↔ Signalled start actions controller) := by
  induction actions generalizing start with
  | nil =>
      cases ran
      refine ⟨rfl, fun controller => (or_iff_left ?_).symm⟩
      rintro ⟨_, _, member⟩
      cases member
  | cons action rest ih =>
      obtain ⟨middle, taken, onward⟩ := Transition.run_cons ran
      obtain ⟨sameLength, now⟩ := step_requested taken
      obtain ⟨length, later⟩ := ih onward
      refine ⟨length.trans sameLength, fun controller => (later controller).trans ?_⟩
      unfold Signalled
      rw [now, sameLength, or_assoc]
      simp only [List.mem_cons, exists_or, and_or_left, eq_comm]

structure InLoop (start : Platform Link sippy) (controller : Nat)
    (before since : List (PlatformAction LinkCall sippy)) (platform : Platform Link sippy) :
    Prop where
  owned : platform.holdings.Owned
  fits : platform.holdings.Fits StackThing.home
  looping : platform.looping = true
  requested : platform.Requested controller ↔ Signalled start (before ++ since) controller
  timer : (¬∃ answer, .stop answer ∈ since) ∧
      (∃ timer, platform.holdings.place .shutdownTimer = some timer ∧
        platform.holdings.things[timer]? = some (.shutdownTimer controller)) ∨
    (∃ answer, .stop answer ∈ since) ∧ platform.holdings.place .shutdownTimer = none
  broken : platform.loopBroken = true ↔
    Transition.Occurs (fun earlier action => (∃ timer, action = .poll timer) ∧
      Signalled start (before ++ earlier) controller) since

omit [DecidableEq sippy.Transaction] in
theorem InLoop.polls {controller : Nat} {before since : List (PlatformAction LinkCall sippy)}
    (inLoop : InLoop start controller before since platform) {timer other : Nat}
    (held : platform.holdings.Held timer)
    (isTimer : platform.holdings.things[timer]? = some (.shutdownTimer other)) :
    other = controller := by
  have refers := inLoop.fits.place_of_held inLoop.owned held isTimer
  rcases inLoop.timer with ⟨_, mine, refersMine, isMine⟩ | ⟨_, vacant⟩
  · cases refersMine.symm.trans refers
    cases isMine.symm.trans isTimer
    rfl
  · cases vacant.symm.trans refers

theorem InLoop.step {controller : Nat} {before since : List (PlatformAction LinkCall sippy)}
    {action : PlatformAction LinkCall sippy}
    (inLoop : InLoop start controller before since platform)
    (length : platform.controllers.length = start.controllers.length)
    (spares : ¬stack.Overwrites platform action)
    (notRun : ∀ other answer, action ≠ .run other answer)
    (taken : stack.step cancel servers platform action = some next)
    (looping : next.looping = true) :
    InLoop start controller before (since ++ [action]) next := by
  have shifts := step_shifts notRun taken
  have stops : (∃ answer, PlatformAction.stop answer ∈ since ++ [action]) ↔
      (∃ answer, PlatformAction.stop answer ∈ since) ∨ ∃ answer, action = .stop answer := by
    simp only [List.mem_append, List.mem_singleton, exists_or, eq_comm]
  refine ⟨(stack.step_owned action taken).mpr ⟨inLoop.owned, spares⟩, ?_, looping, ?_, ?_, ?_⟩
  · cases shifts with
    | takes thing other goesOn isAfter =>
        rw [isAfter]
        exact Holdings.fits_take thing inLoop.fits
    | stays goesOn isAfter =>
        rw [isAfter]
        exact inLoop.fits
    | releases stops released cancelled => exact inLoop.fits.released released
  · rw [(step_requested taken).2, inLoop.requested, length, ← List.append_assoc, signalled_concat]
  · rw [stops]
    cases shifts with
    | takes thing other goesOn isAfter =>
        rw [or_iff_left goesOn, isAfter, Holdings.place_take, Function.update_of_ne other.symm,
          Holdings.things_take]
        refine inLoop.timer.imp_left fun ⟨goesOn, timer, refers, isTimer⟩ =>
          ⟨goesOn, timer, refers, ?_⟩
        rw [List.getElem?_append_left (platform.holdings.inside _ timer refers)]
        exact isTimer
    | stays goesOn isAfter =>
        rw [or_iff_left goesOn, isAfter]
        exact inLoop.timer
    | releases stops released cancelled => exact Or.inr ⟨Or.inr stops, cancelled⟩
  · rw [(step_loop notRun taken).2, inLoop.broken, Transition.occurs_concat]
    refine or_congr_right ?_
    constructor
    · rintro ⟨timer, other, rfl, isTimer, requested⟩
      cases step_cases taken with
      | poll timer polled broken looping held isPolled breaks =>
          cases inLoop.polls held isTimer
          exact ⟨⟨timer, rfl⟩, inLoop.requested.mp requested⟩
    · rintro ⟨⟨timer, rfl⟩, signalled⟩
      cases step_cases taken with
      | poll timer polled broken looping held isPolled breaks =>
          cases inLoop.polls held isPolled
          exact ⟨timer, controller, rfl, isPolled, inLoop.requested.mpr signalled⟩

theorem step_fits {action : PlatformAction LinkCall sippy}
    (fits : platform.holdings.Fits StackThing.home)
    (taken : stack.step cancel servers platform action = some next) :
    next.holdings.Fits StackThing.home := by
  by_cases isRun : ∃ controller answer, action = .run controller answer
  · obtain ⟨controller, answer, rfl⟩ := isRun
    cases step_cases taken with
    | run controller answer idle outside =>
        rw [run_took]
        exact Holdings.fits_take .reloadTimer (Holdings.fits_take (.shutdownTimer controller) fits)
  · cases step_shifts (fun controller answer same => isRun ⟨controller, answer, same⟩) taken with
    | takes thing other goesOn isAfter =>
        rw [isAfter]
        exact Holdings.fits_take thing fits
    | stays goesOn isAfter =>
        rw [isAfter]
        exact fits
    | releases stops released cancelled => exact fits.released released

theorem InLoop.entered {controller : Nat} {answer : Replies LinkCall}
    {before : List (PlatformAction LinkCall sippy)} (owned : platform.holdings.Owned)
    (fits : platform.holdings.Fits StackThing.home)
    (length : platform.controllers.length = start.controllers.length)
    (requested : platform.Requested controller ↔ Signalled start before controller)
    (spares : ¬stack.Overwrites platform (.run controller answer))
    (taken : stack.step cancel servers platform (.run controller answer) = some next)
    (looping : next.looping = true) :
    InLoop start controller (before ++ [.run controller answer]) [] next := by
  refine ⟨(stack.step_owned _ taken).mpr ⟨owned, spares⟩, step_fits fits taken, looping, ?_, ?_, ?_⟩
  · rw [(step_requested taken).2, requested, length, List.append_nil, signalled_concat]
  · refine Or.inl ⟨fun ⟨_, member⟩ => (List.not_mem_nil member).elim, ?_⟩
    cases step_cases taken with
    | run controller answer idle outside =>
        refine ⟨platform.holdings.things.length, ?_, ?_⟩
        · rw [run_took, Holdings.place_take, Function.update_of_ne (by decide),
            Holdings.place_take, Function.update_self]
        · rw [run_took, Holdings.things_take, Holdings.things_take,
            List.getElem?_append_left (by simp), List.getElem?_concat_length]
  · refine iff_of_false ?_ Transition.not_occurs_nil
    cases step_cases taken with
    | run controller answer idle outside =>
        rcases (stack.run_loop answer platform controller).2 with same | ⟨_, unbroken⟩
        · cases outside.symm.trans (same.symm.trans looping)
        · rw [unbroken]
          decide

theorem looping_of_later {more : List (PlatformAction LinkCall sippy)}
    {last : Platform Link sippy} (notAgain : ∀ other answer, .run other answer ∉ more)
    (ran : Transition.run (stack.step cancel servers) platform more = some last)
    (looping : last.looping = true) : platform.looping = true := by
  induction more generalizing platform with
  | nil =>
      cases ran
      exact looping
  | cons action rest ih =>
      obtain ⟨next, taken, onward⟩ := Transition.run_cons ran
      have nextLooping := ih (fun other answer member =>
        notAgain other answer (List.mem_cons_of_mem _ member)) onward
      exact ((step_loop (fun other answer same =>
        notAgain other answer (same ▸ List.mem_cons_self)) taken).1.mp nextLooping).1

theorem InLoop.run {controller : Nat} {before since more : List (PlatformAction LinkCall sippy)}
    {last : Platform Link sippy} (inLoop : InLoop start controller before since platform)
    (length : platform.controllers.length = start.controllers.length)
    (spares : Transition.Along (stack.step cancel servers)
      (fun platform action _ => ¬stack.Overwrites platform action) platform more)
    (notAgain : ∀ other answer, .run other answer ∉ more)
    (ran : Transition.run (stack.step cancel servers) platform more = some last)
    (looping : last.looping = true) : InLoop start controller before (since ++ more) last := by
  induction more generalizing since platform with
  | nil =>
      cases ran
      rw [List.append_nil]
      exact inLoop
  | cons action rest ih =>
      obtain ⟨next, taken, onward⟩ := Transition.run_cons ran
      obtain ⟨now, later⟩ := spares next taken
      have notRun : ∀ other answer, action ≠ .run other answer :=
        fun other answer same => notAgain other answer (same ▸ List.mem_cons_self)
      have notLater : ∀ other answer, .run other answer ∉ rest :=
        fun other answer member => notAgain other answer (List.mem_cons_of_mem _ member)
      have sameLength := (step_requested taken).1.trans length
      have nextLooping : next.looping = true := looping_of_later notLater onward looping
      rw [List.append_cons]
      exact ih (inLoop.step length now notRun taken nextLooping) sameLength later notLater onward

structure Hung (platform : Platform Link sippy) : Prop where
  looping : platform.looping = true
  unbroken : platform.loopBroken = false
  deaf : ∀ timer controller, platform.holdings.Held timer →
    platform.holdings.things[timer]? ≠ some (.shutdownTimer controller)

theorem Hung.step {action : PlatformAction LinkCall sippy} (hung : Hung platform)
    (taken : stack.step cancel servers platform action = some next) : Hung next := by
  have notRun : ∀ controller answer, action ≠ .run controller answer := by
    rintro controller answer rfl
    cases step_cases taken with
    | run controller answer idle outside => cases outside.symm.trans hung.looping
  obtain ⟨looping, broken⟩ := step_loop notRun taken
  refine ⟨looping.mpr ⟨hung.looping, ?_⟩, ?_, ?_⟩
  · rintro rfl
    cases step_cases taken with
    | leaveLoop looping isBroken => cases hung.unbroken.symm.trans isBroken
  · rw [← Bool.not_eq_true, broken, hung.unbroken]
    rintro (impossible | ⟨timer, controller, rfl, isTimer, _⟩)
    · cases impossible
    · cases step_cases taken with
      | poll timer other isBroken looping held isPolled breaks =>
          exact hung.deaf timer controller held isTimer
  · intro timer controller held isTimer
    cases step_shifts notRun taken with
    | takes thing other goesOn isAfter =>
        rw [isAfter] at held isTimer
        rw [Holdings.things_take] at isTimer
        rcases Holdings.held_take.mp held with older | newest
        · rw [List.getElem?_append_left older.1] at isTimer
          exact hung.deaf timer controller older isTimer
        · rw [newest, List.getElem?_concat_length, Option.some.injEq] at isTimer
          exact other (by rw [isTimer]; rfl)
    | stays goesOn isAfter =>
        rw [isAfter] at held isTimer
        exact hung.deaf timer controller held isTimer
    | releases stops released cancelled =>
        rw [released.things] at isTimer
        exact hung.deaf timer controller (released.held timer held) isTimer

theorem Hung.run {more : List (PlatformAction LinkCall sippy)} {last : Platform Link sippy}
    (hung : Hung platform)
    (ran : Transition.run (stack.step cancel servers) platform more = some last) : Hung last := by
  induction more generalizing platform with
  | nil =>
      cases ran
      exact hung
  | cons action rest ih =>
      obtain ⟨next, taken, onward⟩ := Transition.run_cons ran
      exact ih (hung.step taken) onward

omit [DecidableEq sippy.Transaction] in
theorem InLoop.hung {controller : Nat} {before since : List (PlatformAction LinkCall sippy)}
    (inLoop : InLoop start controller before since platform)
    (unbroken : platform.loopBroken = false) (stopped : ∃ answer, .stop answer ∈ since) :
    Hung platform := by
  refine ⟨inLoop.looping, unbroken, fun timer other held isTimer => ?_⟩
  have refers := inLoop.fits.place_of_held inLoop.owned held isTimer
  rcases inLoop.timer with ⟨goesOn, _⟩ | ⟨_, vacant⟩
  · exact goesOn stopped
  · cases vacant.symm.trans refers

theorem InLoop.leaves {controller : Nat} {before since : List (PlatformAction LinkCall sippy)}
    (inLoop : InLoop start controller before since platform)
    (goesOn : ¬∃ answer, .stop answer ∈ since)
    (signalled : Signalled start (before ++ since) controller) :
    ∃ timer, Transition.run (stack.step cancel servers) platform [.poll timer, .leaveLoop] =
      some { platform with
        loopBroken := true
        looping := false } := by
  obtain ⟨timer, refers, isTimer⟩ :=
    (inLoop.timer.resolve_right fun stopped => goesOn stopped.1).2
  have polled : stack.step cancel servers platform (.poll timer) =
      some { platform with loopBroken := true } :=
    step_poll_of_requested inLoop.looping (Holdings.held_of_place refers) isTimer
      (inLoop.requested.mpr signalled)
  have left : stack.step cancel servers { platform with loopBroken := true } .leaveLoop =
      some { platform with
        loopBroken := true
        looping := false } := step_leaveLoop inLoop.looping rfl
  refine ⟨timer, ?_⟩
  rw [Transition.run, polled, Option.bind_some, Transition.run, left]
  rfl

/-- A loop that is broken, or in which nobody has stopped the stack, can be left. -/
theorem InLoop.canLeave {controller : Nat} {before since : List (PlatformAction LinkCall sippy)}
    (inLoop : InLoop start controller before since platform)
    (length : platform.controllers.length = start.controllers.length)
    (isThere : controller < start.controllers.length)
    (either : platform.loopBroken = true ∨ ¬∃ answer, .stop answer ∈ since) :
    ∃ more last, Transition.run (stack.step cancel servers) platform more = some last ∧
      last.looping = false := by
  by_cases broken : platform.loopBroken = true
  · refine ⟨[.leaveLoop], { platform with looping := false }, ?_, rfl⟩
    rw [Transition.run, step_leaveLoop inLoop.looping broken]
    rfl
  · have goesOn := either.resolve_left broken
    -- somebody asks for it
    let asked : Platform Link sippy := { platform with
      controllers := platform.controllers.modify controller (ShutdownController.request "") }
    have requests : stack.step cancel servers platform (.request controller "") = some asked := rfl
    have notRun : ∀ other answer,
        (.request controller "" : PlatformAction LinkCall sippy) ≠ .run other answer := by
      intro other answer same
      cases same
    have still := inLoop.step length id notRun requests inLoop.looping
    have goesOnStill :
        ¬∃ answer, PlatformAction.stop answer ∈ since ++ [.request controller ""] := by
      rintro ⟨answer, member⟩
      rcases List.mem_append.mp member with earlier | now
      · exact goesOn ⟨answer, earlier⟩
      · cases List.mem_singleton.mp now
    have signalled : Signalled start (before ++ (since ++ [.request controller ""])) controller :=
      Or.inr ⟨isThere, "", List.mem_append_right _ (List.mem_append_right _
        (List.mem_singleton.mpr rfl))⟩
    obtain ⟨timer, leaves⟩ := still.leaves goesOnStill signalled
    refine ⟨.request controller "" :: [.poll timer, .leaveLoop],
      { asked with
        loopBroken := true
        looping := false }, ?_, rfl⟩
    rw [Transition.run, requests]
    exact leaves

theorem inLoop_of_run {controller : Nat} {answer : Replies LinkCall}
    {before since : List (PlatformAction LinkCall sippy)}
    (fresh : start.holdings = Holdings.empty)
    (ran : Transition.run (stack.step cancel servers) start
      (before ++ [.run controller answer] ++ since) = some platform)
    (spares : Transition.Along (stack.step cancel servers)
      (fun platform action _ => ¬stack.Overwrites platform action) start
      (before ++ [.run controller answer] ++ since))
    (notAgain : ∀ other reply, .run other reply ∉ since) (looping : platform.looping = true) :
    InLoop start controller (before ++ [.run controller answer]) since platform := by
  rw [List.append_assoc] at ran spares
  obtain ⟨outside, ranBefore, onward⟩ := Transition.exists_run_append ran
  obtain ⟨sparesBefore, sparesOnward⟩ := Transition.along_of_append ranBefore spares
  obtain ⟨inside, taken, ranSince⟩ := Transition.run_cons onward
  obtain ⟨sparesRun, sparesSince⟩ := sparesOnward inside taken
  obtain ⟨length, requested⟩ := requested_iff ranBefore
  have owned : outside.holdings.Owned :=
    (Transition.iff_along (fun _ action _ => stack.step_owned action) ranBefore).mpr
      ⟨fresh ▸ Holdings.owned_empty, sparesBefore⟩
  have fits : outside.holdings.Fits StackThing.home :=
    Transition.invariant_of_step
      (fun found : Platform Link sippy => found.holdings.Fits StackThing.home)
      (fun _ _ _ fits taken => step_fits fits taken) (fresh ▸ Holdings.fits_empty) ranBefore
  have entered := InLoop.entered owned fits length (requested controller) sparesRun taken
    (looping_of_later notAgain ranSince looping)
  exact entered.run ((step_requested taken).1.trans length) sparesSince notAgain ranSince looping

/-- A stack is in its loop, after anything that takes nothing for an attribute that still refers
to something.  The loop has been broken exactly if its timer was polled after a shutdown had been
requested of its controller, be it before or after it was entered.  As long as the stack was not
stopped in the loop, no request is lost: the next poll lets `run` return.  And `run` can still
return exactly if the loop has been broken or the stack was not stopped in it. -/
theorem loop_ends_on_request {controller : Nat} {answer : Replies LinkCall}
    {before since : List (PlatformAction LinkCall sippy)}
    (fresh : start.holdings = Holdings.empty) (isThere : controller < start.controllers.length)
    (ran : Transition.run (stack.step cancel servers) start
      (before ++ [.run controller answer] ++ since) = some platform)
    (spares : Transition.Along (stack.step cancel servers)
      (fun platform action _ => ¬stack.Overwrites platform action) start
      (before ++ [.run controller answer] ++ since))
    (notAgain : ∀ other reply, .run other reply ∉ since) (looping : platform.looping = true) :
    (platform.loopBroken = true ↔
      Transition.Occurs (fun earlier action => (∃ timer, action = .poll timer) ∧
        Signalled start (before ++ [.run controller answer] ++ earlier) controller) since) ∧
    ((¬∃ reply, .stop reply ∈ since) →
      Signalled start (before ++ [.run controller answer] ++ since) controller →
        ∃ timer, Transition.run (stack.step cancel servers) platform [.poll timer, .leaveLoop] =
          some { platform with
            loopBroken := true
            looping := false }) ∧
    ((∃ more last, Transition.run (stack.step cancel servers) platform more = some last ∧
      last.looping = false) ↔ platform.loopBroken = true ∨ ¬∃ reply, .stop reply ∈ since) := by
  have inLoop := inLoop_of_run fresh ran spares notAgain looping
  refine ⟨inLoop.broken, fun goesOn signalled => inLoop.leaves goesOn signalled, ?_,
    inLoop.canLeave (requested_iff ran).1 isThere⟩
  rintro ⟨more, last, ranMore, ended⟩
  by_contra neither
  obtain ⟨unbroken, stopped⟩ := not_or.mp neither
  have hung := inLoop.hung (Bool.not_eq_true _ ▸ unbroken) (not_not.mp stopped)
  exact Bool.false_ne_true (ended.symm.trans (hung.run ranMore).looping)

end Runs

end BaseAsStack

def sampleEarlySignal : List (PlatformAction Empty sampleSippy) :=
  [.start returning, .request 0 "signal SIGTERM"]

/-- The early signal ends the loop; but where a handler has stopped the stack first, the loop goes
on for ever. -/
theorem loop_ends_on_request_early :
    ∃ inside stopped,
      Transition.run (sampleStack.step sampleDisarm sampleServer) samplePlatform
        (sampleEarlySignal ++ [.run 0 returning] ++ []) = some inside ∧
      (∃ timer last, Transition.run (sampleStack.step sampleDisarm sampleServer) inside
        [.poll timer, .leaveLoop] = some last ∧ last.looping = false) ∧
      Transition.run (sampleStack.step sampleDisarm sampleServer) samplePlatform
        (sampleEarlySignal ++ [.run 0 returning] ++ [.stop returning]) = some stopped ∧
      ¬∃ more last, Transition.run (sampleStack.step sampleDisarm sampleServer) stopped more =
        some last ∧ last.looping = false := by
  obtain ⟨inside, ran, looping⟩ : ∃ inside,
      Transition.run (sampleStack.step sampleDisarm sampleServer) samplePlatform
        (sampleEarlySignal ++ [.run 0 returning] ++ []) = some inside ∧ inside.looping = true :=
    ⟨_, rfl, rfl⟩
  obtain ⟨stopped, ranStopped, goesOn, unbroken⟩ : ∃ stopped,
      Transition.run (sampleStack.step sampleDisarm sampleServer) samplePlatform
        (sampleEarlySignal ++ [.run 0 returning] ++ [.stop returning]) = some stopped ∧
      stopped.looping = true ∧ stopped.loopBroken = false := ⟨_, rfl, rfl, rfl⟩
  have early := BaseAsStack.loop_ends_on_request rfl (by decide) ran (by decide)
    (by simp) looping
  have late := BaseAsStack.loop_ends_on_request rfl (by decide) ranStopped (by decide)
    (by simp) goesOn
  obtain ⟨timer, leaves⟩ := early.2.1 (by simp) (Or.inr ⟨by decide, "signal SIGTERM", by simp
    [sampleEarlySignal]⟩)
  refine ⟨inside, stopped, ran, ⟨timer, _, leaves, rfl⟩, ranStopped, fun ends => ?_⟩
  rcases late.2.2.mp ends with broken | notStopped
  · exact nomatch unbroken.symm.trans broken
  · exact notStopped ⟨returning, List.mem_singleton.mpr rfl⟩

end AsPlatform
