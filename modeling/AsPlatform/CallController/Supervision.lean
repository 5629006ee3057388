/-
Which attempts are watched by a timer.

A failover arms the timer of the new attempt and then, when the call that gives the
INVITE has come back, cancels the timer that is referred to, which is by now the new
one.  So the first attempt of a call is watched and the later ones are not.
-/

import AsPlatform.CallController.Decisions
import AsPlatform.CallController.Timers

namespace AsPlatform

open Reentrant

/-- The timer of the newest attempt is armed and is the one referred to. -/
def Call.Supervised (call : Call) : Prop :=
  ∃ timer, timer + 1 = call.legs.length ∧ call.armed timer = true ∧
    call.noAnswerTimer = some timer

/-- The current leg has been given the pending event and has raised nothing, its timer
has not fired, and the trunk leg has neither connected nor ended. -/
structure Call.Waiting (call : Call) : Prop where
  leg : ∃ ua pending, call.uaO.bind call.ua? = some ua ∧ call.pendingEvent = some pending ∧
    ua.received.head? = some pending ∧ ua.raised = []
  timer : ∀ timer, call.timers.getLast? = some timer → timer.state ≠ .fired
  trunk : (call.trunk.map fun ua => ua.wasConnected || ua.ended) = some false

structure Watch (outline : CallOutline) : Prop where
  shape : outline.view.call.Shape
  watched : ∀ attempt leg, outline.view.call.legs.length = attempt + 1 →
    outline.view.call.ua? (.leg attempt) = some leg → leg.raised = [] →
      (outline.view.call.noAnswerTimer = some attempt ∧
        ∃ timer, outline.view.call.timers[attempt]? = some timer ∧
          timer.state ≠ .cancelled) ∨
      (outline.view.call.noAnswerTimer = none ∧ 1 ≤ attempt ∧ outline.view.CanAttempt)
  cleared : outline.view.CanAttempt → 2 ≤ outline.view.call.legs.length →
    outline.view.call.noAnswerTimer ≠ none → ∃ request, (request, true) ∈ outline.suspended
  clears : ∀ request, (request, true) ∈ outline.suspended →
    2 ≤ outline.view.call.legs.length ∧ outline.view.CanAttempt

theorem Watch.initial (process : Process) (globalConfig : GlobalConfig)
    (nextHop : Option (String × Nat)) :
    Watch
      { view := (process.newCall globalConfig nextHop).control
        suspended := []
        escaped := 0 } where
  shape := Call.Shape.initial globalConfig nextHop
  watched := fun _ _ legs => by cases legs
  cleared := fun _ legs => by cases legs
  clears := fun _ member => by cases member

structure SameClears (outline next : CallOutline) : Prop where
  older : ∀ request, (request, true) ∈ next.suspended → (request, true) ∈ outline.suspended
  kept : outline.view.call.legs ≠ [] → outline.view.CanAttempt →
    next.view.call.noAnswerTimer ≠ none →
      ∀ request, (request, true) ∈ outline.suspended → (request, true) ∈ next.suspended

theorem step_sameClears {app : App} {outline next : CallOutline} {action : CallAction}
    (step : CallStep app outline action next) (shape : outline.view.call.Shape)
    (quiet : ¬Originates app outline.view.call action) : SameClears outline next := by
  cases step with
  | comeBack request clears suspended innermost =>
      constructor
      · intro other member
        rw [innermost]
        exact List.mem_cons_of_mem _ member
      · intro _ _ referred other member
        rw [innermost, List.mem_cons] at member
        rcases member with head | tail
        · cases head
          simp [afterCall] at referred
        · exact tail
  | enter label control ending happens =>
      cases ending with
      | returned => exact ⟨fun _ member => member, fun _ _ _ _ member => member⟩
      | raised =>
          constructor
          · intro request member
            cases member
          · intro routed can
            exact absurd can (happens.raised shape routed)
      | called request clears =>
          cases clears with
          | true => exact absurd happens.clears quiet
          | false =>
              constructor
              · intro other member
                rcases List.mem_cons.mp member with head | tail
                · cases head
                · exact tail
              · exact fun _ _ _ other member => List.mem_cons_of_mem _ member

theorem canAttempt_of_two {app : App} {outline next : CallOutline} {action : CallAction}
    (step : CallStep app outline action next) (shape : outline.view.call.Shape)
    (legs : 2 ≤ outline.view.call.legs.length) :
    next.view.CanAttempt ↔ outline.view.CanAttempt := by
  refine (step_sameDecision step shape ?_).canAttempt
  intro none
  rw [none] at legs
  cases legs

/-- The newest attempt after a step that starts none: its timer is referred to as
before, or its leg has spoken, or the failover that started it has cancelled it. -/
theorem Watch.quiet {app : App} {outline next : CallOutline} {action : CallAction}
    (watch : Watch outline) (step : CallStep app outline action next)
    (running : action ≠ .enter .dispose)
    (quiet : ¬Originates app outline.view.call action) : Watch next := by
  have same := step_sameAttempt step watch.shape quiet
  have clears := step_sameClears step watch.shape quiet
  have silentBefore : ∀ attempt leg, next.view.call.ua? (.leg attempt) = some leg →
      leg.raised = [] → ∃ older, outline.view.call.ua? (.leg attempt) = some older ∧
        older.raised = [] ∧ raisedBy (.leg attempt) action = [] := by
    intro attempt leg found silent
    have within : attempt < outline.view.call.legs.length := by
      rw [← same.length]
      exact (List.getElem?_eq_some_iff.mp found).1
    have present := List.getElem?_eq_getElem within
    obtain ⟨later, now, raised⟩ := step_raised step watch.shape
      (show outline.view.call.ua? (.leg attempt) = some _ from present)
    rw [found] at now
    cases now
    rw [silent] at raised
    obtain ⟨before, nothing⟩ := List.append_eq_nil_iff.mp raised.symm
    exact ⟨_, present, before, nothing⟩
  refine ⟨step_shape step watch.shape, ?_, ?_, ?_⟩
  · intro attempt leg length found silent
    rw [same.length] at length
    obtain ⟨older, present, before, nothing⟩ := silentBefore attempt leg found silent
    have known := watch.watched attempt older length present before
    have keeps : 1 ≤ attempt → outline.view.CanAttempt → next.view.CanAttempt :=
      fun later can => (canAttempt_of_two step watch.shape (by omega)).mpr can
    cases step_timers step watch.shape with
    | kept action quiet timers reference =>
        rw [timers, reference]
        exact known.imp_right (fun cancelled => ⟨cancelled.1, cancelled.2.1,
          keeps cancelled.2.1 cancelled.2.2⟩)
    | fired timer timers reference =>
        rw [timers, reference]
        refine known.imp ?_ (fun cancelled => ⟨cancelled.1, cancelled.2.1,
          keeps cancelled.2.1 cancelled.2.2⟩)
        rintro ⟨referred, timeout, is, unspent⟩
        refine ⟨referred, ?_⟩
        rw [List.getElem?_modify, is]
        split
        · exact ⟨timeout.fire, rfl, nofun⟩
        · exact ⟨timeout, rfl, unspent⟩
    | cancelled action quiet reason timers reference =>
        cases reason with
        | heard ua event current =>
            rw [watch.shape.current, Call.newestLeg, length] at current
            cases current
            simp [raisedBy, Label.raisedBy] at nothing
        | rejected ua event unrouted =>
            rw [unrouted] at length
            cases length
        | disposed => exact absurd rfl running
        | cleared request suspended innermost =>
            have both := watch.clears request (by rw [innermost]; exact List.mem_cons_self)
            exact Or.inr ⟨reference, by omega, keeps (by omega) both.2⟩
    | started ua event ending seconds starts finished originated timers reference =>
        exact absurd starts quiet
  · intro can two referred
    rw [same.length] at two
    have before := (canAttempt_of_two step watch.shape two).mp can
    have routed : outline.view.call.legs ≠ [] := by
      intro none
      rw [none] at two
      cases two
    have referredBefore : outline.view.call.noAnswerTimer ≠ none := by
      cases step_timers step watch.shape with
      | kept action quiet timers reference => rwa [reference] at referred
      | fired timer timers reference => rwa [reference] at referred
      | cancelled action quiet reason timers reference => exact absurd reference referred
      | started ua event ending seconds starts finished originated timers reference =>
          exact absurd starts quiet
    obtain ⟨request, member⟩ := watch.cleared before two referredBefore
    exact ⟨request, clears.kept routed before referred request member⟩
  · intro request member
    have both := watch.clears request (clears.older request member)
    exact ⟨by rw [same.length]; exact both.1,
      (canAttempt_of_two step watch.shape both.1).mpr both.2⟩

/-- A new attempt refers to its own timer; only after a failover is there a handler that
will cancel it, and only if the attempt could be announced. -/
theorem Watch.started {app : App} {outline next : CallOutline} {action : CallAction}
    (watch : Watch outline) (step : CallStep app outline action next)
    (starts : Originates app outline.view.call action) : Watch next := by
  cases step_timers step watch.shape with
  | kept action quiet timers reference => exact absurd starts quiet
  | cancelled action quiet reason timers reference => exact absurd starts quiet
  | fired timer timers reference => exact starts.elim
  | started ua event ending seconds starts finished originated timers reference =>
      have length := originated.length
      have timersLength := watch.shape.timers
      refine ⟨step_shape step watch.shape, ?_, ?_, ?_⟩
      · intro attempt leg legs _ _
        have newest : attempt = outline.view.call.timers.length := by omega
        rw [reference, timers, newest]
        refine Or.inl ⟨rfl, _, List.getElem?_concat_length, ?_⟩
        exact nofun
      · intro can two _
        cases originated with
        | first decision hop rest unrouted asked action hops attempt =>
            rw [unrouted] at length
            rw [length] at two
            exact absurd two (by decide)
        | failover hop rest current routed failed remaining attempt =>
            have before := (step_sameDecision step watch.shape routed).canAttempt.mp can
            rcases attempt.ending with ⟨_, refused⟩ | ⟨_, pending, _, ended⟩
            · exact absurd ((canAttempt_dropHop ua event rest outline.view).mpr before) refused
            · rw [finished, ended]
              exact ⟨_, List.mem_cons_self⟩
      · intro request member
        have older : (request, true) ∈ outline.suspended →
            2 ≤ next.view.call.legs.length ∧ next.view.CanAttempt := by
          intro before
          have both := watch.clears request before
          exact ⟨by omega, (canAttempt_of_two step watch.shape both.1).mpr both.2⟩
        rw [finished] at member
        cases originated with
        | first decision hop rest unrouted asked action hops attempt =>
            rcases attempt.ending with ⟨ended, _⟩ | ⟨_, pending, _, ended⟩
            · rw [ended] at member
              cases member
            · rw [ended] at member
              rcases List.mem_cons.mp member with newest | before
              · cases newest
              · exact older before
        | failover hop rest current routed failed remaining attempt =>
            rcases attempt.ending with ⟨ended, _⟩ | ⟨can, pending, _, ended⟩
            · rw [ended] at member
              cases member
            · have legs := List.length_pos_iff.mpr routed
              have before := (canAttempt_dropHop ua event rest outline.view).mp can
              exact ⟨by omega, (step_sameDecision step watch.shape routed).canAttempt.mpr before⟩

theorem Watch.step {app : App} {outline next : CallOutline} {action : CallAction}
    (watch : Watch outline) (step : CallStep app outline action next)
    (running : action ≠ .enter .dispose) : Watch next := by
  by_cases starts : Originates app outline.view.call action
  · exact watch.started step starts
  · exact watch.quiet step running starts

/-- Between the handlers, the attempt that is waiting for its first answer is watched
exactly if it is the first of the call, or none of the call's attempts can be announced. -/
theorem supervised_iff (app : App) (process : Process) (globalConfig : GlobalConfig)
    (nextHop : Option (String × Nat)) (config : CallConfig)
    (reached : CallReaches app (fun _ action => action ≠ .enter .dispose)
      (process.newCall globalConfig nextHop) config)
    (idle : config.frames = []) (waiting : config.state.Waiting) :
    config.state.Supervised ↔ config.state.legs.length = 1 ∨
      ¬Attemptable config.state.isEnabledFor config.state.policy config.state.pendingEvent := by
  obtain ⟨outline, follows, watch⟩ := Outlook.keeps_reached (callSystem_describes app) Watch
    (Watch.initial process globalConfig nextHop)
    (fun _ _ _ _ _ watch running step => watch.step step running) reached
  have nothing : outline.suspended = [] := by
    have frames := follows.frames
    rw [idle] at frames
    exact List.forall₂_nil_left_iff.mp frames
  have view : outline.view = config.state.control := follows.view.symm
  obtain ⟨shape, watched, cleared, clears⟩ := watch
  rw [view] at shape watched cleared
  have newest : config.state.uaO = config.state.newestLeg := shape.current
  obtain ⟨leg, pending, current, _, _, silent⟩ := waiting.leg
  obtain ⟨attempt, length⟩ : ∃ attempt, config.state.legs.length = attempt + 1 := by
    cases count : config.state.legs.length with
    | zero =>
        rw [newest, Call.newestLeg, count] at current
        cases current
    | succ attempt => exact ⟨attempt, rfl⟩
  have found : config.state.ua? (.leg attempt) = some leg := by
    rw [newest, Call.newestLeg, length] at current
    exact current
  constructor
  · rintro ⟨timer, _, _, referred⟩
    by_contra neither
    rw [not_or, not_not] at neither
    have two : 2 ≤ config.state.legs.length := by omega
    obtain ⟨request, member⟩ := cleared neither.2 two (by
      rw [World.control_call, referred]
      exact Option.some_ne_none timer)
    rw [nothing] at member
    cases member
  · intro firstOrMute
    rcases watched attempt leg length found silent with ⟨referred, timer, is, unspent⟩ |
      ⟨_, later, can⟩
    · refine ⟨attempt, length.symm, Call.armed_iff.mpr ⟨timer, is, ?_⟩, referred⟩
      have unfired := waiting.timer timer (by
        have lengths : config.state.timers.length = attempt + 1 := shape.timers.trans length
        rw [List.getLast?_eq_getElem?, lengths]
        exact is)
      cases state : timer.state with
      | armed => rfl
      | fired => exact absurd state unfired
      | cancelled => exact absurd state unspent
    · rcases firstOrMute with first | mute
      · omega
      · exact absurd can mute

theorem supervised_iff_opening :
    ∃ config, (callSystem (App.deciding (sampleRelay [sampleHop "1", sampleHop "2"]))).run
        (Config.initial sampleWorld) sampleOpening = some config ∧
      (config.state.Supervised ↔ config.state.legs.length = 1 ∨
        ¬Attemptable config.state.isEnabledFor config.state.policy config.state.pendingEvent) := by
  refine ⟨_, rfl, supervised_iff (App.deciding (sampleRelay [sampleHop "1", sampleHop "2"]))
    sampleProcess { sipAddress := some "192.0.2.1" } none _
    (System.Reaches.of_run_along sampleOpening rfl (by decide)) rfl
    ⟨⟨_, _, rfl, rfl, rfl, rfl⟩, ?_, ?_⟩⟩
  · intro timer newest
    cases newest
    exact nofun
  · rfl

/-- The first hop fails at once, and the attempt at the second one is never watched. -/
theorem not_supervised :
    ∃ config, CallReaches (App.deciding (sampleRelay [sampleHop "1", sampleHop "2"]))
        (fun _ action => action ≠ .enter .dispose) sampleWorld config ∧
      config.frames = [] ∧ config.state.Waiting ∧ ¬config.state.Supervised := by
  refine ⟨_, System.Reaches.of_run_along
    (sampleOpening ++ [.enter (.raises (.leg 0) sampleFail), .comeBack]) rfl (by decide), rfl,
    ⟨⟨_, _, rfl, rfl, rfl, rfl⟩, ?_, rfl⟩, ?_⟩
  · intro timer newest
    cases newest
    exact nofun
  · rintro ⟨timer, _, _, referred⟩
    cases referred

end AsPlatform
