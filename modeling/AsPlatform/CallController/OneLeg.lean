/-
A rejected call has one leg.

After a rejection every handler stays on the path it has for a missing originating leg:
the trunk leg is told to disconnect by whatever it still raises, the timer callback and
the clean-up find nothing, and an event of any other leg is not for this call.
-/

import AsPlatform.CallController.Accounting
import AsPlatform.CallController.Timers

namespace AsPlatform

open Reentrant

def Call.failsGiven (call : Call) : List CCEvent :=
  (call.trunk.map fun ua => ua.received.filter CCEvent.isFail).getD []

/-- The first event of the trunk leg is a `CCEventTry`, and no later one is. -/
def TriesFirst (call : Call) : CallAction → Prop
  | .enter (.raises ua event) => ua = .trunk → (event.isTry = true ↔ call.tried = false)
  | _ => True

instance (call : Call) : ∀ action, Decidable (TriesFirst call action)
  | .enter (.raises ua event) =>
      inferInstanceAs (Decidable (ua = .trunk → (event.isTry = true ↔ call.tried = false)))
  | .enter (.invite _) | .enter (.connected _) | .enter (.fires _) | .enter .noAnswer
  | .enter .dispose | .comeBack => .isTrue trivial

/-- The call has the trunk leg only.  Once that has raised its `CCEventTry` it has been
given the answer, once, and the decision's disposition is the one that is counted. -/
structure OneLeg (process : Process) (decision : PolicyDecision) (error : AsError)
    (config : CallConfig) : Prop where
  uaO : config.state.uaO = none
  legs : config.state.legs = []
  timers : config.state.timers = []
  raisesNot : config.state.trunk.isSome = true → config.escaped = []
  answered : config.state.tried = true →
    config.state.failsGiven =
      [.fail (some { code := error.sipStatus, reason := error.sipPhrase })]
  counted : config.state.tried = true →
    config.state.metrics.callsByDisposition =
      process.metrics.callsByDisposition.increment decision.disposition.value

structure Rejection (process : Process) (decision : PolicyDecision) (error : AsError)
    (outline : CallOutline) : Prop where
  shape : outline.view.call.Shape
  legs : outline.view.call.legs = []
  levels : outline.view.isEnabledFor = process.isEnabledFor
  fresh : outline.view.call.trunkRequest = none → outline.escaped = 0
  escaped : outline.view.call.trunk.isSome = true → outline.escaped = 0
  untried : outline.view.call.tried = false →
    outline.view.dispositions = process.metrics.callsByDisposition ∧
      outline.view.call.failsGiven = []
  tried : outline.view.call.tried = true →
    outline.view.dispositions =
        process.metrics.callsByDisposition.increment decision.disposition.value ∧
      outline.view.call.failsGiven = [error.failEvent]

namespace Rejection

variable {app : App} {process : Process} {decision : PolicyDecision} {error : AsError}
  {outline : CallOutline}

theorem uaO (kept : Rejection process decision error outline) :
    outline.view.call.uaO = none :=
  kept.shape.legs_of_uaO.mp kept.legs

theorem same (kept : Rejection process decision error outline) {next : CallOutline}
    (shape : next.view.call.Shape) (legs : next.view.call.legs = [])
    (levels : next.view.isEnabledFor = outline.view.isEnabledFor)
    (request : next.view.call.trunkRequest = outline.view.call.trunkRequest)
    (trunk : next.view.call.trunk.map (fun ua => (ua.raised, ua.received)) =
      outline.view.call.trunk.map (fun ua => (ua.raised, ua.received)))
    (dispositions : next.view.dispositions = outline.view.dispositions)
    (escaped : next.escaped = outline.escaped) : Rejection process decision error next := by
  have tried : next.view.call.tried = outline.view.call.tried := by
    have raised := congrArg (fun history => (history.map fun pair =>
      pair.1.any CCEvent.isTry).getD false) trunk
    simpa [Call.tried, Option.map_map, Function.comp_def] using raised
  have fails : next.view.call.failsGiven = outline.view.call.failsGiven := by
    have received := congrArg (fun history => (history.map fun pair =>
      pair.2.filter CCEvent.isFail).getD []) trunk
    simpa [Call.failsGiven, Option.map_map, Function.comp_def] using received
  have present : next.view.call.trunk.isSome = outline.view.call.trunk.isSome := by
    have some := congrArg Option.isSome trunk
    simpa using some
  constructor
  · exact shape
  · exact legs
  · exact levels.trans kept.levels
  · rw [request, escaped]
    exact kept.fresh
  · rw [present, escaped]
    exact kept.escaped
  · rw [tried, dispositions, fails]
    exact kept.untried
  · rw [tried, dispositions, fails]
    exact kept.tried

/-- An event of the trunk leg: it is told to disconnect, or it is given the answer. -/
theorem ofTrunk (kept : Rejection process decision error outline)
    (decides : ∀ event, event.isTry = true → app.decide event = .ok decision)
    (rejects : decision.action = .reject) (carries : decision.error = some error)
    (answerable : Answerable process.isEnabledFor decision error) {event : CCEvent}
    (allowed : event.isTry = true ↔ outline.view.call.tried = false) {after : Control}
    {ending : CallEnding}
    (step : CallStep app outline (.enter (.raises .trunk event)) (outline.finish after ending))
    (answering : outline.view.call.trunk.isSome = true)
    (lives : Lives (.raises .trunk event) ending outline.view.call after.call)
    (effect : TrunkEffect app event .trunk
      (outline.view.mapCall (Call.raise .trunk event)) after ending) :
    Rejection process decision error (outline.finish after ending) := by
  obtain ⟨ua, present⟩ := Option.isSome_iff_exists.mp answering
  have now : after.call.trunk = some (ua.live .trunk (.raises .trunk event) ending) :=
    lives .trunk ua present
  have tried : after.call.tried = (outline.view.call.tried || event.isTry) := by
    simp [Call.tried, now, present, Label.raisedBy]
  have fails : after.call.failsGiven =
      outline.view.call.failsGiven ++ (givenTo .trunk ending).filter CCEvent.isFail := by
    simp [Call.failsGiven, now, present]
  have unrouted : (outline.view.mapCall (Call.raise .trunk event)).call.uaO = none := by
    rw [Control.call_mapCall, Call.toBaseCallController_raise]
    exact kept.uaO
  have shape := step_shape step kept.shape
  rw [view_finish] at shape
  cases effect with
  | tornDown _ other =>
      have already : outline.view.call.tried = true := by
        rw [← Bool.not_eq_false]
        intro fresh
        rw [allowed.mpr fresh] at other
        cases other
      refine ⟨shape, kept.legs, kept.levels, kept.fresh, fun _ => kept.escaped answering, ?_, ?_⟩
      · intro untried
        rw [Outline.finish, tried, already] at untried
        cases untried
      · intro _
        rw [Outline.finish, fails]
        simpa [givenTo, CCEvent.isFail] using kept.tried already
  | hookRaised other _ first raised =>
      rw [decides event first] at raised
      cases raised
  | rejected other after ending _ first asked action reject =>
      rw [decides event first] at asked
      cases asked
      cases reject with
      | unjustified missing =>
          rw [carries] at missing
          cases missing
      | unanswered other carried clash =>
          rw [carries] at carried
          cases carried
          refine absurd ?_ clash
          rw [Control.isEnabledFor_mapCall, Control.isEnabledFor_mapCall, kept.levels]
          exact answerable
      | answered other carried accepted =>
          rw [carries] at carried
          cases carried
          have before := kept.untried (allowed.mp first)
          refine ⟨shape, ?_, kept.levels, ?_, fun _ => kept.escaped answering, ?_, ?_⟩
          · exact List.length_eq_zero_iff.mp (by
              simp [Outline.finish, Call.give, Call.decided, Call.askApplication, Call.adopt,
                Call.raise, kept.legs])
          · intro fresh
            have admitted := kept.shape.admitted answering
            simp [Outline.finish, Call.decided, Call.askApplication, Call.adopt] at fresh
            rw [fresh] at admitted
            cases admitted
          · intro untried
            rw [Outline.finish, tried, first, Bool.or_true] at untried
            cases untried
          · intro _
            rw [Outline.finish, fails, before.2, ← before.1]
            exact ⟨rfl, rfl⟩
  | noHop other _ first asked action empty =>
      rw [decides event first] at asked
      cases asked
      rw [rejects] at action
      cases action
  | attempted other hop rest after ending _ first asked action hops attempt =>
      rw [decides event first] at asked
      cases asked
      rw [rejects] at action
      cases action
  | relayed leg routed =>
      rw [unrouted] at routed
      cases routed

theorem step (kept : Rejection process decision error outline)
    (decides : ∀ event, event.isTry = true → app.decide event = .ok decision)
    (rejects : decision.action = .reject) (carries : decision.error = some error)
    (answerable : Answerable process.isEnabledFor decision error) {action : CallAction}
    (allowed : TriesFirst outline.view.call action) {next : CallOutline}
    (step : CallStep app outline action next) : Rejection process decision error next := by
  have shape := step_shape step kept.shape
  have taken := step
  cases step with
  | comeBack request clears suspended innermost =>
      refine kept.same shape ?_ ?_ ?_ ?_ ?_ rfl <;> cases clears <;>
        simp [afterCall, kept.legs]
  | enter label control ending happens =>
      have lives := happens.lives kept.shape
      rw [view_finish] at shape
      cases happens with
      | invite request after ending first effect =>
          have unanswered : outline.view.call.trunk = none := by
            cases present : outline.view.call.trunk with
            | none => rfl
            | some ua =>
                have admitted := kept.shape.admitted (by rw [present]; rfl)
                rw [first] at admitted
                cases admitted
          have untried := kept.untried (by simp [Call.tried, unanswered])
          have silent : ¬outline.view.call.trunk.isSome = true := by
            rw [unanswered]
            exact Bool.false_ne_true
          cases effect with
          | hookRaised =>
              exact ⟨shape, kept.legs, kept.levels,
                fun absent => absurd absent (Option.some_ne_none request),
                fun present => absurd present silent, fun _ => untried, kept.tried⟩
          | lineRaised =>
              exact ⟨shape, kept.legs, kept.levels,
                fun absent => absurd absent (Option.some_ne_none request),
                fun present => absurd present silent, fun _ => untried, kept.tried⟩
          | accepted ua new =>
              refine ⟨shape, kept.legs, kept.levels,
                fun absent => absurd absent (Option.some_ne_none request),
                fun _ => kept.fresh first, ?_, ?_⟩
              · intro _
                exact ⟨untried.1, by simp [Outline.finish, Call.failsGiven, Call.createTrunk,
                  new.received]⟩
              · intro tried
                simp [Outline.finish, Call.tried, Call.createTrunk, new.raised] at tried
      | raises ua event after ending answered effect =>
          cases ua with
          | trunk =>
              have answering := answered rfl
              have current : outline.view.call.uaA = some .trunk := by
                rw [kept.shape.answering, if_pos answering]
              cases effect with
              | stale notTrunk notCurrent =>
                  rw [Control.call_mapCall, Call.toBaseCallController_raise] at notTrunk
                  exact absurd current notTrunk
              | trunk after ending _ effect =>
                  exact kept.ofTrunk decides rejects carries answerable (allowed rfl) taken
                    answering lives effect
              | nextHop after ending notTrunk _ effect =>
                  rw [Control.call_mapCall, Call.toBaseCallController_raise] at notTrunk
                  exact absurd current notTrunk
          | leg index =>
              cases effect with
              | stale notTrunk notCurrent =>
                  refine kept.same shape ?_ rfl rfl rfl rfl rfl
                  simp [Outline.finish, Call.raise, Call.mapUa, kept.legs]
              | trunk after ending answering effect =>
                  rw [Control.call_mapCall, Call.toBaseCallController_raise] at answering
                  cases (kept.shape.trunk_of_uaA answering).1
              | nextHop after ending _ current effect =>
                  rw [Control.call_mapCall, Call.toBaseCallController_raise, kept.uaO] at current
                  cases current
      | connected value =>
          refine kept.same shape kept.legs rfl rfl ?_ rfl rfl
          simp only [Outline.finish, Control.call_mapCall, Call.setTrunkConnected, Call.mapUa,
            Option.map_map]
          rfl
      | fires timer after ending armed effect =>
          obtain ⟨timeout, found, _⟩ := Call.armed_iff.mp armed
          have none : outline.view.call.timers = [] := by
            rw [← List.length_eq_zero_iff, kept.shape.timers, kept.legs]
            rfl
          rw [none] at found
          cases found
      | noAnswer after ending effect =>
          cases effect with
          | ignored settled => exact kept.same shape kept.legs rfl rfl rfl rfl rfl
          | tornDown leg current away =>
              rw [kept.uaO] at current
              cases current
      | dispose =>
          refine kept.same shape ?_ rfl ?_ ?_ rfl rfl <;> simp [Outline.finish, kept.legs]

theorem oneLeg {config : CallConfig} (kept : Rejection process decision error outline)
    (follows : callOutlook.Follows config outline) : OneLeg process decision error config := by
  obtain ⟨shape, legs, levels, fresh, escaped, untried, tried⟩ := kept
  have view : outline.view = config.state.control := follows.view.symm
  rw [view] at shape legs escaped tried
  have timers : config.state.timers = [] := by
    rw [← List.length_eq_zero_iff]
    exact shape.timers.trans (List.length_eq_zero_iff.mpr legs)
  refine ⟨shape.legs_of_uaO.mp legs, legs, timers, ?_, fun after => (tried after).2,
    fun after => (tried after).1⟩
  intro present
  rw [← List.length_eq_zero_iff, follows.escaped]
  exact escaped present

end Rejection

/-- The one-leg invariant: it holds in every state of every run of a call that the
application rejects with an error its lines can be logged for. -/
theorem oneLeg_of_reject (app : App) (decision : PolicyDecision) (error : AsError)
    (process : Process) (globalConfig : GlobalConfig) (nextHop : Option (String × Nat))
    (actions : List CallAction)
    (decides : ∀ event, event.isTry = true → app.decide event = .ok decision)
    (rejects : decision.action = .reject) (carries : decision.error = some error)
    (answerable : Answerable process.isEnabledFor decision error)
    (tries : CallAlong app (fun config action _ => TriesFirst config.state.toCall action)
      (process.newCall globalConfig nextHop) actions) :
    CallAlong app (fun _ _ next => OneLeg process decision error next)
      (process.newCall globalConfig nextHop) actions := by
  apply Outlook.along_of_along (callSystem_describes app)
    (Rejection process decision error) ?_ ?_ actions tries
  · intro config action next outline nextOutline follows followed kept allowed _taken step
    have call : config.state.toCall = outline.view.call := congrArg Control.call follows.view
    rw [call] at allowed
    have later := kept.step decides rejects carries answerable allowed step
    exact ⟨later, later.oneLeg followed⟩
  · exact ⟨_, Outlook.follows_initial _, Call.Shape.initial globalConfig nextHop, rfl, rfl,
      fun _ => rfl, nofun, fun _ => ⟨rfl, rfl⟩, nofun⟩

/-- The caller is rejected, hangs up, and the process is stopped. -/
theorem oneLeg_of_reject_hangsUp :
    CallAlong (App.deciding sampleReject)
      (fun _ _ next => OneLeg sampleProcess sampleReject sampleError next) sampleWorld
      (sampleOpening ++
        [.enter (.raises .trunk .disconnect), .comeBack, .enter .noAnswer, .enter .dispose,
          .enter (.raises (.leg 3) sampleFail)]) := by
  apply oneLeg_of_reject
  · exact fun _ _ => rfl
  · rfl
  · rfl
  · decide
  · decide

end AsPlatform
