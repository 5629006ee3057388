/-
The vocabulary of a decision and the control flow.

Two calls whose decisions differ only in their vocabulary do the same as long as every
line that carries vocabulary is accepted.  A mapping that clashes with the fields the
controller names itself, or with another mapping, makes the line raise, after counters
and timers have been touched and before the answer or the INVITE is given.
-/

import AsPlatform.CallController.FailoverWalk
import AsPlatform.CallController.Twins

namespace AsPlatform

open Reentrant

structure Performs (decision : PolicyDecision) (config : CallConfig) (action : CallAction)
    (next : CallConfig) : Prop where
  invited : ∀ leg, leg ∈ next.state.legs.drop config.state.legs.length →
    leg.received.map some = [decision.outboundEvent]
  answered : AsksNow config.state.toCall action → decision.action = .reject →
    ∀ error, decision.error = some error → GivenToTrunk error.failEvent config next

structure SameActions (first second : PolicyDecision) (left right : CallConfig)
    (action : CallAction) (leftNext rightNext : CallConfig) : Prop where
  call : leftNext.state.apart = rightNext.state.apart
  metrics : leftNext.state.metrics = rightNext.state.metrics
  requests : leftNext.frames.map Frame.request = rightNext.frames.map Frame.request
  escaped : leftNext.escaped = rightNext.escaped
  left : Performs first left action leftNext
  right : Performs second right action rightNext

/-! ### One call -/

/-- Where the application rejects, the trunk leg is given the answer exactly if its
lines are accepted. -/
theorem RejectEffect.answered_iff {decision : PolicyDecision} {ref : UaRef}
    {before after : Control} {ending : CallEnding}
    (effect : RejectEffect decision ref before after ending) {error : AsError}
    (carried : decision.error = some error) :
    givenTo ref ending = [error.failEvent] ↔ Answerable before.isEnabledFor decision error := by
  cases effect with
  | unjustified missing =>
      rw [carried] at missing
      cases missing
  | answered other same answerable =>
      rw [carried, Option.some.injEq] at same
      subst same
      exact iff_of_true (if_pos rfl) answerable
  | unanswered other same clash =>
      rw [carried, Option.some.injEq] at same
      subst same
      exact iff_of_false nofun clash

theorem Effect.answered_iff {app : App} {decision : PolicyDecision} {before after : Control}
    {ua : UaRef} {event : CCEvent} {ending : CallEnding}
    (effect : Effect app before (.raises ua event) after ending)
    (decides : app.decide event = .ok decision) (asks : before.call.Asks ua event)
    (rejects : decision.action = .reject) {error : AsError}
    (carried : decision.error = some error) :
    givenTo ua ending = [error.failEvent] ↔ Answerable before.isEnabledFor decision error := by
  obtain ⟨answering, unrouted, first⟩ := asks
  have raised := Call.toBaseCallController_raise ua event before.call
  cases effect with
  | raises ua event after ending answered effect =>
      cases effect with
      | stale notTrunk notCurrent =>
          rw [Control.call_mapCall, raised] at notTrunk
          exact absurd answering notTrunk
      | nextHop after ending notTrunk current effect =>
          rw [Control.call_mapCall, raised] at notTrunk
          exact absurd answering notTrunk
      | trunk after ending _ effect =>
          cases effect with
          | tornDown _ other =>
              rw [first] at other
              cases other
          | hookRaised other _ _ refused =>
              rw [decides] at refused
              cases refused
          | rejected other after ending _ _ asked action reject =>
              rw [decides] at asked
              cases asked
              exact reject.answered_iff carried
          | noHop other _ _ asked action empty =>
              rw [decides] at asked
              cases asked
              rw [rejects] at action
              cases action
          | attempted other hop rest after ending _ _ asked action hops attempt =>
              rw [decides] at asked
              cases asked
              rw [rejects] at action
              cases action
          | relayed leg routed =>
              rw [Control.call_mapCall, raised, unrouted] at routed
              cases routed

/-- A step does what the decision asks for exactly if the lines it logs are accepted. -/
theorem performs_iff {app : App} {levels : LogLevel → Bool} {decision : PolicyDecision}
    {config next : CallConfig} {action : CallAction} {outline nextOutline : CallOutline}
    (follows : callOutlook.Follows config outline)
    (followed : callOutlook.Follows next nextOutline) (chosen : Chosen levels decision outline)
    (step : CallStep (app.taking decision) outline action nextOutline) :
    Performs decision config action next ↔
      Accepts levels app decision config.state.toCall action := by
  have before : config.state.toCall = outline.view.call := congrArg Control.call follows.view
  have after : next.state.toCall = nextOutline.view.call := congrArg Control.call followed.view
  have invited : (∀ leg, leg ∈ next.state.legs.drop config.state.legs.length →
      leg.received.map some = [decision.outboundEvent]) ↔
        (Originates (app.taking decision) config.state.toCall action →
          CanAnnounce levels decision) := by
    rw [before, after]
    cases step_attempts step chosen.shape with
    | same action quiet kept =>
        rw [← kept.length, List.drop_length]
        exact iff_of_true (fun leg member => absurd member List.not_mem_nil)
          (fun starts => absurd starts quiet)
    | started ua event ending starts finished originated =>
        obtain ⟨leg, added, given⟩ := originated.newLeg chosen.chosen (fun _ => rfl)
        rw [added, ← chosen.levels]
        constructor
        · exact fun all _ => given.mp (all leg (List.mem_singleton_self leg))
        · intro can other member
          rw [List.mem_singleton.mp member]
          exact given.mpr (can starts)
  have answered : ∀ error, decision.error = some error → decision.action = .reject →
      AsksNow config.state.toCall action →
        (GivenToTrunk error.failEvent config next ↔ Answerable levels decision error) := by
    intro error carried rejects asksNow
    rw [before] at asksNow
    cases step with
    | comeBack request clears suspended innermost => exact absurd asksNow id
    | enter label control ending happens =>
        cases label with
        | raises ua event =>
            obtain ⟨rfl, present⟩ := chosen.shape.trunk_of_uaA asksNow.1
            obtain ⟨trunk, found⟩ := Option.isSome_iff_exists.mp present
            have lives := happens.lives chosen.shape .trunk trunk found
            have later : next.state.trunk = some
                (trunk.live .trunk (.raises .trunk event) ending) := by
              rw [← lives, after, view_finish]
              rfl
            have earlier : config.state.trunk = some trunk := by
              rw [before]
              exact found
            rw [GivenToTrunk, later, earlier, ← chosen.levels,
              ← happens.answered_iff rfl asksNow rejects carried]
            simp
        | _ => exact absurd asksNow id
  constructor
  · intro performs
    exact ⟨invited.mp performs.invited, fun asksNow rejects error carried =>
      (answered error carried rejects asksNow).mp
        (performs.answered asksNow rejects error carried)⟩
  · intro accepts
    exact ⟨invited.mpr accepts.attempts, fun asksNow rejects error carried =>
      (answered error carried rejects asksNow).mpr
        (accepts.answers asksNow rejects error carried)⟩

/-! ### Two calls -/

section TwoCalls

variable {levels : LogLevel → Bool} {first second : PolicyDecision} {left right : World}

/-- Twins can be entered by the same labels. -/
theorem enabled_together (twins : Twins levels first second left right) (label : Label)
    (idle : Bool) : label.enabled left.toCall idle = label.enabled right.toCall idle := by
  have request := twins.same (fun call => call.trunkRequest) (fun _ => rfl)
  have trunk := twins.same (fun call => call.trunk) (fun _ => rfl)
  cases label with
  | invite inbound => rw [Label.enabled, Label.enabled, request]
  | raises ua event => rw [Label.enabled, Label.enabled, trunk]
  | connected value => rw [Label.enabled, Label.enabled, trunk]
  | fires timer =>
      rw [Label.enabled, Label.enabled, twins.same (fun call => call.armed timer) (fun _ => rfl)]
  | noAnswer => rfl
  | dispose => rfl

theorem enter_together (twins : Twins levels first second left right) (app : App)
    (label : Label) (idle : Bool) :
    ((callSystem (app.taking first)).enter label left idle).isSome =
      ((callSystem (app.taking second)).enter label right idle).isSome := by
  rw [callSystem_enter, callSystem_enter, enabled_together twins label idle]
  split <;> rfl

theorem handler_alike (twins : Twins levels first second left right)
    (agree : Agree first second) {app : App} {label : Label}
    (leftAccepts : Accepts levels app first left.toCall (.enter label))
    (rightAccepts : Accepts levels app second left.toCall (.enter label))
    (chosen : left.failoverHops ≠ [] →
      left.policy = some first ∧ left.pendingEvent = first.outboundEvent) :
    Alike levels first second
      (label.handler (app.taking first) (left.mapCall label.opening))
      (label.handler (app.taking second) (right.mapCall label.opening)) := by
  cases label with
  | invite inbound => exact receiveInvite_alike app inbound left right twins
  | raises ua event =>
      exact recvEvent_alike app event ua twins agree leftAccepts rightAccepts chosen
  | connected value => exact modifyCall_alike (Call.Blind.mapUa .trunk _) left right twins
  | fires timer =>
      exact onNextHopNoAnswer_alike app _ _ (twins.mapCall (Call.Blind.fireTimer timer))
  | noAnswer => exact onNextHopNoAnswer_alike app left right twins
  | dispose => exact cancelNoAnswerTimer_alike left right twins

/-- Entered by the same label, twins do alike. -/
theorem enter_alike (twins : Twins levels first second left right) (agree : Agree first second)
    {app : App} {label : Label} {idle : Bool} {leftProgram : Prog World UaCall PyError Unit}
    (leftAccepts : Accepts levels app first left.toCall (.enter label))
    (rightAccepts : Accepts levels app second left.toCall (.enter label))
    (chosen : left.failoverHops ≠ [] →
      left.policy = some first ∧ left.pendingEvent = first.outboundEvent)
    (leftEntered : (callSystem (app.taking first)).enter label left idle = some leftProgram) :
    ∃ rightProgram, (callSystem (app.taking second)).enter label right idle = some rightProgram ∧
      Alike levels first second leftProgram rightProgram := by
  rw [callSystem_enter, Option.ite_none_right_eq_some] at leftEntered
  obtain ⟨enabled, program⟩ := leftEntered
  cases program
  rw [enabled_together twins label idle] at enabled
  refine ⟨_, ?_, handler_alike twins agree leftAccepts rightAccepts chosen⟩
  rw [callSystem_enter, if_pos enabled]

variable {leftConfig rightConfig leftNext rightNext : CallConfig}

theorem step_together
    (alike : Config.Alike (Twins levels first second) leftConfig rightConfig) (app : App)
    (action : CallAction) :
    ((callSystem (app.taking first)).step leftConfig action).isSome =
      ((callSystem (app.taking second)).step rightConfig action).isSome := by
  cases action with
  | enter label =>
      simp only [System.step, Option.isSome_map, alike.idle]
      exact enter_together alike.state app label rightConfig.idle
  | comeBack =>
      have length := alike.frames.length_eq
      unfold System.step
      cases leftFrames : leftConfig.frames <;> cases rightFrames : rightConfig.frames <;>
        simp [leftFrames, rightFrames] at length ⊢

theorem step_alike
    (alike : Config.Alike (Twins levels first second) leftConfig rightConfig)
    (agree : Agree first second) {app : App} {action : CallAction}
    (leftAccepts : Accepts levels app first leftConfig.state.toCall action)
    (rightAccepts : Accepts levels app second leftConfig.state.toCall action)
    (chosen : leftConfig.state.failoverHops ≠ [] → leftConfig.state.policy = some first ∧
      leftConfig.state.pendingEvent = first.outboundEvent)
    (leftTaken : (callSystem (app.taking first)).step leftConfig action = some leftNext)
    (rightTaken : (callSystem (app.taking second)).step rightConfig action = some rightNext) :
    Config.Alike (Twins levels first second) leftNext rightNext := by
  obtain ⟨next, taken, nextAlike⟩ := System.alike_step alike
    (fun label entering _ entered => enter_alike alike.state agree (entering ▸ leftAccepts)
      (entering ▸ rightAccepts) chosen entered) leftTaken
  rw [rightTaken] at taken
  cases taken
  exact nextAlike

end TwoCalls

structure SideBySide (process : Process) (first second : PolicyDecision)
    (left right : CallConfig) : Prop where
  alike : Config.Alike (Twins process.isEnabledFor first second) left right
  left : callOutlook.Keeps (Chosen process.isEnabledFor first) left
  right : callOutlook.Keeps (Chosen process.isEnabledFor second) right

def BothAccepted (process : Process) (app : App) (first second : PolicyDecision)
    (config : CallConfig) (action : CallAction) : Prop :=
  Accepts process.isEnabledFor app first config.state.toCall action ∧
    Accepts process.isEnabledFor app second config.state.toCall action

/-- A step of one call performs what the decision asks for exactly if its lines are
accepted, and what is known of the call is kept. -/
theorem keeps_performs {app : App} {levels : LogLevel → Bool} {decision : PolicyDecision}
    {config next : CallConfig} {action : CallAction}
    (keeps : callOutlook.Keeps (Chosen levels decision) config)
    (taken : (callSystem (app.taking decision)).step config action = some next) :
    callOutlook.Keeps (Chosen levels decision) next ∧
      (Performs decision config action next ↔
        Accepts levels app decision config.state.toCall action) := by
  obtain ⟨outline, follows, chosen⟩ := keeps
  obtain ⟨nextOutline, step, followed⟩ :=
    Outlook.follows_step (callSystem_describes (app.taking decision)) follows taken
  exact ⟨⟨nextOutline, followed, chosen.step (fun _ _ => rfl) step⟩,
    performs_iff follows followed chosen step⟩

theorem chosen_of_keeps {levels : LogLevel → Bool} {decision : PolicyDecision}
    {config : CallConfig} (keeps : callOutlook.Keeps (Chosen levels decision) config)
    (remain : config.state.failoverHops ≠ []) : config.state.policy = some decision ∧
      config.state.pendingEvent = decision.outboundEvent := by
  obtain ⟨outline, follows, chosen⟩ := keeps
  have call : config.state.toCall = outline.view.call := congrArg Control.call follows.view
  rw [call] at remain ⊢
  exact chosen.chosen (fun none => remain (chosen.shape.unrouted none))

/-- What a call does depends on the vocabulary of its decision exactly if a line that
carries it is refused. -/
theorem inert_iff (app : App) (first second : PolicyDecision) (agree : Agree first second)
    (process : Process) (globalConfig : GlobalConfig) (nextHop : Option (String × Nat))
    (actions : List CallAction) :
    (callSystem (app.taking first)).Lockstep (callSystem (app.taking second))
        (SameActions first second) (Config.initial (process.newCall globalConfig nextHop))
        (Config.initial (process.newCall globalConfig nextHop)) actions ↔
      CallAlong (app.taking first)
        (fun config action _ => BothAccepted process app first second config action)
        (process.newCall globalConfig nextHop) actions := by
  apply System.lockstep_iff_along (SideBySide process first second)
  · exact fun leftConfig rightConfig action inside =>
      step_together inside.alike app action
  · intro leftConfig rightConfig action leftNext rightNext inside leftTaken rightTaken accepted
    have leftKept := keeps_performs inside.left leftTaken
    have rightKept := keeps_performs inside.right rightTaken
    have alike := step_alike inside.alike agree accepted.1 accepted.2
      (chosen_of_keeps inside.left) leftTaken rightTaken
    have rightAccepts := accepted.2.of_twins inside.alike.state
    exact ⟨⟨alike, leftKept.1, rightKept.1⟩, alike.state.call, alike.state.metrics,
      alike.requests, alike.escaped, leftKept.2.mpr accepted.1, rightKept.2.mpr rightAccepts⟩
  · intro leftConfig rightConfig action leftNext rightNext inside leftTaken rightTaken same
    have leftKept := keeps_performs inside.left leftTaken
    have rightKept := keeps_performs inside.right rightTaken
    have rightAccepts := rightKept.2.mp same.right
    exact ⟨leftKept.2.mp same.left, rightAccepts.of_twins inside.alike.state.symm⟩
  · exact ⟨⟨⟨rfl, Or.inl ⟨rfl, rfl⟩, rfl, rfl, rfl, rfl⟩, .nil, rfl⟩,
      ⟨_, Outlook.follows_initial _, Chosen.initial process globalConfig nextHop first⟩,
      ⟨_, Outlook.follows_initial _, Chosen.initial process globalConfig nextHop second⟩⟩

def sampleVerbose : PolicyDecision :=
  { sampleRelay [sampleHop "1", sampleHop "2"] with
    attributes := OrderedDict.singleton "called_number" (.str "")
    relayLogMessage := "relayed"
    relayLogFields := OrderedDict.singleton "next_hop" (.str "") }

/-- Two vocabularies that are both accepted; the first hop fails. -/
theorem inert_iff_failover :
    (callSystem (App.deciding (sampleRelay [sampleHop "1", sampleHop "2"]))).Lockstep
      (callSystem (App.deciding sampleVerbose))
      (SameActions (sampleRelay [sampleHop "1", sampleHop "2"]) sampleVerbose)
      (Config.initial sampleWorld) (Config.initial sampleWorld)
      (sampleOpening ++ [.enter (.raises (.leg 0) sampleFail), .comeBack]) := by
  have plain : CanAnnounce sampleProcess.isEnabledFor
      (sampleRelay [sampleHop "1", sampleHop "2"]) := ⟨⟨"200", rfl⟩, by decide⟩
  have verbose : CanAnnounce sampleProcess.isEnabledFor sampleVerbose :=
    ⟨⟨"200", rfl⟩, by decide⟩
  apply (inert_iff (App.deciding (sampleRelay [sampleHop "1", sampleHop "2"]))
    (sampleRelay [sampleHop "1", sampleHop "2"]) sampleVerbose ⟨rfl, rfl, rfl, rfl, rfl⟩
    sampleProcess { sipAddress := some "192.0.2.1" } none _).mpr
  exact System.along_of_invariant (fun _ => True) trivial
    (fun _ _ _ _ _ => ⟨trivial, ⟨fun _ => plain, fun _ rejects => by cases rejects⟩,
      ⟨fun _ => verbose, fun _ rejects => by cases rejects⟩⟩) _

/-- A rejection whose own log fields repeat one of the error's. -/
def sampleRepeated : PolicyDecision :=
  { sampleReject with
    rejectLogFields := OrderedDict.singleton "error_code" (.str "AS-PEER-001") }

/-- One caller is answered; the other is not, since the line of the rejection raises. -/
theorem not_inert :
    Agree sampleReject sampleRepeated ∧
      ¬(callSystem (App.deciding sampleReject)).Lockstep
        (callSystem (App.deciding sampleRepeated)) (SameActions sampleReject sampleRepeated)
        (Config.initial sampleWorld) (Config.initial sampleWorld) (sampleOpening.take 3) := by
  refine ⟨⟨rfl, rfl, rfl, rfl, rfl⟩, ?_⟩
  intro lockstep
  have raised := lockstep.mono (fun _ _ _ _ _ same => congrArg List.length same.escaped)
  revert raised
  decide

end AsPlatform
