/-
The walk along the hops of a relay decision.

At every moment the hops tried so far, followed by those that are left, are the hops of
the decision, and what the controller serves is the last of those tried.  The only part
of the walk that can fail is the giving of the INVITE: the line of an attempt raises if
the application's log fields clash with the fields the controller names itself.
-/

import AsPlatform.CallController.Decisions

namespace AsPlatform

open Reentrant

structure Walked (decision : PolicyDecision) (tried : List NextHop) (call : Call) : Prop where
  hops : tried ++ call.failoverHops = decision.nextHops
  addresses : call.legs.map Ua.nhAddress = tried.map fun hop => some hop.target
  serving : call.servingHop = tried.getLast?
  nextHop : call.nextHop = tried.getLast?.map NextHop.target
  current : call.uaO = some (.leg (tried.length - 1))
  policy : call.policy = some decision
  pending : call.pendingEvent = decision.outboundEvent

structure FilledIn (fields : Fields) (hop : NextHop) (calledNumber : String)
    (filled : Fields) : Prop where
  keys : filled.keys = fields.keys
  values : ∀ key, key ∈ fields.keys → filled.get? key =
    if "next_hop" = key then some (.str hop.name)
    else if "called_number" = key then some (.str calledNumber)
    else fields.get? key

theorem withAttemptFields_filledIn (fields : Fields) (hop : NextHop) (calledNumber : String) :
    FilledIn fields hop calledNumber (withAttemptFields fields hop calledNumber) :=
  ⟨keys_withAttemptFields fields hop calledNumber,
    fun key asked => get?_withAttemptFields fields hop calledNumber key asked⟩

/-- The attempt is in the trace and in the log with the decision's own vocabulary. -/
def Announced (decision : PolicyDecision) (hop : NextHop) (config next : CallConfig) : Prop :=
  ∃ (calledNumber : String) (attributes fields : Fields) (lines : List LogRecord),
    CCEvent.calledNumber decision.outboundEvent = .ok calledNumber ∧
      FilledIn decision.attributes hop calledNumber attributes ∧
      FilledIn decision.relayLogFields hop calledNumber fields ∧
      next.state.tracer = config.state.tracer.record
        { callId := config.state.callId
          direction := LogDirection.outbound
          method := "INVITE"
          summary := decision.relayLogMessage
          peer := renderPeer hop.address hop.port
          attributes := (OrderedDict.singleton "leg" (.str legNextHop)).update attributes } ∧
      next.state.log = config.state.log ++ lines ++
        (logEntry config.state.isEnabledFor .info decision.relayLogMessage
          [("call_id", .str config.state.callId), ("direction", .str LogDirection.outbound),
            ("peer", .str (renderPeer hop.address hop.port)), ("method", .str "INVITE")]
          [fields]).toList

def GivenToTrunk (event : CCEvent) (config next : CallConfig) : Prop :=
  next.state.trunk.map Ua.received =
    config.state.trunk.map fun ua => ua.received ++ [event]

structure WalkStep (decision : PolicyDecision) (config : CallConfig) (action : CallAction)
    (next : CallConfig) : Prop where
  walked : next.state.legs ≠ [] → ∃ tried, tried ≠ [] ∧ Walked decision tried next.state.toCall
  asked : next.state.decideCalls = if next.state.legs = [] then 0 else 1
  oneByOne : next.state.legs.length ≤ config.state.legs.length + 1
  invited : ∀ leg, leg ∈ next.state.legs.drop config.state.legs.length →
    leg.received.map some = [decision.outboundEvent]
  announced : config.state.legs.length < next.state.legs.length →
    ∃ hop, next.state.servingHop = some hop ∧ Announced decision hop config next
  relayed : ∀ ua event, action = .enter (.raises ua event) → config.state.uaO = some ua →
    event.terminates = true → config.state.trunkConnected = false →
      GivenToTrunk event config next → next.state.failoverHops = []

/-! ### The state of the walk -/

theorem AttemptDone.walked {decision : PolicyDecision} {tried : List NextHop} {hop : NextHop}
    {rest : List NextHop} {before after : Control} {ending : CallEnding}
    (done : AttemptDone hop before after ending) (hops : tried ++ hop :: rest = decision.nextHops)
    (remaining : before.call.failoverHops = rest)
    (addresses : before.call.legs.map Ua.nhAddress = tried.map fun hop => some hop.target)
    (policy : before.call.policy = some decision)
    (pending : before.call.pendingEvent = decision.outboundEvent) :
    Walked decision (tried ++ [hop]) after.call := by
  have length : before.call.legs.length = tried.length := by
    have lengths := congrArg List.length addresses
    simpa only [List.length_map] using lengths
  obtain ⟨leg, legs, address, _⟩ := done.legs
  constructor
  · rw [done.controller, remaining, List.append_assoc]
    exact hops
  · rw [legs, List.map_append, List.map_append, addresses, List.map_singleton,
      List.map_singleton, address]
  · rw [done.controller, List.getLast?_concat]
  · rw [done.controller, List.getLast?_concat]
    rfl
  · rw [done.controller, length, List.length_append, List.length_singleton,
      Nat.add_sub_cancel]
  · rw [done.controller]
    exact policy
  · rw [done.controller]
    exact pending

theorem Call.SameAttempt.walked {decision : PolicyDecision} {tried : List NextHop}
    {before after : Call} (same : Call.SameAttempt before after)
    (walked : Walked decision tried before) (policy : after.policy = before.policy)
    (pending : after.pendingEvent = before.pendingEvent) : Walked decision tried after where
  hops := by
    rw [same.failoverHops]
    exact walked.hops
  addresses := same.addresses.trans walked.addresses
  serving := same.servingHop.trans walked.serving
  nextHop := same.nextHop.trans walked.nextHop
  current := same.uaO.trans walked.current
  policy := policy.trans walked.policy
  pending := pending.trans walked.pending

structure OnWalk (process : Process) (decision : PolicyDecision) (outline : CallOutline) : Prop
    extends Chosen process.isEnabledFor decision outline where
  walked : outline.view.call.legs ≠ [] →
    ∃ tried, tried ≠ [] ∧ Walked decision tried outline.view.call
  asked : outline.view.call.decideCalls = if outline.view.call.legs = [] then 0 else 1

structure Relays (app : App) (decision : PolicyDecision) : Prop where
  decides : ∀ event, event.isTry = true → app.decide event = .ok decision
  action : decision.action = .relay
  hops : decision.nextHops ≠ []

theorem Relays.originates {app : App} {decision : PolicyDecision} (relays : Relays app decision)
    {call : Call} {action : CallAction} (asks : AsksNow call action) :
    Originates app call action := by
  cases action with
  | comeBack => exact asks
  | enter label =>
      cases label with
      | raises ua event =>
          exact Or.inl ⟨asks.1, asks.2.1, asks.2.2, decision,
            relays.decides event asks.2.2, relays.action, relays.hops⟩
      | _ => exact asks

theorem OnWalk.step {app : App} {process : Process} {decision : PolicyDecision}
    {outline next : CallOutline} {action : CallAction} (onWalk : OnWalk process decision outline)
    (relays : Relays app decision) (step : CallStep app outline action next) :
    OnWalk process decision next := by
  have levels := step_levels step
  refine ⟨onWalk.toChosen.step relays.decides step, ?_, ?_⟩
  · intro routedNow
    cases step_attempts step onWalk.shape with
    | same action quiet kept =>
        have routed : outline.view.call.legs ≠ [] :=
          fun none => routedNow ((Call.legs_eq_nil_iff kept.length).mpr none)
        obtain ⟨tried, some, walked⟩ := onWalk.walked routed
        have same := step_sameDecision step onWalk.shape routed
        exact ⟨tried, some, kept.walked walked same.policy same.pendingEvent⟩
    | started ua event ending starts finished originated =>
        cases originated with
        | first other hop rest unrouted asked action hops attempt =>
            rw [onWalk.shape.decided relays.decides starts unrouted] at asked
            cases asked
            refine ⟨[] ++ [hop], List.cons_ne_nil hop [],
              attempt.done.walked hops.symm rfl ?_ rfl rfl⟩
            have none : (outline.view.call.raise ua event).legs = [] :=
              (Call.legs_eq_nil_iff (Call.length_legs_mapUa ua (Ua.raise event)
                outline.view.call)).mpr unrouted
            change (outline.view.call.raise ua event).legs.map Ua.nhAddress = _
            rw [none]
            rfl
        | failover hop rest current routed failed remaining attempt =>
            obtain ⟨tried, _, walked⟩ := onWalk.walked routed
            have raised := Call.sameAttempt_raise ua event outline.view.call
            refine ⟨tried ++ [hop], by simp, attempt.done.walked ?_ rfl ?_ ?_ ?_⟩
            · change tried ++ hop :: rest = decision.nextHops
              rw [← remaining]
              exact walked.hops
            · exact raised.addresses.trans walked.addresses
            · change (outline.view.call.raise ua event).policy = some decision
              rw [Call.toBaseCallController_raise]
              exact walked.policy
            · change (outline.view.call.raise ua event).pendingEvent = decision.outboundEvent
              rw [Call.toBaseCallController_raise]
              exact walked.pending
  · cases step_attempts step onWalk.shape with
    | same action quiet kept =>
        rw [levels.2 (fun asks => quiet (relays.originates asks)), onWalk.asked]
        simp only [Call.legs_eq_nil_iff kept.length]
    | started ua event ending starts finished originated =>
        have longer := originated.length
        have routedNow : next.view.call.legs ≠ [] := by
          intro none
          rw [none] at longer
          cases longer
        rw [if_neg routedNow]
        cases originated with
        | first other hop rest unrouted asked action hops attempt =>
            have before := onWalk.asked
            rw [if_pos unrouted] at before
            rw [attempt.done.decideCalls]
            change (outline.view.call.raise ua event).decideCalls + 1 = 1
            rw [Call.decideCalls_raise, before]
        | failover hop rest current routed failed remaining attempt =>
            have before := onWalk.asked
            rw [if_neg routed] at before
            rw [attempt.done.decideCalls]
            change (outline.view.call.raise ua event).decideCalls = 1
            rw [Call.decideCalls_raise, before]

/-! ### What the new leg is given, and what is told about it -/

structure Attempting (decision : PolicyDecision) (hop : NextHop) (start before : World) :
    Prop where
  tracer : before.tracer = start.tracer
  log : ∃ lines, before.log = start.log ++ lines
  callId : before.callId = start.callId
  levels : before.isEnabledFor = start.isEnabledFor
  policy : before.policy = some decision
  pending : before.pendingEvent = decision.outboundEvent

theorem World.tracer_attempted (app : App) (hop : NextHop) (calledNumber : String)
    (pending : CCEvent) (world : World) :
    (world.attempted app hop calledNumber pending).tracer = world.tracer.record
      { callId := world.callId
        direction := LogDirection.outbound
        method := "INVITE"
        summary := (relayVocabulary world.policy hop calledNumber).1
        peer := renderPeer hop.address hop.port
        attributes := (OrderedDict.singleton "leg" (.str legNextHop)).update
          (relayVocabulary world.policy hop calledNumber).2.1 } := rfl

theorem World.log_attempted (app : App) (hop : NextHop) (calledNumber : String)
    (pending : CCEvent) (world : World) :
    ∃ lines, (world.attempted app hop calledNumber pending).log = world.log ++ lines ++
      (logEntry world.isEnabledFor .info (relayVocabulary world.policy hop calledNumber).1
        [("call_id", .str world.callId), ("direction", .str LogDirection.outbound),
          ("peer", .str (renderPeer hop.address hop.port)), ("method", .str "INVITE")]
        [(relayVocabulary world.policy hop calledNumber).2.2]).toList :=
  ⟨_, rfl⟩

theorem Attempting.announced {decision : PolicyDecision} {hop : NextHop}
    {config next : CallConfig} {before : World}
    (attempting : Attempting decision hop config.state before) {app : App}
    {calledNumber : String} {pending : CCEvent}
    (called : CCEvent.calledNumber before.pendingEvent = .ok calledNumber)
    (attempted : next.state = before.attempted app hop calledNumber pending) :
    Announced decision hop config next := by
  obtain ⟨earlier, log⟩ := attempting.log
  obtain ⟨lines, logged⟩ := World.log_attempted app hop calledNumber pending before
  rw [attempting.pending] at called
  refine ⟨calledNumber, withAttemptFields decision.attributes hop calledNumber,
    withAttemptFields decision.relayLogFields hop calledNumber, earlier ++ lines, called,
    withAttemptFields_filledIn decision.attributes hop calledNumber,
    withAttemptFields_filledIn decision.relayLogFields hop calledNumber, ?_, ?_⟩
  · rw [attempted, World.tracer_attempted, attempting.tracer, attempting.callId,
      attempting.policy]
    rfl
  · rw [attempted, logged, log, attempting.callId, attempting.levels, attempting.policy,
      List.append_assoc config.state.log]
    rfl

theorem recvEvent_raise_first {app : App} {ua : UaRef} {event : CCEvent} {world : World}
    {decision : PolicyDecision} {hop : NextHop} {rest : List NextHop}
    (answering : world.uaA = some ua) (unrouted : world.uaO = none) (first : event.isTry = true)
    (asked : app.decide event = .ok decision) (action : decision.action = .relay)
    (hops : decision.nextHops = hop :: rest) :
    recvEvent app event ua (world.mapCall (Call.raise ua event)) =
      originateTowards app hop
        ((world.mapCall (Call.raise ua event)).mapCall (Call.relaying decision rest)) := by
  have controller := Call.toBaseCallController_raise ua event world.toCall
  apply recvEvent_first app event ua _ decision hop rest _ _ first asked action hops
  · exact (congrArg BaseCallController.uaA controller).trans answering
  · exact (congrArg BaseCallController.uaO controller).trans unrouted

/-- A failover, at its event. -/
theorem recvEvent_raise_failover {app : App} {ua : UaRef} {event : CCEvent} {world : World}
    {hop : NextHop} {rest : List NextHop} (notTrunk : world.uaA ≠ some ua)
    (current : world.uaO = some ua) (failed : FailsOver world.toCall event)
    (remaining : world.failoverHops = hop :: rest) :
    recvEvent app event ua (world.mapCall (Call.raise ua event)) =
      (originateTowards app hop
        ((world.mapCall (Call.raise ua event)).failedOver app hop rest)).bind
          (fun middle _ => reportFailover event middle) := by
  have controller := Call.toBaseCallController_raise ua event world.toCall
  obtain ⟨terminates, away, _⟩ := failed
  rw [recvEvent_nextHop]
  · apply relayFromNextHop_failover app event _ hop rest terminates
    · exact (Call.trunkConnected_raise ua event world.toCall).trans away
    · exact (congrArg BaseCallController.failoverHops controller).trans remaining
  · intro answering
    exact notTrunk ((congrArg BaseCallController.uaA controller).symm.trans answering)
  · exact (congrArg BaseCallController.uaO controller).trans current

/-- An event that starts an attempt which can be announced runs up to the giving of
the INVITE. -/
theorem recvEvent_attempts {app : App} {decision : PolicyDecision}
    (relays : Relays app decision) {ua : UaRef} {event : CCEvent} {world : World}
    (shape : world.toCall.Shape)
    (starts : Originates app world.toCall (.enter (.raises ua event)))
    (chosen : world.legs ≠ [] →
      world.policy = some decision ∧ world.pendingEvent = decision.outboundEvent)
    (attemptable : Attemptable world.isEnabledFor (some decision) decision.outboundEvent) :
    ∃ (hop : NextHop) (before : World) (calledNumber : String) (pending : CCEvent),
      Attempting decision hop world before ∧
        CCEvent.calledNumber before.pendingEvent = .ok calledNumber ∧
        ∃ request resume, recvEvent app event ua (world.mapCall (Call.raise ua event)) =
          .call (before.attempted app hop calledNumber pending) request resume := by
  obtain ⟨calledNumber, called⟩ := attemptable.called
  obtain ⟨pending, waiting⟩ := pending_isSome_of_called called
  have raised := Call.toBaseCallController_raise ua event world.toCall
  rcases starts with ⟨answering, unrouted, first, other, asked, _, _⟩ | ⟨current, failed⟩
  · rw [relays.decides event first] at asked
    cases asked
    obtain ⟨hop, rest, hops⟩ := List.exists_cons_of_ne_nil relays.hops
    let before := (world.mapCall (Call.raise ua event)).mapCall (Call.relaying decision rest)
    refine ⟨hop, before, calledNumber, pending, ⟨rfl, ⟨[], (List.append_nil _).symm⟩, ?_, rfl,
      rfl, rfl⟩, called, _, _, Eq.trans ?_
        (originateTowards_run app hop calledNumber pending before waiting called
          attemptable.accepted)⟩
    · change (world.toCall.raise ua event).callId = world.callId
      rw [raised]
    · exact recvEvent_raise_first answering unrouted first (relays.decides event first)
        relays.action hops
  · have remaining := failed.2.2
    obtain ⟨hop, rest, hops⟩ := List.exists_cons_of_ne_nil remaining
    obtain ⟨policy, outbound⟩ := chosen (fun none => remaining (shape.unrouted none))
    have notTrunk := shape.uaO_ne_uaA current
    let before := (world.mapCall (Call.raise ua event)).failedOver app hop rest
    have decided : before.policy = some decision :=
      (congrArg BaseCallController.policy raised).trans policy
    have pends : before.pendingEvent = decision.outboundEvent :=
      (congrArg BaseCallController.pendingEvent raised).trans outbound
    have attempt := originateTowards_run app hop calledNumber pending before
      (pends.trans waiting) (pends ▸ called) (decided ▸ attemptable.accepted)
    refine ⟨hop, before, calledNumber, pending, ⟨rfl, ⟨_, rfl⟩, ?_, rfl, decided, pends⟩,
      pends ▸ called, _, _, Eq.trans ?_ (congrArg (fun program => program.bind
        (fun middle _ => reportFailover event middle)) attempt)⟩
    · change (world.toCall.raise ua event).callId = world.callId
      rw [raised]
    · exact recvEvent_raise_failover notTrunk current failed hops

theorem announced_of_attempt {app : App} {decision : PolicyDecision}
    (relays : Relays app decision) {config next : CallConfig} {ua : UaRef} {event : CCEvent}
    (shape : config.state.toCall.Shape)
    (starts : Originates app config.state.toCall (.enter (.raises ua event)))
    (chosen : config.state.legs ≠ [] → config.state.policy = some decision ∧
      config.state.pendingEvent = decision.outboundEvent)
    (attemptable : Attemptable config.state.isEnabledFor (some decision) decision.outboundEvent)
    (taken : (callSystem app).step config (.enter (.raises ua event)) = some next) :
    ∃ hop, next.state.servingHop = some hop ∧ Announced decision hop config next := by
  obtain ⟨hop, before, calledNumber, pending, attempting, called, request, resume, program⟩ :=
    recvEvent_attempts relays shape starts chosen attemptable
  simp only [System.step, callSystem, program, Option.map_eq_some_iff,
    Option.ite_none_right_eq_some, Option.some.injEq] at taken
  obtain ⟨_, ⟨_, rfl⟩, settled⟩ := taken
  rw [settle_call] at settled
  subst settled
  exact ⟨hop, rfl, attempting.announced called rfl⟩

/-! ### The steps of a walk -/

theorem Originated.trunk {app : App} {before after : Control} {ua : UaRef} {event : CCEvent}
    {ending : CallEnding} (originated : Originated app before ua event after ending) :
    after.call.trunk = (before.call.raise ua event).trunk := by
  cases originated with
  | first decision hop rest unrouted asked action hops attempt => exact attempt.done.trunk
  | failover hop rest current routed failed remaining attempt => exact attempt.done.trunk

theorem Originated.not_givenToTrunk {app : App} {config next : CallConfig} {ua : UaRef}
    {event : CCEvent} {ending : CallEnding} {before after : Control}
    (originated : Originated app before ua event after ending)
    (earlier : config.state.toCall = before.call) (later : next.state.toCall = after.call)
    (answered : before.call.trunk.isSome = true) : ¬GivenToTrunk event config next := by
  unfold GivenToTrunk
  rw [earlier, later, originated.trunk]
  obtain ⟨trunk, present⟩ := Option.isSome_iff_exists.mp answered
  cases ua with
  | trunk => simp [Call.raise, Call.mapUa, present, Ua.raise]
  | leg index => simp [Call.raise, Call.mapUa, present]

/-- A step is one of a walk exactly if the attempt it starts, if any, can be announced. -/
theorem walkStep_iff {app : App} {process : Process} {decision : PolicyDecision}
    (relays : Relays app decision) {config next : CallConfig} {action : CallAction}
    {outline nextOutline : CallOutline} (follows : callOutlook.Follows config outline)
    (followed : callOutlook.Follows next nextOutline) (onWalk : OnWalk process decision outline)
    (taken : (callSystem app).step config action = some next)
    (step : CallStep app outline action nextOutline) :
    WalkStep decision config action next ↔
      (Originates app config.state.toCall action →
        Attemptable process.isEnabledFor (some decision) decision.outboundEvent) := by
  have before : config.state.toCall = outline.view.call := congrArg Control.call follows.view
  have after : next.state.toCall = nextOutline.view.call := congrArg Control.call followed.view
  have levels : config.state.isEnabledFor = outline.view.isEnabledFor :=
    congrArg Control.isEnabledFor follows.view
  have onward := onWalk.step relays step
  have walked : next.state.legs ≠ [] →
      ∃ tried, tried ≠ [] ∧ Walked decision tried next.state.toCall := by
    rw [after]
    exact onward.walked
  have asked : next.state.decideCalls = if next.state.legs = [] then 0 else 1 := by
    rw [after]
    exact onward.asked
  cases step_attempts step onWalk.shape with
  | same action quiet kept =>
      have length : next.state.legs.length = config.state.legs.length := by
        rw [before, after]
        exact kept.length
      refine iff_of_true ⟨walked, asked, by omega, ?_, ?_, ?_⟩
        (fun starts => absurd (before ▸ starts) quiet)
      · rw [← length, List.drop_length]
        exact fun leg member => absurd member List.not_mem_nil
      · intro longer
        omega
      · -- an event that fails over starts an attempt, so no hop was left
        rintro ua event rfl current terminates away _
        rw [before] at current away
        rw [after, kept.failoverHops]
        by_contra remaining
        exact quiet (Or.inr ⟨current, terminates, away, remaining⟩)
  | started ua event ending starts finished originated =>
      obtain ⟨leg, added, given⟩ := originated.newLeg onWalk.chosen
        (onWalk.shape.decided relays.decides starts)
      rw [onWalk.levels] at given
      have length : next.state.legs.length = config.state.legs.length + 1 := by
        rw [before, after]
        exact originated.length
      have addedNow : next.state.legs.drop config.state.legs.length = [leg] := by
        rw [before, after]
        exact added
      constructor
      · intro walk _
        exact given.mp (walk.invited leg (by rw [addedNow]; exact List.mem_singleton_self leg))
      · intro allowed
        have attemptable := allowed (before ▸ starts)
        refine ⟨walked, asked, by omega, ?_, ?_, ?_⟩
        · intro other member
          rw [addedNow, List.mem_singleton] at member
          rw [member]
          exact given.mpr attemptable
        · intro _
          refine announced_of_attempt relays (before ▸ onWalk.shape) (before ▸ starts) ?_ ?_ taken
          · rw [before]
            exact onWalk.chosen
          · rw [levels, onWalk.levels]
            exact attemptable
        · rintro other told same current _ _ delivered
          cases same
          rw [before] at current
          have routed : outline.view.call.legs ≠ [] := by
            rw [Ne, onWalk.shape.legs_of_uaO, current]
            exact Option.some_ne_none _
          exact absurd delivered
            (originated.not_givenToTrunk before after (onWalk.shape.routed routed))

/-- A run of a relay decision walks along its hops exactly if every attempt it starts
can be announced. -/
theorem failoverWalk_iff (app : App) (decision : PolicyDecision)
    (relays : Relays app decision) (process : Process) (globalConfig : GlobalConfig)
    (nextHop : Option (String × Nat)) (actions : List CallAction) :
    CallAlong app (WalkStep decision) (process.newCall globalConfig nextHop) actions ↔
      CallAlong app
        (fun config action _ => Originates app config.state.toCall action →
          Attemptable process.isEnabledFor (some decision) decision.outboundEvent)
        (process.newCall globalConfig nextHop) actions := by
  apply Outlook.along_iff_along (callSystem_describes app) (OnWalk process decision)
  · exact ⟨Chosen.initial process globalConfig nextHop decision, fun routed => absurd rfl routed,
      rfl⟩
  · intro config action outline next follows onWalk _ step
    exact onWalk.step relays step
  · intro config action next outline nextOutline follows followed onWalk taken step
    exact walkStep_iff relays follows followed onWalk taken step

/-- The first hop fails and the second gets the same event. -/
theorem failoverWalk_iff_failover :
    CallAlong (App.deciding (sampleRelay [sampleHop "1", sampleHop "2"]))
      (WalkStep (sampleRelay [sampleHop "1", sampleHop "2"])) sampleWorld
      (sampleOpening ++ [.enter (.raises (.leg 0) sampleFail), .comeBack]) := by
  have attemptable : Attemptable sampleProcess.isEnabledFor
      (some (sampleRelay [sampleHop "1", sampleHop "2"])) (some (sampleTry "200")) :=
    ⟨⟨"200", rfl⟩, by decide⟩
  apply (failoverWalk_iff _ _ ⟨fun _ _ => rfl, rfl, List.cons_ne_nil _ _⟩ sampleProcess
    { sipAddress := some "192.0.2.1" } none _).mpr
  exact System.along_of_invariant (fun _ => True) trivial
    (fun _ _ _ _ _ => ⟨trivial, fun _ => attemptable⟩) _

/-- A relay decision whose log fields name the method themselves. -/
def sampleClash : PolicyDecision :=
  { sampleRelay [sampleHop "1"] with
    relayLogFields := OrderedDict.singleton "method" (.str "INVITE") }

/-- The line of the attempt raises, and the new leg is never given the INVITE. -/
theorem not_failoverWalk :
    Relays (App.deciding sampleClash) sampleClash ∧
      ¬CallAlong (App.deciding sampleClash) (WalkStep sampleClash) sampleWorld
        (sampleOpening.take 3) := by
  refine ⟨⟨fun _ _ => rfl, rfl, List.cons_ne_nil _ _⟩, ?_⟩
  intro along
  have invited := along.mono (fun _ _ _ walk => walk.invited)
  revert invited
  decide

end AsPlatform
