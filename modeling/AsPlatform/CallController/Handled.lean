/-
The controller does only what `Effect` says.

One lemma for each handler, from the equations of its parts; `callSystem_describes`
puts them together.  Every invariant of the later modules is proved on outlines.
-/

import AsPlatform.CallController.Effects

namespace AsPlatform

open Reentrant

abbrev Outcome (program : Prog World UaCall PyError Unit) (after : Control)
    (ending : CallEnding) : Prop :=
  callOutlook.Outcome program after ending

theorem World.newLeg_new (hop : NextHop) (world : World) : (world.newLeg hop).New :=
  ⟨rfl, rfl, rfl, rfl⟩

theorem originateTowards_effect (app : App) (hop : NextHop) (world : World) :
    ∃ after ending, AttemptEffect false hop world.control after ending ∧
      Outcome (originateTowards app hop world) after ending := by
  by_cases attemptable : Attemptable world.isEnabledFor world.policy world.pendingEvent
  · obtain ⟨calledNumber, called⟩ := attemptable.called
    obtain ⟨pending, waiting⟩ := pending_isSome_of_called called
    refine ⟨_, _, .invited (world.newLeg hop) world.expireSeconds pending
      (world.newLeg_new hop) rfl waiting attemptable, ?_⟩
    rw [originateTowards_run app hop calledNumber pending world waiting called
      attemptable.accepted]
    exact ⟨rfl, rfl, ⟨fun state => ⟨_, rfl, rfl⟩, fun state error => ⟨_, rfl, rfl⟩⟩⟩
  · obtain ⟨last, error, raised, same⟩ := originateTowards_refused app hop world attemptable
    refine ⟨_, _, .raised (world.newLeg hop) world.expireSeconds (world.newLeg_new hop) rfl
      attemptable, ?_⟩
    rw [raised]
    exact ⟨same, trivial⟩

/-! ### Events of the originating leg -/

theorem recordDisposition_run (event : CCEvent) (world : World) :
    ∃ last, recordDisposition event world = .ret last (.ok ()) ∧
      last.control = world.control.count (world.outcome event) := by
  have accepted : ∀ enabled, KeysAccepted enabled ["call_id", "direction", "disposition"] := by
    decide
  simp only [recordDisposition, recordCallDisposition, Handler.run_bind, Handler.run_get,
    Prog.bind_ok, Handler.run_modify]
  rw [emitLog_accepted]
  · exact ⟨_, rfl, by rw [World.control_appendLog, World.control_recordCallDisposition]⟩
  · exact accepted _

theorem reportFailover_run (event : CCEvent) (world : World) :
    ∃ last, reportFailover event world = .ret last (.ok ()) ∧
      last.control = world.control.mapCall Call.cancelNoAnswerTimer := by
  simp only [reportFailover, cancelNoAnswerTimer, modifyCall, Handler.run_bind,
    Handler.run_modify, Prog.bind_ok, Handler.run_get, record_run]
  exact ⟨_, rfl, rfl⟩

theorem reportRelayed_run (event : CCEvent) (world : World) :
    ∃ last, reportRelayed event world = .ret last (.ok ()) ∧ last.control = world.control := by
  unfold reportRelayed
  dsimp only
  split
  · simp only [Handler.run_bind, Handler.run_get, Prog.bind_ok, record_run]
    exact ⟨_, rfl, rfl⟩
  · exact ⟨world, rfl, rfl⟩

theorem giveTrunk_run (event : CCEvent) (ref : UaRef) (world : World)
    (answering : world.uaA = some ref) :
    giveTrunk event world =
      .call (world.mapCall (Call.give ref event)) (.recvEvent ref event)
        (fun back result => .ret back result) := by
  simp only [giveTrunk, Handler.run_bind, Handler.run_get, Prog.bind_ok, answering]
  exact callUa_recvEvent_run ref event world

theorem giveAndReport_effect (event : CCEvent) (world : World) :
    ∃ after ending, RelayEffect event world.control after ending ∧
      Outcome
        ((do
          if world.uaA.isSome then
            giveTrunk event
          reportRelayed event : Ctl Unit) world) after ending := by
  cases answering : world.uaA with
  | none =>
      refine ⟨_, _, .unanswered answering, ?_⟩
      obtain ⟨last, ran, same⟩ := reportRelayed_run event world
      simp only [Option.isSome_none, Bool.false_eq_true, if_false, ran]
      exact ⟨same, trivial⟩
  | some ref =>
      refine ⟨_, _, .delivered ref answering, ?_⟩
      simp only [Option.isSome_some, if_true, Handler.run_bind,
        giveTrunk_run event ref world answering, Prog.bind_call]
      refine ⟨rfl, rfl, ⟨fun state => ?_, fun state error => ⟨state, rfl, rfl⟩⟩⟩
      obtain ⟨last, ran, same⟩ := reportRelayed_run event state
      exact ⟨last, ran, same⟩

/-- `relayToTrunk` on the control part, before the event is given away. -/
def Control.closing (event : CCEvent) (control : Control) : Control :=
  if event.terminates then
    (control.mapCall Call.cancelNoAnswerTimer).count (control.call.outcome event)
  else control

theorem relayToTrunk_effect (event : CCEvent) (world : World) :
    ∃ after ending, RelayEffect event (world.control.closing event) after ending ∧
      Outcome (relayToTrunk event world) after ending := by
  unfold relayToTrunk
  simp only [Handler.run_bind, Handler.run_get, Prog.bind_ok, record_run]
  by_cases terminates : event.terminates = true
  · simp only [terminates, if_true, cancelNoAnswerTimer, modifyCall, Handler.run_bind,
      Handler.run_modify, Prog.bind_ok]
    obtain ⟨last, recorded, same⟩ := recordDisposition_run event
      ((world.recorded LogDirection.inbound legNextHop (describeEvent event).1
        ((describeEvent event).2 ++ " on the next-hop leg")
        (nextHopPeer world.toBaseCallController) ∅).mapCall Call.cancelNoAnswerTimer)
    rw [recorded, Prog.bind_ok]
    have sameControl : last.control = world.control.closing event := by
      rw [same, Control.closing, if_pos terminates, World.toCall_mapCall,
        Call.outcome_cancelNoAnswerTimer]
      rfl
    have answering : last.uaA = world.uaA := by
      have calls := congrArg (fun control => control.call.uaA) same
      simpa using calls
    obtain ⟨after, ending, effect, outcome⟩ := giveAndReport_effect event last
    rw [sameControl] at effect
    rw [answering] at outcome
    exact ⟨after, ending, effect, outcome⟩
  · simp only [terminates, if_false, Bool.false_eq_true]
    have effects := giveAndReport_effect event
      (world.recorded LogDirection.inbound legNextHop (describeEvent event).1
        ((describeEvent event).2 ++ " on the next-hop leg")
        (nextHopPeer world.toBaseCallController) ∅)
    rw [World.control_recorded] at effects
    rw [Control.closing, if_neg terminates]
    exact effects

theorem AttemptEffect.withTail {hop : NextHop} {before after : Control} {ending : CallEnding}
    (effect : AttemptEffect false hop before after ending)
    {program : Prog World UaCall PyError Unit} (outcome : Outcome program after ending)
    (tail : World → Prog World UaCall PyError Unit)
    (tailRuns : ∀ world, ∃ last, tail world = .ret last (.ok ()) ∧
      last.control = world.control.mapCall Call.cancelNoAnswerTimer) :
    ∃ newEnding, AttemptEffect true hop before after newEnding ∧
      Outcome (program.bind (fun middle _ => tail middle)) after newEnding := by
  cases effect with
  | invited leg seconds pending new address waiting attemptable =>
      refine ⟨_, .invited leg seconds pending new address waiting attemptable, ?_⟩
      cases program with
      | ret state result => cases result <;> exact absurd outcome.ends id
      | call state request resume =>
          obtain ⟨same, finishes⟩ := outcome.ends
          refine ⟨outcome.view, same, ⟨fun state => ?_, fun state error => ?_⟩⟩
          · obtain ⟨middle, resumed, unchanged⟩ := finishes.returns state
            obtain ⟨last, ran, cleared⟩ := tailRuns middle
            refine ⟨last, ?_, ?_⟩
            · have back : resume state (.ok ()) = .ret middle (.ok ()) := resumed
              change ((resume state (.ok ())).bind fun middle _ => tail middle) = _
              rw [back, Prog.bind_ok, ran]
            · rw [callOutlook_view, cleared]
              exact congrArg (Control.mapCall Call.cancelNoAnswerTimer) unchanged
          · obtain ⟨last, resumed, unchanged⟩ := finishes.raises state error
            refine ⟨last, ?_, unchanged⟩
            have back : resume state (.error error) = .ret last (.error error) := resumed
            change ((resume state (.error error)).bind fun middle _ => tail middle) = _
            rw [back, Prog.bind_error]
  | raised leg seconds new address refused =>
      refine ⟨_, .raised leg seconds new address refused, ?_⟩
      cases program with
      | ret state result =>
          cases result with
          | ok value => exact absurd outcome.ends id
          | error error => exact ⟨outcome.view, trivial⟩
      | call state request resume => exact absurd outcome.ends id

/-- What an answer does first and what the relaying of an event does last, together. -/
theorem Control.closing_answered (event : CCEvent) (world : World) :
    (if event.isAnswer then world.mapCall Call.cancelNoAnswerTimer
      else world).control.closing event = world.control.relaying event := by
  by_cases terminates : event.terminates = true
  · have quiet : event.isAnswer = false := event.not_isAnswer_of_terminates terminates
    rw [Control.closing, Control.relaying, if_pos terminates, if_pos terminates, quiet]
    rfl
  · rw [Control.closing, Control.relaying, if_neg terminates, if_neg terminates]
    split <;> rfl

theorem relayFromNextHop_effect (app : App) (event : CCEvent) (world : World) :
    ∃ after ending, NextHopEffect event world.control after ending ∧
      Outcome (relayFromNextHop app event world) after ending := by
  by_cases failed : FailsOver world.control.call event
  · have ⟨terminates, away, further⟩ := failed
    obtain ⟨hop, rest, remaining⟩ := List.exists_cons_of_ne_nil further
    obtain ⟨after, ending, attempt, outcome⟩ :=
      originateTowards_effect app hop (world.failedOver app hop rest)
    obtain ⟨newEnding, effect, whole⟩ :=
      attempt.withTail outcome (reportFailover event) (reportFailover_run event)
    rw [World.control_failedOver] at effect
    refine ⟨after, newEnding, .failover hop rest after newEnding failed remaining effect, ?_⟩
    rw [relayFromNextHop_failover app event world hop rest terminates away remaining]
    exact whole
  · obtain ⟨after, ending, relay, outcome⟩ := relayToTrunk_effect event
      (if event.isAnswer then world.mapCall Call.cancelNoAnswerTimer else world)
    rw [Control.closing_answered] at relay
    refine ⟨after, ending, .relayed after ending failed relay, ?_⟩
    rw [relayFromNextHop_kept app event world]
    · exact outcome
    · intro terminates away
      by_contra further
      exact failed ⟨terminates, away, further⟩

/-! ### Events of the trunk leg -/

theorem announceReject_run (decision : PolicyDecision) (error : AsError) (world : World)
    (answerable : Answerable world.isEnabledFor decision error) :
    ∃ last, announceReject decision error world = .ret last (.ok ()) ∧
      last.control =
        (world.control.mapCall Call.cancelNoAnswerTimer).count decision.disposition := by
  simp only [announceReject, cancelNoAnswerTimer, modifyCall, recordCallDisposition,
    Handler.run_bind, Handler.run_modify, Handler.run_get, Prog.bind_ok]
  rw [emitLog_accepted]
  · refine ⟨_, rfl, ?_⟩
    simp only [World.control_appendLog, World.control_mapTracer,
      World.control_recordCallDisposition, World.control_mapCall]
  · simpa [keywordKeys, Answerable] using answerable

theorem announceReject_refused (decision : PolicyDecision) (error : AsError) (world : World)
    (clash : ¬Answerable world.isEnabledFor decision error) :
    ∃ last raised, announceReject decision error world = .ret last (.error raised) ∧
      last.control =
        (world.control.mapCall Call.cancelNoAnswerTimer).count decision.disposition := by
  simp only [announceReject, cancelNoAnswerTimer, modifyCall, recordCallDisposition,
    Handler.run_bind, Handler.run_modify, Handler.run_get, Prog.bind_ok]
  refine Exists.elim (emitLog_refused .warning decision.rejectLogMessage _ _ _ ?_)
    (fun raised run => ⟨_, raised, run, ?_⟩)
  · simpa [keywordKeys, Answerable] using clash
  · simp only [World.control_mapTracer, World.control_recordCallDisposition,
      World.control_mapCall]

theorem rejectOnTrunk_effect (decision : PolicyDecision) (ref : UaRef) (world : World)
    (answering : world.uaA = some ref) :
    ∃ after ending, RejectEffect decision ref world.control after ending ∧
      Outcome (rejectOnTrunk decision world) after ending := by
  cases carried : decision.error with
  | none =>
      refine ⟨_, _, .unjustified carried, ?_⟩
      simp only [rejectOnTrunk, carried, Handler.run_raise]
      exact ⟨rfl, trivial⟩
  | some error =>
      by_cases answerable : Answerable world.isEnabledFor decision error
      · refine ⟨_, _, .answered error carried answerable, ?_⟩
        obtain ⟨last, ran, same⟩ := announceReject_run decision error world answerable
        have still : last.uaA = some ref := by
          have calls := congrArg (fun control => control.call.uaA) same
          simpa [answering] using calls
        simp only [rejectOnTrunk, carried, Handler.run_bind, ran, Prog.bind_ok, Handler.run_get,
          still, Option.isSome_some, if_true, giveTrunk_run error.failEvent ref last still]
        refine ⟨?_, rfl, ⟨fun state => ⟨state, rfl, rfl⟩, fun state error => ⟨state, rfl, rfl⟩⟩⟩
        rw [Prog.stop_call, callOutlook_view, World.control_mapCall, same]
      · refine ⟨_, _, .unanswered error carried answerable, ?_⟩
        obtain ⟨last, raised, ran, same⟩ := announceReject_refused decision error world answerable
        simp only [rejectOnTrunk, carried, Handler.run_bind, ran, Prog.bind_error]
        exact ⟨same, trivial⟩

theorem originateOutboundLeg_effect (app : App) (event : CCEvent) (ua : UaRef) (world : World)
    (answering : world.uaA = some ua) (unrouted : world.uaO = none)
    (first : event.isTry = true) :
    ∃ after ending, TrunkEffect app event ua world.control after ending ∧
      Outcome (originateOutboundLeg app event world) after ending := by
  cases asked : app.decide event with
  | error error =>
      refine ⟨_, _, .hookRaised error unrouted first asked, ?_⟩
      rw [originateOutboundLeg_raised app event world error asked]
      exact ⟨rfl, trivial⟩
  | ok decision =>
      cases action : decision.action with
      | reject =>
          obtain ⟨after, ending, reject, outcome⟩ := rejectOnTrunk_effect decision ua
            (world.mapCall (Call.decided decision)) answering
          refine ⟨after, ending, .rejected decision after ending unrouted first asked action
            reject, ?_⟩
          rw [originateOutboundLeg_reject app event world decision asked action]
          exact outcome
      | relay =>
          cases hops : decision.nextHops with
          | nil =>
              refine ⟨_, _, .noHop decision unrouted first asked action hops, ?_⟩
              rw [originateOutboundLeg_noHop app event world decision asked action hops]
              exact ⟨rfl, trivial⟩
          | cons hop rest =>
              obtain ⟨after, ending, attempt, outcome⟩ := originateTowards_effect app hop
                (world.mapCall (Call.relaying decision rest))
              refine ⟨after, ending, .attempted decision hop rest after ending unrouted first
                asked action hops attempt, ?_⟩
              rw [originateOutboundLeg_attempt app event world decision hop rest asked action
                hops]
              exact outcome

theorem relayFromTrunk_effect (app : App) (event : CCEvent) (ua : UaRef) (world : World)
    (answering : world.uaA = some ua) :
    ∃ after ending, TrunkEffect app event ua world.control after ending ∧
      Outcome (relayFromTrunk app event world) after ending := by
  cases current : world.uaO with
  | none =>
      by_cases first : event.isTry = true
      · obtain ⟨after, ending, effect, outcome⟩ :=
          originateOutboundLeg_effect app event ua world answering current first
        refine ⟨after, ending, effect, ?_⟩
        simpa [relayFromTrunk, current, first] using outcome
      · have other : event.isTry = false := by simpa using first
        refine ⟨_, _, .tornDown current other, ?_⟩
        simp only [relayFromTrunk, Handler.run_bind, Handler.run_get, Prog.bind_ok, current,
          other, Bool.not_false, if_true, giveTrunk_run .disconnect ua world answering]
        exact ⟨rfl, rfl, ⟨fun state => ⟨state, rfl, rfl⟩, fun state error => ⟨state, rfl, rfl⟩⟩⟩
  | some leg =>
      refine ⟨_, _, .relayed leg current, ?_⟩
      simp only [relayFromTrunk, Handler.run_bind, Handler.run_get, Prog.bind_ok, current,
        record_run, callUa_recvEvent_run]
      exact ⟨rfl, rfl, ⟨fun state => ⟨state, rfl, rfl⟩, fun state error => ⟨state, rfl, rfl⟩⟩⟩

/-! ### All labels -/

theorem recvEvent_effect (app : App) (event : CCEvent) (ua : UaRef) (world : World) :
    ∃ after ending, EventEffect app event ua world.control after ending ∧
      Outcome (recvEvent app event ua world) after ending := by
  by_cases answering : world.uaA = some ua
  · obtain ⟨after, ending, effect, outcome⟩ :=
      relayFromTrunk_effect app event ua world answering
    refine ⟨after, ending, .trunk after ending answering effect, ?_⟩
    simpa [recvEvent, answering] using outcome
  · by_cases current : world.uaO = some ua
    · obtain ⟨after, ending, effect, outcome⟩ := relayFromNextHop_effect app event world
      refine ⟨after, ending, .nextHop after ending answering current effect, ?_⟩
      simpa [recvEvent, answering, current] using outcome
    · refine ⟨_, _, .stale answering current, ?_⟩
      simp only [recvEvent, Handler.run_bind, Handler.run_get, Prog.bind_ok, answering, if_false,
        ne_eq, current, not_false_eq_true, if_true, Handler.run_pure]
      exact ⟨rfl, trivial⟩

theorem onNextHopNoAnswer_effect (app : App) (world : World) :
    ∃ after ending, NoAnswerEffect world.control after ending ∧
      Outcome (onNextHopNoAnswer app world) after ending := by
  cases current : world.uaO with
  | none =>
      refine ⟨_, _, .ignored (Or.inl current), ?_⟩
      simp only [onNextHopNoAnswer, Handler.run_bind, Handler.run_get, Prog.bind_ok, current,
        Handler.run_pure]
      exact ⟨rfl, trivial⟩
  | some leg =>
      cases connected : world.trunkConnected with
      | true =>
          refine ⟨_, _, .ignored (Or.inr connected), ?_⟩
          simp only [onNextHopNoAnswer, Handler.run_bind, Handler.run_get, Prog.bind_ok, current,
            connected, if_true, Handler.run_pure]
          exact ⟨rfl, trivial⟩
      | false =>
          have accepted : ∀ enabled, KeysAccepted enabled
              ["call_id", "direction", "next_hop", "error_code"] := by decide
          refine ⟨_, _, .tornDown leg current connected, ?_⟩
          simp only [onNextHopNoAnswer, Handler.run_bind, Handler.run_get, Prog.bind_ok, current,
            connected, Bool.false_eq_true, if_false]
          rw [emitLog_accepted]
          · rw [Prog.bind_ok, callUa_disconnect_run]
            exact ⟨rfl, rfl,
              ⟨fun state => ⟨state, rfl, rfl⟩, fun state error => ⟨state, rfl, rfl⟩⟩⟩
          · exact accepted _

def inboundKeys (fields : Fields) : List String :=
  ["call_id", "direction", "peer", "method"] ++ fields.keys

theorem admitInvite_run (app : App) (request : Request) (fields : Fields) (world : World)
    (given : app.inboundFields request = .ok fields)
    (accepted : KeysAccepted (world.isEnabledFor .info) (inboundKeys fields)) :
    ∃ last, admitInvite app request world = .ret last (.ok ()) ∧
      last.control = (world.control.mapCall
        (Call.identify request.callId (sourcePeer request))).start := by
  simp only [admitInvite, modifyCall, setPeerStatus, Handler.run_bind, Handler.run_modify,
    Handler.run_get, Handler.run_ofExcept, given, Prog.bind_ok, record_run]
  rw [emitLog_accepted]
  · refine ⟨_, rfl, ?_⟩
    simp only [World.control_appendLog, World.control_recorded, World.control_setPeerStatus,
      World.control_recordCallStarted, World.control_mapCall]
  · simpa [keywordKeys, inboundKeys] using accepted

theorem admitInvite_refused (app : App) (request : Request) (fields : Fields) (world : World)
    (given : app.inboundFields request = .ok fields)
    (clash : ¬KeysAccepted (world.isEnabledFor .info) (inboundKeys fields)) :
    ∃ last raised, admitInvite app request world = .ret last (.error raised) ∧
      last.control = (world.control.mapCall
        (Call.identify request.callId (sourcePeer request))).start := by
  simp only [admitInvite, modifyCall, setPeerStatus, Handler.run_bind, Handler.run_modify,
    Handler.run_get, Handler.run_ofExcept, given, Prog.bind_ok, record_run]
  refine Exists.elim (emitLog_refused .info "invite received on the trunk" _ _ _ ?_)
    (fun raised run => ⟨_, raised, run, ?_⟩)
  · simpa [keywordKeys, inboundKeys] using clash
  · simp only [World.control_recorded, World.control_setPeerStatus,
      World.control_recordCallStarted, World.control_mapCall]

theorem receiveInvite_effect (app : App) (request : Request) (world : World) :
    ∃ after ending, InviteEffect request world.control after ending ∧
      Outcome (receiveInvite app request world) after ending := by
  have captured : receiveInvite app request world =
      recvRequest app request (world.mapCall (Call.rememberRequest request)) := rfl
  rw [captured]
  cases given : app.inboundFields request with
  | error error =>
      refine ⟨_, _, .hookRaised, ?_⟩
      simp only [recvRequest, admitInvite, modifyCall, Handler.run_bind, Handler.run_modify,
        Handler.run_ofExcept, given, Prog.bind_ok, Prog.bind_error]
      exact ⟨rfl, trivial⟩
  | ok fields =>
      by_cases accepted : KeysAccepted (world.isEnabledFor .info) (inboundKeys fields)
      · obtain ⟨last, ran, same⟩ := admitInvite_run app request fields
          (world.mapCall (Call.rememberRequest request)) given accepted
        refine ⟨_, _, .accepted
          { nhAddress := none
            localUa := last.globalConfig.sipUaname.getD ""
            lContact := localContact last.globalConfig last.sipConf } ⟨rfl, rfl, rfl, rfl⟩, ?_⟩
        simp only [recvRequest, Handler.run_bind, ran, Prog.bind_ok, Handler.run_get, modifyCall,
          Handler.run_modify, sipIdentity_callUa_run, callUa_recvRequest_run, Prog.ensure_call,
          Prog.ensure_ret]
        refine ⟨?_, rfl, ⟨fun state => ⟨_, rfl, rfl⟩, fun state error => ⟨_, rfl, rfl⟩⟩⟩
        rw [Prog.stop_call, callOutlook_view, World.control_mapSipConf, World.control_mapCall, same]
        rfl
      · obtain ⟨last, raised, ran, same⟩ := admitInvite_refused app request fields
          (world.mapCall (Call.rememberRequest request)) given accepted
        refine ⟨_, _, .lineRaised, ?_⟩
        simp only [recvRequest, Handler.run_bind, ran, Prog.bind_error]
        exact ⟨same, trivial⟩

theorem callSystem_describes (app : App) :
    callOutlook.Describes (Effect app) (callSystem app) := by
  intro label world idle program entered
  cases label with
  | invite request =>
      simp only [callSystem, Option.ite_none_right_eq_some, Option.some.injEq,
        Bool.and_eq_true, Option.isNone_iff_eq_none] at entered
      obtain ⟨⟨_idle, first⟩, rfl⟩ := entered
      obtain ⟨after, ending, effect, outcome⟩ := receiveInvite_effect app request world
      exact ⟨after, ending, .invite request after ending first effect, outcome⟩
  | raises ua event =>
      simp only [callSystem, Option.ite_none_right_eq_some, Option.some.injEq] at entered
      obtain ⟨answered, rfl⟩ := entered
      obtain ⟨after, ending, effect, outcome⟩ :=
        recvEvent_effect app event ua (world.mapCall (Call.raise ua event))
      exact ⟨after, ending, .raises ua event after ending answered effect, outcome⟩
  | connected value =>
      simp only [callSystem, Option.ite_none_right_eq_some, Option.some.injEq] at entered
      obtain ⟨_, rfl⟩ := entered
      exact ⟨_, _, .connected value, rfl, trivial⟩
  | fires timer =>
      simp only [callSystem, Option.ite_none_right_eq_some, Option.some.injEq,
        Bool.and_eq_true] at entered
      obtain ⟨⟨_idle, armed⟩, rfl⟩ := entered
      obtain ⟨after, ending, effect, outcome⟩ :=
        onNextHopNoAnswer_effect app (world.mapCall (Call.fireTimer timer))
      exact ⟨after, ending, .fires timer after ending armed effect, outcome⟩
  | noAnswer =>
      simp only [callSystem, Option.ite_none_right_eq_some, Option.some.injEq] at entered
      obtain ⟨_, rfl⟩ := entered
      obtain ⟨after, ending, effect, outcome⟩ := onNextHopNoAnswer_effect app world
      exact ⟨after, ending, .noAnswer after ending effect, outcome⟩
  | dispose =>
      simp only [callSystem, Option.ite_none_right_eq_some, Option.some.injEq] at entered
      obtain ⟨_, rfl⟩ := entered
      exact ⟨_, _, .dispose, rfl, trivial⟩

end AsPlatform
