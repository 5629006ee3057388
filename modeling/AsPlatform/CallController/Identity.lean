/-
Whose identity the stack shows while a controller calls into a `UA`.

The identity is one for the whole interpreter.  A controller pins its own around the
trunk INVITE and around each attempt at a hop, and puts back what it found.  Every other
call into a `UA` is made under whatever identity is found: a relayed event, a rejection,
a release of an unrouted call, and the teardown by the no-answer timer.
-/

import AsPlatform.CallController.Attempts
import AsPlatform.CallController.Built
import AsPlatform.CallController.Interpreter

namespace AsPlatform

open Reentrant

def RejectsNow (app : App) (levels : LogLevel → Bool) (event : CCEvent) : Prop :=
  ∃ decision error, app.decide event = .ok decision ∧ decision.action = .reject ∧
    decision.error = some error ∧ Answerable levels decision error

/-- Entered by the label, the controller calls into a `UA` without pinning its identity. -/
def CallsAsFound (app : App) (levels : LogLevel → Bool) (call : Call) : Label → Prop
  | .raises ua event =>
      (call.uaA = some ua ∧
        (call.uaO ≠ none ∨ event.isTry = false ∨ RejectsNow app levels event)) ∨
      (call.uaA ≠ some ua ∧ call.uaO = some ua ∧ call.uaA ≠ none ∧ ¬FailsOver call event)
  | .fires _ => call.uaO ≠ none ∧ call.trunkConnected = false
  | .noAnswer => call.uaO ≠ none ∧ call.trunkConnected = false
  | _ => False

def OwnIdentity (config : AsConfig) : Prop :=
  ∀ frame, frame ∈ config.frames.head? → config.state.sipConf.Shows frame.request.config

instance (config : AsConfig) : Decidable (OwnIdentity config) := by
  unfold OwnIdentity
  infer_instance

/-- A step that calls into a `UA` without pinning is taken under the controller's own
identity. -/
def FoundOwn (servers : Nat → AsInstance) (interpreter : Interpreter) : AsAction → Prop
  | .enter (.call index label) =>
      ∀ controller, interpreter.controllers[index]? = some controller →
        CallsAsFound (servers controller.owner).app interpreter.isEnabledFor controller.call label →
          interpreter.sipConf.Shows controller.call.globalConfig
  | _ => True

/-- Every call into a `UA` is made under the identity of its instance, and a step, with
everything that is entered inside it, puts back the identity it found, also if it raises. -/
structure OwnMessages (servers : Nat → AsInstance) (start : Interpreter)
    (actions : List AsAction) : Prop where
  generated : (asSystem servers).Along (fun _ _ next => OwnIdentity next)
    (Config.initial start) actions
  restored : ∀ before label within inner after,
    (asSystem servers).Passes (Config.initial start) actions before →
      (asSystem servers).step before (.enter label) = some within →
        (asSystem servers).Inside before.frames.length within inner after →
          after.frames.length = before.frames.length →
            after.state.sipConf = before.state.sipConf
  between : ∀ config, (asSystem servers).Passes (Config.initial start) actions config →
    config.idle = true → config.state.sipConf = start.sipConf

/-! ### One controller -/

theorem NoAnswerEffect.called {before after : Control} {ending : CallEnding}
    (effect : NoAnswerEffect before after ending) (routed : before.call.uaO ≠ none)
    (away : before.call.trunkConnected = false) :
    ∃ request clears, ending = .called request clears := by
  cases effect with
  | ignored settled =>
      rcases settled with unrouted | connected
      · exact absurd unrouted routed
      · rw [away] at connected
        cases connected
  | tornDown leg current _ => exact ⟨_, _, rfl⟩

theorem TrunkEffect.called {app : App} {event : CCEvent} {ua : UaRef} {before after : Control}
    {ending : CallEnding} (effect : TrunkEffect app event ua before after ending)
    (asFound : before.call.uaO ≠ none ∨ event.isTry = false ∨
      RejectsNow app before.isEnabledFor event) :
    ∃ request clears, ending = .called request clears := by
  -- unrouted and asked for a decision, the controller calls as found only to reject
  have rejecting : before.call.uaO = none → event.isTry = true →
      RejectsNow app before.isEnabledFor event := by
    intro unrouted first
    rcases asFound with routed | other | rejects
    · exact absurd unrouted routed
    · rw [first] at other
      cases other
    · exact rejects
  cases effect with
  | tornDown _ _ => exact ⟨_, _, rfl⟩
  | relayed leg routed => exact ⟨_, _, rfl⟩
  | hookRaised error unrouted first raised =>
      obtain ⟨decision, _, asked, _⟩ := rejecting unrouted first
      rw [raised] at asked
      cases asked
  | noHop decision unrouted first asked action empty =>
      obtain ⟨chosen, _, chose, rejects, _⟩ := rejecting unrouted first
      rw [asked] at chose
      cases chose
      rw [action] at rejects
      cases rejects
  | attempted decision hop rest after ending unrouted first asked action hops attempt =>
      obtain ⟨chosen, _, chose, rejects, _⟩ := rejecting unrouted first
      rw [asked] at chose
      cases chose
      rw [action] at rejects
      cases rejects
  | rejected decision after ending unrouted first asked action reject =>
      obtain ⟨chosen, error, chose, _, carried, answerable⟩ := rejecting unrouted first
      rw [asked] at chose
      cases chose
      cases reject with
      | unjustified missing =>
          rw [carried] at missing
          cases missing
      | answered _ _ _ => exact ⟨_, _, rfl⟩
      | unanswered other same clash =>
          rw [carried] at same
          cases same
          exact absurd answerable clash

theorem NextHopEffect.called {event : CCEvent} {before after : Control} {ending : CallEnding}
    (effect : NextHopEffect event before after ending) (answered : before.call.uaA ≠ none)
    (kept : ¬FailsOver before.call event) : ∃ request clears, ending = .called request clears := by
  cases effect with
  | failover hop rest after ending failed remaining attempt => exact absurd failed kept
  | relayed after ending _ relay =>
      cases relay with
      | delivered ref _ => exact ⟨_, _, rfl⟩
      | unanswered absent =>
          apply absurd _ answered
          rw [← absent]
          unfold Control.relaying
          split
          · simp
          · split <;> simp

/-- Where the label makes a controller call without pinning, its effect is such a call. -/
theorem Effect.called_of_asFound {app : App} {before after : Control} {label : Label}
    {ending : CallEnding} (effect : Effect app before label after ending)
    (asFound : CallsAsFound app before.isEnabledFor before.call label) :
    ∃ request clears, ending = .called request clears := by
  cases effect with
  | invite request after ending first effect => exact absurd asFound id
  | connected value => exact absurd asFound id
  | dispose => exact absurd asFound id
  | fires timer after ending armed effect => exact effect.called asFound.1 asFound.2
  | noAnswer after ending effect => exact effect.called asFound.1 asFound.2
  | raises ua event after ending answered effect =>
      have raised := Call.toBaseCallController_raise ua event before.call
      cases effect with
      | stale notTrunk notCurrent =>
          rw [Control.call_mapCall, raised] at notTrunk notCurrent
          rcases asFound with ⟨answering, _⟩ | ⟨_, current, _⟩
          · exact absurd answering notTrunk
          · exact absurd current notCurrent
      | trunk after ending answering effect =>
          rw [Control.call_mapCall, raised] at answering
          rcases asFound with ⟨_, kinds⟩ | ⟨notTrunk, _⟩
          · apply effect.called
            rw [Control.call_mapCall, raised]
            exact kinds
          · exact absurd answering notTrunk
      | nextHop after ending notTrunk current effect =>
          rw [Control.call_mapCall, raised] at notTrunk
          rcases asFound with ⟨answering, _⟩ | ⟨_, _, answered, kept⟩
          · exact absurd answering notTrunk
          · apply effect.called
            · rw [Control.call_mapCall, raised]
              exact answered
            · unfold FailsOver
              rw [Control.call_mapCall, Call.trunkConnected_raise, raised]
              exact kept

/-! ### Which calls are pinned -/

/-- Run in this world, the program calls into a `UA` as found if `asFound`, and otherwise
only under the controller's own identity. -/
def RunsAs (asFound : Prop) (world : World) (program : Prog World UaCall PyError Unit) : Prop :=
  ∃ handler before, Built asFound (¬asFound) handler ∧ program = handler before ∧
    before.standing = world.standing

theorem RunsAs.found {asFound : Prop} {world before : World} {handler : Ctl Unit}
    (built : Built True False handler) (calls : asFound)
    (same : before.standing = world.standing) : RunsAs asFound world (handler before) :=
  ⟨handler, before, built.mono (fun _ => calls) False.elim, rfl, same⟩

theorem RunsAs.pinned {asFound : Prop} {world before : World} {handler : Ctl Unit}
    (built : Built False True handler) (pins : ¬asFound)
    (same : before.standing = world.standing) : RunsAs asFound world (handler before) :=
  ⟨handler, before, built.mono False.elim (fun _ => pins), rfl, same⟩

theorem RunsAs.quiet {asFound : Prop} {world before : World} {handler : Ctl Unit}
    (built : Built False False handler) (same : before.standing = world.standing) :
    RunsAs asFound world (handler before) :=
  ⟨handler, before, built.mono False.elim False.elim, rfl, same⟩

theorem RunsAs.congr {asFound other : Prop} {world : World}
    {program : Prog World UaCall PyError Unit} (runs : RunsAs asFound world program)
    (same : asFound ↔ other) : RunsAs other world program := by
  rwa [propext same] at runs

theorem RunsAs.from_standing {asFound : Prop} {world before : World}
    {program : Prog World UaCall PyError Unit} (runs : RunsAs asFound before program)
    (same : before.standing = world.standing) : RunsAs asFound world program := by
  obtain ⟨handler, entered, built, ran, standing⟩ := runs
  exact ⟨handler, entered, built, ran, standing.trans same⟩

theorem standing_mapCall {change : Call → Call} (world : World)
    (config : (change world.toCall).globalConfig = world.globalConfig) :
    (world.mapCall change).standing = world.standing :=
  congrArg (Prod.mk world.sipConf) config

theorem rejectOnTrunk_runsAs (decision : PolicyDecision) (world : World) :
    RunsAs (∃ error, decision.error = some error ∧
      Answerable world.isEnabledFor decision error) world (rejectOnTrunk decision world) := by
  cases carried : decision.error with
  | none =>
      have raises : rejectOnTrunk decision = Handler.raise .assertionError := by
        unfold rejectOnTrunk
        rw [carried]
      rw [raises]
      exact .quiet (.raise _) rfl
  | some error =>
      by_cases answerable : Answerable world.isEnabledFor decision error
      · exact .found (rejectOnTrunk_built trivial decision) ⟨error, rfl, answerable⟩ rfl
      · obtain ⟨last, raised, ran, _⟩ := announceReject_refused decision error world answerable
        have stops : rejectOnTrunk decision world =
            (announceReject decision error >>= fun _ => Handler.raise raised) world := by
          simp only [rejectOnTrunk, carried, Handler.run_bind, ran, Prog.bind_error]
        rw [stops]
        exact .quiet (.bind (announceReject_built decision error) (fun _ => .raise raised)) rfl

theorem originateOutboundLeg_runsAs (app : App) (event : CCEvent) (world : World) :
    RunsAs (RejectsNow app world.isEnabledFor event) world
      (originateOutboundLeg app event world) := by
  cases asked : app.decide event with
  | error error =>
      have raises : originateOutboundLeg app event world =
          (modifyCall Call.askApplication >>= fun _ => Handler.raise error) world := by
        rw [originateOutboundLeg_raised app event world error asked]
        rfl
      rw [raises]
      exact .quiet (.bind (.modifyCall _ (fun _ => rfl)) (fun _ => .raise error)) rfl
  | ok decision =>
      cases action : decision.action with
      | reject =>
          have rejected := rejectOnTrunk_runsAs decision (world.mapCall (Call.decided decision))
          rw [← originateOutboundLeg_reject app event world decision asked action] at rejected
          obtain ⟨handler, before, built, same, standing⟩ := rejected
          refine RunsAs.congr ⟨handler, before, built, same, standing⟩ ?_
          constructor
          · rintro ⟨error, carried, answerable⟩
            exact ⟨decision, error, asked, action, carried, answerable⟩
          · rintro ⟨chosen, error, chose, _, carried, answerable⟩
            rw [asked] at chose
            cases chose
            exact ⟨error, carried, answerable⟩
      | relay =>
          have keeps : ¬RejectsNow app world.isEnabledFor event := by
            rintro ⟨chosen, _, chose, rejects, _⟩
            rw [asked] at chose
            cases chose
            rw [action] at rejects
            cases rejects
          cases hops : decision.nextHops with
          | nil =>
              rw [originateOutboundLeg_noHop app event world decision asked action hops]
              exact ⟨Handler.raise _, world.mapCall (Call.relaying decision []), .raise _, rfl,
                rfl⟩
          | cons hop rest =>
              rw [originateOutboundLeg_attempt app event world decision hop rest asked action
                hops]
              exact .pinned (originateTowards_built trivial app hop) keeps rfl

theorem relayFromTrunk_runsAs (app : App) (event : CCEvent) (world : World) :
    RunsAs (world.uaO ≠ none ∨ event.isTry = false ∨ RejectsNow app world.isEnabledFor event)
      world (relayFromTrunk app event world) := by
  cases current : world.uaO with
  | some leg =>
      have relays : relayFromTrunk app event world =
          (record LogDirection.inbound legTrunk (describeEvent event).1
            ((describeEvent event).2 ++ " on the trunk leg") world.trunkPeer ∅ >>=
              fun _ => callUa (.recvEvent leg event)) world := by
        simp only [relayFromTrunk, Handler.run_bind, Handler.run_get, Prog.bind_ok, current]
      rw [relays]
      exact .found (.bind (record_built _ _ _ _ _ _) (fun _ => callUa_built trivial _))
        (Or.inl (by simp)) rfl
  | none =>
      cases first : event.isTry with
      | false =>
          have releases : relayFromTrunk app event world = giveTrunk .disconnect world := by
            simp [relayFromTrunk, current, first]
          rw [releases]
          exact .found (giveTrunk_built trivial _) (Or.inr (Or.inl rfl)) rfl
      | true =>
          have asks : relayFromTrunk app event world = originateOutboundLeg app event world := by
            simp [relayFromTrunk, current, first]
          rw [asks]
          exact (originateOutboundLeg_runsAs app event world).congr (by simp)

theorem relayFromNextHop_runsAs (app : App) (event : CCEvent) (world : World) :
    RunsAs (world.uaA ≠ none ∧ ¬FailsOver world.toCall event) world
      (relayFromNextHop app event world) := by
  by_cases failed : FailsOver world.toCall event
  · obtain ⟨terminates, away, remain⟩ := failed
    obtain ⟨hop, rest, remaining⟩ := List.exists_cons_of_ne_nil remain
    have fails : relayFromNextHop app event world =
        (originateTowards app hop >>= fun _ => reportFailover event)
          (world.failedOver app hop rest) :=
      relayFromNextHop_failover app event world hop rest terminates away remaining
    rw [fails]
    exact .pinned (.bind (originateTowards_built trivial app hop)
      (fun _ => reportFailover_built event)) (fun both => both.2 ⟨terminates, away, remain⟩) rfl
  · rw [relayFromNextHop_kept app event world (fun terminates away => by
      by_contra remain
      exact failed ⟨terminates, away, remain⟩)]
    generalize relayed : (if event.isAnswer = true then world.mapCall Call.cancelNoAnswerTimer
      else world) = before
    have same : before.standing = world.standing ∧ before.uaA = world.uaA := by
      rw [← relayed]
      split
      · exact ⟨standing_mapCall world (by simp), by simp⟩
      · exact ⟨rfl, rfl⟩
    cases answering : world.uaA with
    | some ref => exact .found (relayToTrunk_built trivial event) ⟨by simp, failed⟩ same.1
    | none =>
        -- without a trunk leg the event is only recorded
        have only : relayToTrunk event before =
            (record LogDirection.inbound legNextHop (describeEvent event).1
              ((describeEvent event).2 ++ " on the next-hop leg")
              (nextHopPeer before.toBaseCallController) ∅ >>= fun _ =>
                if event.terminates then do
                  cancelNoAnswerTimer
                  recordDisposition event
                  reportRelayed event
                else reportRelayed event) before := by
          rw [answering] at same
          cases ends : event.terminates <;>
            simp [relayToTrunk, same.2, ends]
        rw [only]
        refine .quiet (.bind (record_built _ _ _ _ _ _) (fun _ => ?_)) same.1
        split
        · exact .bind cancelNoAnswerTimer_built (fun _ =>
            .bind (recordDisposition_built event) (fun _ => reportRelayed_built event))
        · exact reportRelayed_built event

theorem recvEvent_runsAs (app : App) (event : CCEvent) (ua : UaRef) (world : World) :
    RunsAs (CallsAsFound app world.isEnabledFor world.toCall (.raises ua event)) world
      (recvEvent app event ua (world.mapCall (Call.raise ua event))) := by
  have raised := Call.toBaseCallController_raise ua event world.toCall
  have same : (world.mapCall (Call.raise ua event)).standing = world.standing :=
    standing_mapCall world (congrArg BaseCallController.globalConfig raised)
  by_cases answering : world.uaA = some ua
  · have relays : recvEvent app event ua (world.mapCall (Call.raise ua event)) =
        relayFromTrunk app event (world.mapCall (Call.raise ua event)) := by
      simp [recvEvent, answering]
    rw [relays]
    refine ((relayFromTrunk_runsAs app event _).from_standing same).congr ?_
    unfold CallsAsFound
    rw [World.toCall_mapCall, raised, World.isEnabledFor_mapCall]
    simp [answering]
  · by_cases current : world.uaO = some ua
    · have relays : recvEvent app event ua (world.mapCall (Call.raise ua event)) =
          relayFromNextHop app event (world.mapCall (Call.raise ua event)) := by
        simp [recvEvent, answering, current]
      rw [relays]
      refine ((relayFromNextHop_runsAs app event _).from_standing same).congr ?_
      unfold CallsAsFound FailsOver
      rw [World.toCall_mapCall, Call.trunkConnected_raise, raised]
      simp [answering, current]
    · have stale : recvEvent app event ua (world.mapCall (Call.raise ua event)) =
          (pure () : Ctl Unit) (world.mapCall (Call.raise ua event)) := by
        simp [recvEvent, answering, current]
      rw [stale]
      exact .quiet (.pure ()) same

theorem onNextHopNoAnswer_runsAs (app : App) (world : World) :
    RunsAs (world.uaO ≠ none ∧ world.trunkConnected = false) world
      (onNextHopNoAnswer app world) := by
  by_cases tearsDown : world.uaO ≠ none ∧ world.trunkConnected = false
  · exact .found (onNextHopNoAnswer_built trivial app) tearsDown rfl
  · have ignores : onNextHopNoAnswer app world = (pure () : Ctl Unit) world := by
      cases current : world.uaO with
      | none => simp [onNextHopNoAnswer, current]
      | some leg =>
          have connected : world.trunkConnected = true := by
            by_contra away
            exact tearsDown ⟨by simp [current], by simpa using away⟩
          simp [onNextHopNoAnswer, current, connected]
    rw [ignores]
    exact .quiet (.pure ()) rfl

/-- Entered by any label but the INVITE, which no call map gives twice. -/
theorem handler_runsAs (app : App) {label : Label} (noInvite : label.isInvite = false)
    (world : World) :
    RunsAs (CallsAsFound app world.isEnabledFor world.toCall label) world
      (label.handler app (world.mapCall label.opening)) := by
  cases label with
  | invite request => cases noInvite
  | raises ua event => exact recvEvent_runsAs app event ua world
  | connected value =>
      exact .quiet (.modifyCall _ (fun call => congrArg BaseCallController.globalConfig
        (Call.toBaseCallController_mapUa .trunk _ call))) rfl
  | fires timer =>
      have fired := onNextHopNoAnswer_runsAs app (world.mapCall (Call.fireTimer timer))
      exact (fired.from_standing rfl).congr Iff.rfl
  | noAnswer => exact onNextHopNoAnswer_runsAs app world
  | dispose => exact .quiet cancelNoAnswerTimer_built rfl

/-! ### The interpreter -/

def Interpreter.standing (interpreter : Interpreter) : SipConf × List GlobalConfig :=
  (interpreter.sipConf, interpreter.controllers.map fun controller => controller.call.globalConfig)

def Permitted (asked : Prop) (view : SipConf × List GlobalConfig) (request : Outgoing) : Prop :=
  asked → view.1.Shows request.config

theorem standing_setWorld (index : Nat) (interpreter : Interpreter) (world : World) :
    (interpreter.setWorld index world).standing =
      (world.standing.1, interpreter.standing.2.set index world.standing.2) := by
  refine congrArg (Prod.mk world.sipConf) ?_
  apply List.ext_getElem?
  intro position
  change ((interpreter.controllers.modify index _).map _)[position]? = _
  rw [List.getElem?_map, List.getElem?_modify, List.getElem?_set, Interpreter.standing,
    List.getElem?_map, List.length_map]
  by_cases same : index = position
  · subst same
    rw [if_pos rfl]
    cases found : interpreter.controllers[index]? with
    | none =>
        rw [List.getElem?_eq_none_iff] at found
        rw [if_neg (Nat.not_lt.mpr found)]
        rfl
    | some controller =>
        obtain ⟨bound, _⟩ := List.getElem?_eq_some_iff.mp found
        rw [if_pos bound]
        simp [World.standing]
  · rw [if_neg same]
    cases interpreter.controllers[position]? with
    | none => rfl
    | some controller => simp [same]

theorem standing_world (index : Nat) (interpreter : Interpreter) :
    (interpreter.world index).standing =
      (interpreter.standing.1, (interpreter.standing.2[index]?).getD {}) := by
  refine congrArg (Prod.mk interpreter.sipConf) ?_
  rw [Interpreter.standing, List.getElem?_map]
  change (interpreter.callOf index).globalConfig = _
  rw [Interpreter.callOf]
  cases interpreter.controllers[index]? <;> rfl

theorem embed_fits {asked : Prop} {index : Nat} {interpreter : Interpreter}
    (inside : index < interpreter.controllers.length) {handler : Ctl Unit}
    {asFound pins : Prop} (built : Built asFound pins handler)
    (own : asFound → asked →
      interpreter.sipConf.Shows (interpreter.callOf index).globalConfig)
    {before : World} (same : before.standing = (interpreter.world index).standing) :
    ((handler before).embed (place index) interpreter).Fits Interpreter.standing
      (Permitted asked) interpreter.standing := by
  have keeps : (handler before).Keeps World.standing
      (fun world _ => asked → world.sipConf.Shows world.globalConfig)
      (interpreter.world index).standing := by
    refine built.keeps (fun _ world request shows _ => shows) ?_ same
    intro found world request standing wanted
    obtain ⟨conf, config⟩ := Prod.mk.inj standing
    rw [conf, config]
    exact own found wanted
  have embedded : ((handler before).embed (place index) interpreter).Fits Interpreter.standing
      (Permitted asked) ((interpreter.world index).standing.1,
        interpreter.standing.2.set index (interpreter.world index).standing.2) := by
    refine keeps.embed (fun view : SipConf × List GlobalConfig => index < view.2.length)
      (fun view part => (part.1, view.2.set index part.2))
      (fun view => (view.1, (view.2[index]?).getD {})) ?_ ?_ ?_ ?_ ?_ ?_ interpreter ?_
    · exact standing_setWorld index
    · exact standing_world index
    · intro view part has
      simp [has]
    · intro view part has
      simpa using has
    · intro view first second
      simp
    · intro whole part request has allowed wanted
      exact allowed wanted
    · simpa [Interpreter.standing] using inside
  have unchanged : ((interpreter.world index).standing.1,
      interpreter.standing.2.set index (interpreter.world index).standing.2) =
        interpreter.standing := by
    have has : index < interpreter.standing.2.length := by
      simpa [Interpreter.standing] using inside
    rw [standing_world]
    simp [has]
  rwa [unchanged] at embedded

/-- The program that any label starts puts back the identity; only a new controller,
which comes when no handler is at work, makes a difference to the view. -/
theorem enter_fits {asked : Prop} {servers : Nat → AsInstance} {interpreter : Interpreter}
    {label : AsLabel} {idle : Bool} {program : Prog Interpreter Outgoing PyError Unit}
    (entered : (asSystem servers).enter label interpreter idle = some program)
    (own : asked → FoundOwn servers interpreter (.enter label)) :
    ∃ entry, program.Fits Interpreter.standing (Permitted asked) entry ∧
      entry.1 = interpreter.sipConf ∧ (idle = false → entry = interpreter.standing) := by
  cases label with
  | ruleHit ruleId =>
      cases entered
      exact ⟨_, rfl, rfl, fun _ => rfl⟩
  | appError code =>
      cases entered
      exact ⟨_, rfl, rfl, fun _ => rfl⟩
  | call index label =>
      obtain ⟨controller, found, noInvite, _, rfl⟩ := asSystem_enter_call.mp entered
      obtain ⟨handler, before, built, ran, same⟩ :=
        handler_runsAs (servers controller.owner).app noInvite (interpreter.world index)
      obtain ⟨inside, _⟩ := List.getElem?_eq_some_iff.mp found
      rw [ran]
      refine ⟨interpreter.standing, embed_fits inside built ?_ same, rfl, fun _ => rfl⟩
      intro calls wanted
      have callIs := Interpreter.callOf_of_getElem? found
      rw [callIs]
      apply own wanted controller found
      rw [← callIs]
      exact calls
  | request owner request =>
      simp only [asSystem, Option.ite_none_right_eq_some, Option.some.injEq] at entered
      obtain ⟨rfl, rfl⟩ := entered
      have notBusy : ∀ {entry : SipConf × List GlobalConfig},
          true = false → entry = interpreter.standing := by
        intro entry busy
        cases busy
      cases refused : (servers owner).refuses request with
      | true =>
          rw [AsInstance.recvRequest_refused refused]
          exact ⟨_, rfl, rfl, notBusy⟩
      | false =>
          cases answered : (servers owner).answerTo request with
          | some answer =>
              rw [AsInstance.recvRequest_declined refused answered]
              exact ⟨_, rfl, rfl, notBusy⟩
          | none =>
              rw [AsInstance.answerTo_eq_none_iff] at answered
              rw [AsInstance.recvRequest_admitted answered]
              have built : Built False True (receiveInvite (servers owner).app
                request.toRequest) := receiveInvite_built trivial _ _
              refine ⟨_, embed_fits ?_ built False.elim rfl, rfl, notBusy⟩
              simp [Interpreter.withController, Interpreter.appendController]

/-! ### Runs -/

/-- Each suspended handler finds, when its call comes back, what it left; the outermost
one was entered under the identity `first`. -/
def Standing (asked : Prop) (first : SipConf) (config : AsConfig) : Prop :=
  ∃ base, base.1 = first ∧
    Stacked Interpreter.standing (Permitted asked) base config.state.standing config.frames

namespace Standing

variable {asked : Prop} {first : SipConf} {servers : Nat → AsInstance} {config next : AsConfig}
  {action : AsAction}

theorem initial (start : Interpreter) : Standing asked start.sipConf (Config.initial start) :=
  ⟨start.standing, rfl, rfl⟩

theorem step (stands : Standing asked first config)
    (own : asked → FoundOwn servers config.state action)
    (taken : (asSystem servers).step config action = some next) : Standing asked first next := by
  obtain ⟨base, initially, stacked⟩ := stands
  cases action with
  | enter label =>
      obtain ⟨program, entered, rfl⟩ := System.step_enter.mp taken
      obtain ⟨entry, fits, conf, same⟩ := enter_fits entered own
      cases idle : config.idle with
      | true =>
          rw [Config.idle, List.isEmpty_iff] at idle
          rw [idle] at stacked ⊢
          refine ⟨entry, ?_, settle_stacked _ fits rfl⟩
          rw [conf, ← initially]
          exact congrArg Prod.fst stacked
      | false =>
          rw [same idle] at fits
          exact ⟨base, initially, settle_stacked _ fits stacked⟩
  | comeBack =>
      obtain ⟨frame, older, suspended, rfl⟩ := System.step_comeBack.mp taken
      rw [suspended] at stacked
      obtain ⟨_, _, entry, resumes, rest⟩ := stacked
      exact ⟨base, initially, settle_stacked _ (resumes config.state (.ok ()) rfl) rest⟩

theorem conf_of_idle (stands : Standing asked first config) (idle : config.idle = true) :
    config.state.sipConf = first := by
  obtain ⟨base, initially, stacked⟩ := stands
  rw [Config.idle, List.isEmpty_iff] at idle
  rw [idle] at stacked
  rw [← initially]
  exact congrArg Prod.fst stacked

theorem ownIdentity (stands : Standing True first config) : OwnIdentity config := by
  obtain ⟨base, _, stacked⟩ := stands
  intro frame innermost
  cases suspended : config.frames with
  | nil =>
      rw [suspended] at innermost
      cases innermost
  | cons newest frames =>
      rw [suspended] at innermost stacked
      cases innermost
      exact stacked.1 trivial

theorem passes (stands : Standing asked first config) :
    ∀ frame, frame ∈ config.frames → Prog.Passes frame.resume := by
  obtain ⟨_, _, stacked⟩ := stands
  exact stacked.passes

end Standing

/-- A call that is made as found is made under the identity of the entered state. -/
theorem foundOwn_of_ownIdentity {servers : Nat → AsInstance} {config next : AsConfig}
    {action : AsAction} (taken : (asSystem servers).step config action = some next)
    (own : OwnIdentity next) : FoundOwn servers config.state action := by
  cases action with
  | comeBack => trivial
  | enter label =>
      cases label with
      | request owner request => trivial
      | ruleHit ruleId => trivial
      | appError code => trivial
      | call index label =>
          intro controller found calls
          obtain ⟨program, entered, rfl⟩ := System.step_enter.mp taken
          obtain ⟨other, here, noInvite, enabled, rfl⟩ := asSystem_enter_call.mp entered
          rw [found] at here
          cases here
          have callIs := Interpreter.callOf_of_getElem? found
          rw [← callIs] at calls ⊢
          obtain ⟨handler, before, built, ran, same⟩ :=
            handler_runsAs (servers controller.owner).app noInvite (config.state.world index)
          have keeps : (handler before).Keeps World.standing
              (fun world _ => world.standing = (config.state.world index).standing)
              (config.state.world index).standing :=
            built.keeps (fun pins => absurd calls pins) (fun _ world request same => same) same
          obtain ⟨after, ending, effect, outcome⟩ :=
            callSystem_describes (servers controller.owner).app label (config.state.world index)
              config.idle _ (by rw [callSystem_enter, if_pos enabled])
          obtain ⟨request, clears, rfl⟩ := effect.called_of_asFound calls
          rw [ran] at outcome own
          cases stops : handler before with
          | ret state result =>
              rw [stops] at outcome
              cases result <;> exact absurd outcome.ends id
          | call state asked resume =>
              rw [stops] at keeps own
              obtain ⟨conf, same⟩ := Prod.mk.inj keeps.1
              change OwnIdentity (settle config.escaped (.call _ _ _) config.frames) at own
              rw [settle_call] at own
              have shown := own _ rfl
              change state.sipConf.Shows state.globalConfig at shown
              rw [conf, same] at shown
              exact shown

theorem standing_of_passes {servers : Nat → AsInstance} {start : Interpreter}
    {actions : List AsAction} {config : AsConfig}
    (passed : (asSystem servers).Passes (Config.initial start) actions config) :
    Standing False start.sipConf config := by
  obtain ⟨earlier, later, _, ran⟩ := passed
  refine System.Reaches.invariant _ (Standing.initial start) ?_ (System.Reaches.of_run _ ran)
  exact fun _ _ _ stands _ taken => stands.step False.elim taken

/-- The identity is put back in any run. -/
theorem restored_of_step {servers : Nat → AsInstance} {start : Interpreter}
    {before within after : AsConfig} {label : AsLabel} {inner : List AsAction}
    (stands : Standing False start.sipConf before)
    (taken : (asSystem servers).step before (.enter label) = some within)
    (inside : (asSystem servers).Inside before.frames.length within inner after)
    (ended : after.frames.length = before.frames.length) :
    after.state.sipConf = before.state.sipConf := by
  obtain ⟨program, entered, rfl⟩ := System.step_enter.mp taken
  have keeps : ∀ {label : AsLabel} {interpreter : Interpreter} {idle : Bool}
      {program : Prog Interpreter Outgoing PyError Unit},
      (asSystem servers).enter label interpreter idle = some program →
        ∃ entry, program.Fits Interpreter.standing (Permitted False) entry ∧
          entry.1 = interpreter.sipConf ∧ (idle = false → entry = interpreter.standing) :=
    fun entered => enter_fits entered False.elim
  obtain ⟨entry, fits, conf, _⟩ := keeps entered
  have nested : (asSystem servers).NestedKeep Interpreter.standing (Permitted False) := by
    intro label interpreter program entered
    obtain ⟨entry, fits, _, same⟩ := keeps entered
    rwa [same rfl] at fits
  have bottom : Stacked Interpreter.standing (Permitted False) entry entry
      ([] : List (Frame Interpreter Outgoing PyError)) := rfl
  rcases settle_above before.escaped fits bottom stands.passes with
    ⟨left, split, stacked⟩ | fewer
  · rw [← conf, ← System.restored_of_inside nested stands.passes split stacked inside ended]
    rfl
  · rw [List.nil_append] at fewer
    cases inner with
    | nil =>
        rw [show after = _ from inside] at ended
        omega
    | cons action rest => exact absurd inside.1 (by omega)

/-- Each instance generates its messages under its own identity exactly if every call it
makes into a `UA` without pinning is made when the identity is already its own.  What a
step found is put back in either case. -/
theorem ownMessages_iff (servers : Nat → AsInstance) (start : Interpreter)
    (actions : List AsAction) :
    OwnMessages servers start actions ↔
      (asSystem servers).Along (fun config action _ => FoundOwn servers config.state action)
        (Config.initial start) actions := by
  have generated : (asSystem servers).Along (fun _ _ next => OwnIdentity next)
      (Config.initial start) actions ↔
        (asSystem servers).Along (fun config action _ => FoundOwn servers config.state action)
          (Config.initial start) actions := by
    apply System.along_iff_along (Standing True start.sipConf) (Standing.initial start)
    · exact fun config action next stands own taken => stands.step (fun _ => own) taken
    · intro config action next stands taken
      constructor
      · exact foundOwn_of_ownIdentity taken
      · exact fun own => (stands.step (fun _ => own) taken).ownIdentity
  constructor
  · exact fun own => generated.mp own.generated
  · intro found
    refine ⟨generated.mpr found, ?_, ?_⟩
    · intro before label within inner after passed taken inside ended
      exact restored_of_step (standing_of_passes passed) taken inside ended
    · intro config passed idle
      exact (standing_of_passes passed).conf_of_idle idle

/-- The leg of the first instance rings, and the ringing is relayed to its trunk under the
identity of the second. -/
theorem not_ownMessages :
    ¬OwnMessages sampleServer (sampleInterpreter 4)
      (sampleAdmission ++ [.enter (.call 0 (.raises (.leg 0) (.ring none)))]) := by
  intro own
  have generated := own.generated
  revert generated
  decide

end AsPlatform
