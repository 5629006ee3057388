/-
What a step tells the operator.

A step that starts no attempt sets no peer state, and tells of no attempt and no failed hop.
An attempt tells all it has to tell before the INVITE is given to its leg: that the hop
before it is unreachable, if there is one, and that its own hop is reachable.  What a handler
has left to do when its call comes back changes no peer state.
-/

import AsPlatform.CallController.FailoverWalk
import AsPlatform.CallController.Written

namespace AsPlatform

open Reentrant

def reaches (app : App) (hop : NextHop) (name : String) (status : PeerStatus) : Prop :=
  name = app.peerStatusKey hop ∧ status = .reachable

/-! ### Attempts -/

theorem originateTowards_opens (app : App) (hop : NextHop) (world : World) :
    (originateTowards app hop world).Opens
      (Told.Grows (reaches app hop) (TraceEvent.Attempts hop))
      (Told.Grows noPeers TraceEvent.Plain) World.told world.told := by
  have reached : reaches app hop (app.peerStatusKey hop) .reachable := ⟨rfl, rfl⟩
  have writes := originateTowards_writes app reached (fun _ => id) world
  by_cases attemptable : Attemptable world.isEnabledFor world.policy world.pendingEvent
  · obtain ⟨calledNumber, called⟩ := attemptable.called
    obtain ⟨pending, waiting⟩ := pending_isSome_of_called called
    rw [originateTowards_run app hop calledNumber pending world waiting called
      attemptable.accepted] at writes ⊢
    exact ⟨writes.1, fun back _ => Told.Grows.refl back.told⟩
  · obtain ⟨last, error, raised, _⟩ := originateTowards_refused app hop world attemptable
    rw [raised] at writes ⊢
    exact writes

/-- The attempt of a failover is reported when its call comes back. -/
theorem failover_opens (app : App) (event : CCEvent) (hop : NextHop) (world : World) :
    ((originateTowards app hop world).bind (fun middle _ => reportFailover event middle)).Opens
      (Told.Grows (reaches app hop) (TraceEvent.Attempts hop))
      (Told.Grows noPeers TraceEvent.Inbound) World.told world.told := by
  have opens := originateTowards_opens app hop world
  by_cases attemptable : Attemptable world.isEnabledFor world.policy world.pendingEvent
  · obtain ⟨calledNumber, called⟩ := attemptable.called
    obtain ⟨pending, waiting⟩ := pending_isSome_of_called called
    rw [originateTowards_run app hop calledNumber pending world waiting called
      attemptable.accepted] at opens ⊢
    refine ⟨opens.1, ?_⟩
    intro back result
    cases result with
    | error error => exact Told.Grows.refl back.told
    | ok value =>
        exact reportFailover_writes (fun _ => id) event
          (back.mapSipConf (SipConf.putBack world.sipConf))
  · obtain ⟨last, error, raised, _⟩ := originateTowards_refused app hop world attemptable
    rw [raised] at opens ⊢
    exact opens

/-! ### Entering -/

theorem originates_raise (app : App) (ua : UaRef) (event : CCEvent) (call : Call) :
    Originates app (call.raise ua event) (.enter (.raises ua event)) ↔
      Originates app call (.enter (.raises ua event)) := by
  simp [Originates, FailsOver]

theorem relayFromTrunk_quiet {app : App} {event : CCEvent} {ua : UaRef} {world : World}
    (answering : world.uaA = some ua)
    (quiet : ¬Originates app world.toCall (.enter (.raises ua event))) :
    (relayFromTrunk app event world).Moves (Told.Grows noPeers TraceEvent.Plain) World.told
      world.told := by
  have told : ∀ event : TraceEvent, event.Plain → event.Plain := fun _ => id
  cases current : world.uaO with
  | some leg =>
      have relayed : relayFromTrunk app event world =
          (do
            record LogDirection.inbound legTrunk (describeEvent event).1
              ((describeEvent event).2 ++ " on the trunk leg") world.trunkPeer ∅
            callUa (.recvEvent leg event)) world := by
        simp only [relayFromTrunk, Handler.run_bind, Handler.run_get, Prog.bind_ok, current]
      rw [relayed]
      exact writes_bind (record_writes fun _ => TraceEvent.plain_inbound _ _ _ _ _)
        (fun _ => callUa_writes _) world
  | none =>
      by_cases first : event.isTry = true
      · have asked : relayFromTrunk app event world = originateOutboundLeg app event world := by
          simp [relayFromTrunk, current, first]
        rw [asked]
        cases decided : app.decide event with
        | error error =>
            rw [originateOutboundLeg_raised app event world error decided]
            exact Told.Grows.refl world.told
        | ok decision =>
            cases action : decision.action with
            | reject =>
                rw [originateOutboundLeg_reject app event world decision decided action]
                exact rejectOnTrunk_writes told decision (world.mapCall (Call.decided decision))
            | relay =>
                cases hops : decision.nextHops with
                | nil =>
                    rw [originateOutboundLeg_noHop app event world decision decided action hops]
                    exact Told.Grows.refl world.told
                | cons hop rest =>
                    apply absurd _ quiet
                    refine Or.inl ⟨answering, current, first, decision, decided, action, ?_⟩
                    rw [hops]
                    exact List.cons_ne_nil hop rest
      · have tornDown : relayFromTrunk app event world = giveTrunk .disconnect world := by
          simp [relayFromTrunk, current, first]
        rw [tornDown]
        exact giveTrunk_writes _ world

theorem relayFromNextHop_quiet {app : App} {event : CCEvent} {world : World}
    (kept : ¬FailsOver world.toCall event) :
    (relayFromNextHop app event world).Moves (Told.Grows noPeers TraceEvent.Plain) World.told
      world.told := by
  rw [relayFromNextHop_kept app event world]
  · cases event.isAnswer with
    | false => exact relayToTrunk_writes (fun _ => id) event world
    | true => exact relayToTrunk_writes (fun _ => id) event (world.mapCall Call.cancelNoAnswerTimer)
  · intro terminates away
    by_contra further
    exact kept ⟨terminates, away, further⟩

theorem recvEvent_quiet {app : App} {event : CCEvent} {ua : UaRef} (world : World)
    (quiet : ¬Originates app world.toCall (.enter (.raises ua event))) :
    (recvEvent app event ua world).Moves (Told.Grows noPeers TraceEvent.Plain) World.told
      world.told := by
  by_cases answering : world.uaA = some ua
  · rw [recvEvent_trunk app event ua world answering]
    exact relayFromTrunk_quiet answering quiet
  · by_cases current : world.uaO = some ua
    · rw [recvEvent_nextHop app event ua world answering current]
      exact relayFromNextHop_quiet (fun failed => quiet (Or.inr ⟨current, failed⟩))
    · have stale : recvEvent app event ua world = .ret world (.ok ()) := by
        simp [recvEvent, answering, current]
      rw [stale]
      exact Told.Grows.refl world.told

/-- Where no attempt is started, and the INVITE has been handed in, no peer state is set and
no failed hop is told of. -/
theorem enter_quiet {app : App} {label : Label} {world : World} {idle : Bool}
    {program : Prog World UaCall PyError Unit}
    (quiet : ¬Originates app world.toCall (.enter label))
    (notInvite : ∀ request, label ≠ .invite request)
    (entered : (callSystem app).enter label world idle = some program) :
    program.Moves (Told.Grows noPeers TraceEvent.Plain) World.told world.told := by
  rw [callSystem_enter] at entered
  obtain ⟨_, isProgram⟩ := Option.ite_none_right_eq_some.mp entered
  cases isProgram
  cases label with
  | invite request => exact absurd rfl (notInvite request)
  | connected value => exact modifyCall_writes _ _
  | fires timer => exact onNextHopNoAnswer_writes app (world.mapCall (Call.fireTimer timer))
  | noAnswer => exact onNextHopNoAnswer_writes app world
  | dispose => exact cancelNoAnswerTimer_writes world
  | raises ua event =>
      exact recvEvent_quiet (world.mapCall (Call.raise ua event)) (fun starts => quiet
        ((originates_raise app ua event world.toCall).mp starts))

def failedKey (app : App) (servingHop : Option NextHop) : String :=
  (servingHop.map app.peerStatusKey).getD unknownHopKey

def Told.lose (key : String) (told : Told) : Told :=
  { told with peerStatus := told.peerStatus.insert key .unreachable }

/-- A failover: the failed hop is unreachable before the next one is tried. -/
theorem enter_failover {app : App} {ua : UaRef} {event : CCEvent} {world : World} {idle : Bool}
    {program : Prog World UaCall PyError Unit} (notTrunk : world.uaA ≠ some ua)
    (current : world.uaO = some ua) (failed : FailsOver world.toCall event) {hop : NextHop}
    {rest : List NextHop} (remaining : world.failoverHops = hop :: rest)
    (entered : (callSystem app).enter (.raises ua event) world idle = some program) :
    program.Opens (Told.Grows (reaches app hop) (TraceEvent.Attempts hop))
      (Told.Grows noPeers TraceEvent.Inbound) World.told
      (world.told.lose (failedKey app world.servingHop)) := by
  rw [callSystem_enter] at entered
  obtain ⟨_, isProgram⟩ := Option.ite_none_right_eq_some.mp entered
  cases isProgram
  have told : ((world.mapCall (Call.raise ua event)).failedOver app hop rest).told =
      world.told.lose (failedKey app world.servingHop) := by
    have serving : (world.mapCall (Call.raise ua event)).servingHop = world.servingHop :=
      congrArg BaseCallController.servingHop (Call.toBaseCallController_raise ua event _)
    rw [failedKey, ← serving]
    rfl
  have opens := failover_opens app event hop
    ((world.mapCall (Call.raise ua event)).failedOver app hop rest)
  rw [told, ← recvEvent_raise_failover notTrunk current failed remaining] at opens
  exact opens

/-- The first attempt. -/
theorem enter_first {app : App} {ua : UaRef} {event : CCEvent} {world : World} {idle : Bool}
    {program : Prog World UaCall PyError Unit} {decision : PolicyDecision} {hop : NextHop}
    {rest : List NextHop} (answering : world.uaA = some ua) (unrouted : world.uaO = none)
    (first : event.isTry = true) (asked : app.decide event = .ok decision)
    (action : decision.action = .relay) (hops : decision.nextHops = hop :: rest)
    (entered : (callSystem app).enter (.raises ua event) world idle = some program) :
    program.Opens (Told.Grows (reaches app hop) (TraceEvent.Attempts hop))
      (Told.Grows noPeers TraceEvent.Plain) World.told world.told := by
  rw [callSystem_enter] at entered
  obtain ⟨_, isProgram⟩ := Option.ite_none_right_eq_some.mp entered
  cases isProgram
  have opens := originateTowards_opens app hop
    ((world.mapCall (Call.raise ua event)).mapCall (Call.relaying decision rest))
  rw [← recvEvent_raise_first answering unrouted first asked action hops] at opens
  exact opens

/-! ### Steps -/

/-- What the suspended handlers have left to do sets no peer state, and only records such
events. -/
def Resting (events : TraceEvent → Prop) (config : CallConfig) : Prop :=
  ∀ frame, frame ∈ config.frames → frame.Moves (Told.Grows noPeers events) World.told

theorem Resting.mono {events moreEvents : TraceEvent → Prop} {config : CallConfig}
    (resting : Resting events config) (weaker : ∀ event, events event → moreEvents event) :
    Resting moreEvents config := by
  intro frame member
  apply (resting frame member).mono
  intro before after grows
  exact grows.mono (fun _ _ => id) weaker

def Told.Then (first second : Told → Told → Prop) (before after : Told) : Prop :=
  ∃ middle, first before middle ∧ second middle after

theorem settle_told {events laterEvents : TraceEvent → Prop} {now : Told → Told → Prop}
    {config : CallConfig} (resting : Resting events config)
    (weaker : ∀ event, events event → laterEvents event)
    {program : Prog World UaCall PyError Unit} {before : Told}
    (opens : program.Opens now (Told.Grows noPeers laterEvents) World.told before)
    {frames : List (Frame World UaCall PyError)}
    (under : ∀ frame, frame ∈ frames → frame ∈ config.frames) {next : CallConfig}
    (settled : settle config.escaped program frames = next) :
    Told.Then now (Told.Grows noPeers events) before next.state.told ∧
      Resting laterEvents next := by
  rw [← settled]
  apply settle_opens Told.Grows.refl (fun _ _ _ => Told.Grows.trans) _ _ opens
  · exact fun frame member => resting frame (under frame member)
  · exact fun _ _ grows => grows.mono (fun _ _ => id) weaker

inductive ToldStep (app : App) (events : TraceEvent → Prop) (config next : CallConfig) :
    CallAction → Prop where
  | quiet (action : CallAction) (still : ¬Originates app config.state.toCall action)
      (invited : ∀ request, action ≠ .enter (.invite request))
      (told : config.state.told.Grows noPeers events next.state.told)
      (resting : Resting events next) : ToldStep app events config next action
  | invite (request : Request) (fresh : config.state.trunkRequest = none)
      (told : config.state.told.Then (Told.Records TraceEvent.Inbound)
        (Told.Grows noPeers events) next.state.told)
      (resting : Resting events next) : ToldStep app events config next (.enter (.invite request))
  | first (ua : UaRef) (event : CCEvent) (hop : NextHop) (unrouted : config.state.uaO = none)
      (starts : Originates app config.state.toCall (.enter (.raises ua event)))
      (told : config.state.told.Then (Told.Grows (reaches app hop) (TraceEvent.Attempts hop))
        (Told.Grows noPeers events) next.state.told)
      (resting : Resting events next) : ToldStep app events config next (.enter (.raises ua event))
  | failover (ua : UaRef) (event : CCEvent) (hop : NextHop) (rest : List NextHop)
      (current : config.state.uaO = some ua) (failed : FailsOver config.state.toCall event)
      (remaining : config.state.failoverHops = hop :: rest)
      (told : (config.state.told.lose (failedKey app config.state.servingHop)).Then
        (Told.Grows (reaches app hop) (TraceEvent.Attempts hop)) (Told.Grows noPeers events)
        next.state.told)
      (resting : Resting (fun event => events event ∨ event.Inbound) next) :
      ToldStep app events config next (.enter (.raises ua event))

theorem step_told {app : App} {events : TraceEvent → Prop} {config next : CallConfig}
    {action : CallAction} (plain : ∀ event : TraceEvent, event.Plain → events event)
    (shape : config.state.toCall.Shape) (resting : Resting events config)
    (taken : (callSystem app).step config action = some next) :
    ToldStep app events config next action := by
  have whole : ∀ frame, frame ∈ config.frames → frame ∈ config.frames := fun _ => id
  have same : ∀ event, events event → events event := fun _ => id
  cases action with
  | comeBack =>
      obtain ⟨frame, older, suspended, settled⟩ := System.step_comeBack.mp taken
      have innermost := resting frame (by rw [suspended]; exact List.mem_cons_self)
      have inside : ∀ other, other ∈ older → other ∈ config.frames :=
        fun other member => by rw [suspended]; exact List.mem_cons_of_mem frame member
      obtain ⟨⟨middle, first, second⟩, still⟩ :=
        settle_told resting same (innermost config.state (.ok ())).opens inside settled
      exact .quiet .comeBack id nofun (first.trans second) still
  | enter label =>
      obtain ⟨program, entered, settled⟩ := System.step_enter.mp taken
      by_cases starts : Originates app config.state.toCall (.enter label)
      · cases label with
        | raises ua event =>
            have originates := starts
            rcases starts with ⟨answering, unrouted, first, decision, asked, action, hops⟩ |
              ⟨current, failed⟩
            · obtain ⟨hop, rest, isHops⟩ := List.exists_cons_of_ne_nil hops
              have opens := enter_first answering unrouted first asked action isHops entered
              obtain ⟨told, still⟩ := settle_told resting same
                (opens.mono (fun _ _ => id) (fun _ _ grows => grows.mono (fun _ _ => id) plain))
                whole settled
              exact .first ua event hop unrouted originates told still
            · obtain ⟨hop, rest, remaining⟩ := List.exists_cons_of_ne_nil failed.2.2
              have opens := enter_failover (shape.uaO_ne_uaA current) current failed remaining
                entered
              obtain ⟨told, still⟩ := settle_told resting
                (fun _ allowed => Or.inl (b := TraceEvent.Inbound _) allowed)
                (opens.mono (fun _ _ => id)
                  (fun _ _ grows => grows.mono (fun _ _ => id) (fun _ => Or.inr)))
                whole settled
              exact .failover ua event hop rest current failed remaining told still
        | _ => exact absurd starts id
      · by_cases invited : ∃ request, label = .invite request
        · obtain ⟨request, rfl⟩ := invited
          rw [callSystem_enter] at entered
          obtain ⟨enabled, isProgram⟩ := Option.ite_none_right_eq_some.mp entered
          cases isProgram
          have fresh : config.state.trunkRequest = none :=
            Option.isNone_iff_eq_none.mp (Bool.and_eq_true_iff.mp enabled).2
          obtain ⟨told, still⟩ := settle_told resting same
            (receiveInvite_opens app request config.state) whole settled
          exact .invite request fresh told still
        · have notInvite : ∀ request, label ≠ .invite request :=
            fun request isInvite => invited ⟨request, isInvite⟩
          have moves := enter_quiet starts notInvite entered
          obtain ⟨⟨middle, first, second⟩, still⟩ := settle_told resting same
            (moves.mono (fun _ _ grows => grows.mono (fun _ _ => id) plain)).opens whole settled
          refine .quiet (.enter label) starts ?_ (first.trans second) still
          intro request isInvite
          cases isInvite
          exact notInvite request rfl

theorem ToldStep.resting {app : App} {events : TraceEvent → Prop} {config next : CallConfig}
    {action : CallAction} (step : ToldStep app events config next action) :
    Resting (fun event => events event ∨ event.Inbound) next := by
  have weaker : ∀ event : TraceEvent, events event → events event ∨ event.Inbound :=
    fun _ => Or.inl
  cases step with
  | quiet action still invited told resting => exact resting.mono weaker
  | invite request fresh told resting => exact resting.mono weaker
  | first ua event hop unrouted starts told resting => exact resting.mono weaker
  | failover ua event hop rest current failed remaining told resting => exact resting

/-! ### Where the call is -/

section Walk

variable {app : App} {process : Process} {decision : PolicyDecision} {config next : CallConfig}
  {action : CallAction}

theorem onWalk_initial (globalConfig : GlobalConfig) (nextHop : Option (String × Nat)) :
    callOutlook.Keeps (OnWalk process decision)
      (Config.initial (process.newCall globalConfig nextHop) : CallConfig) :=
  ⟨_, Outlook.follows_initial _, Chosen.initial process globalConfig nextHop decision,
    fun routed => absurd rfl routed, rfl⟩

theorem onWalk_step (relays : Relays app decision)
    (onWalk : callOutlook.Keeps (OnWalk process decision) config)
    (taken : (callSystem app).step config action = some next) :
    callOutlook.Keeps (OnWalk process decision) next :=
  Outlook.keeps_step (callSystem_describes app)
    (fun _ _ _ onWalk step => onWalk.step relays step) onWalk taken

theorem shape_of_onWalk (onWalk : callOutlook.Keeps (OnWalk process decision) config) :
    config.state.toCall.Shape := by
  obtain ⟨outline, follows, onWalk⟩ := onWalk
  have same : config.state.toCall = outline.view.call := congrArg Control.call follows.view
  rw [same]
  exact onWalk.shape

theorem walked_of_onWalk (onWalk : callOutlook.Keeps (OnWalk process decision) config)
    (routed : config.state.legs ≠ []) :
    ∃ tried, tried ≠ [] ∧ Walked decision tried config.state.toCall := by
  obtain ⟨outline, follows, onWalk⟩ := onWalk
  have same : config.state.toCall = outline.view.call := congrArg Control.call follows.view
  rw [same] at routed ⊢
  exact onWalk.walked routed

theorem attempts_step (onWalk : callOutlook.Keeps (OnWalk process decision) config)
    (taken : (callSystem app).step config action = some next) :
    (¬Originates app config.state.toCall action ∧
        Call.SameAttempt config.state.toCall next.state.toCall) ∨
      (Originates app config.state.toCall action ∧ ∃ ua event ending,
        Originated app config.state.control ua event next.state.control ending) := by
  obtain ⟨outline, follows, onWalk⟩ := onWalk
  obtain ⟨nextOutline, step, followed⟩ :=
    Outlook.follows_step (callSystem_describes app) follows taken
  have before : config.state.control = outline.view := follows.view
  have after : next.state.control = nextOutline.view := followed.view
  rw [← World.control_call, ← World.control_call, before, after]
  cases step_attempts step onWalk.shape with
  | same action quiet kept => exact Or.inl ⟨quiet, kept⟩
  | started ua event ending starts finished originated =>
      exact Or.inr ⟨starts, ua, event, ending, originated⟩

theorem routed_step (onWalk : callOutlook.Keeps (OnWalk process decision) config)
    (taken : (callSystem app).step config action = some next)
    (routed : config.state.legs ≠ [] ∨ Originates app config.state.toCall action) :
    next.state.legs ≠ [] := by
  intro none
  rcases attempts_step onWalk taken with ⟨quiet, same⟩ | ⟨_, ua, event, ending, originated⟩
  · exact (routed.resolve_right quiet) ((Call.legs_eq_nil_iff same.length).mp none)
  · have longer : next.state.legs.length = config.state.legs.length + 1 := originated.length
    rw [none] at longer
    cases longer

theorem failoverHops_step (onWalk : callOutlook.Keeps (OnWalk process decision) config)
    (routed : config.state.legs ≠ [])
    (taken : (callSystem app).step config action = some next) :
    (¬Originates app config.state.toCall action ∧
        next.state.failoverHops = config.state.failoverHops) ∨
      (Originates app config.state.toCall action ∧
        ∃ hop, config.state.failoverHops = hop :: next.state.failoverHops) := by
  rcases attempts_step onWalk taken with ⟨quiet, same⟩ | ⟨starts, ua, event, ending, originated⟩
  · exact Or.inl ⟨quiet, same.failoverHops⟩
  · right
    refine ⟨starts, ?_⟩
    cases originated with
    | first decision hop rest unrouted asked action hops attempt => exact absurd unrouted routed
    | failover hop rest current routed failed remaining attempt =>
        refine ⟨hop, ?_⟩
        have left : next.state.failoverHops = rest :=
          congrArg BaseCallController.failoverHops attempt.done.controller
        rw [left]
        exact remaining

structure Walking (process : Process) (decision : PolicyDecision) (events : TraceEvent → Prop)
    (config : CallConfig) : Prop where
  onWalk : callOutlook.Keeps (OnWalk process decision) config
  resting : Resting events config

theorem walking_initial (process : Process) (decision : PolicyDecision)
    (events : TraceEvent → Prop) (globalConfig : GlobalConfig) (nextHop : Option (String × Nat)) :
    Walking process decision events (Config.initial (process.newCall globalConfig nextHop)) :=
  ⟨onWalk_initial globalConfig nextHop, fun _ member => absurd member List.not_mem_nil⟩

namespace Walking

variable {events moreEvents : TraceEvent → Prop}

theorem shape (walking : Walking process decision events config) : config.state.toCall.Shape :=
  shape_of_onWalk walking.onWalk

theorem routed_of_current (walking : Walking process decision events config) {leg : UaRef}
    (current : config.state.uaO = some leg) : config.state.legs ≠ [] := by
  intro none
  rw [walking.shape.legs_of_uaO.mp none] at current
  cases current

theorem told (walking : Walking process decision events config)
    (plain : ∀ event : TraceEvent, event.Plain → events event)
    (taken : (callSystem app).step config action = some next) :
    ToldStep app events config next action :=
  step_told plain walking.shape walking.resting taken

theorem step (walking : Walking process decision events config) (relays : Relays app decision)
    (plain : ∀ event : TraceEvent, event.Plain → events event)
    (weaker : ∀ event, events event → moreEvents event)
    (inbound : ∀ event : TraceEvent, event.Inbound → moreEvents event)
    (taken : (callSystem app).step config action = some next) :
    Walking process decision moreEvents next := by
  refine ⟨onWalk_step relays walking.onWalk taken, (walking.told plain taken).resting.mono ?_⟩
  intro event allowed
  rcases allowed with before | report
  · exact weaker event before
  · exact inbound event report

end Walking

inductive OnwardStep (app : App) (events : TraceEvent → Prop) (config next : CallConfig) :
    CallAction → Prop where
  | quiet (action : CallAction) (still : ¬Originates app config.state.toCall action)
      (hops : next.state.failoverHops = config.state.failoverHops)
      (told : config.state.told.Grows noPeers events next.state.told) :
      OnwardStep app events config next action
  | failover (ua : UaRef) (event : CCEvent) (hop : NextHop)
      (current : config.state.uaO = some ua) (failed : FailsOver config.state.toCall event)
      (hops : config.state.failoverHops = hop :: next.state.failoverHops)
      (told : (config.state.told.lose (failedKey app config.state.servingHop)).Then
        (Told.Grows (reaches app hop) (TraceEvent.Attempts hop)) (Told.Grows noPeers events)
        next.state.told) : OnwardStep app events config next (.enter (.raises ua event))

theorem Walking.onward {events : TraceEvent → Prop}
    (walking : Walking process decision events config)
    (plain : ∀ event : TraceEvent, event.Plain → events event)
    (routed : config.state.legs ≠ []) (taken : (callSystem app).step config action = some next) :
    OnwardStep app events config next action := by
  have hops := failoverHops_step walking.onWalk routed taken
  cases walking.told plain taken with
  | quiet action still invited told resting =>
      rcases hops with ⟨_, same⟩ | ⟨starts, _⟩
      · exact .quiet action still same told
      · exact absurd starts still
  | invite request fresh told resting =>
      exact absurd fresh (walking.shape.invited_of_routed routed)
  | first ua event hop unrouted starts told resting =>
      exact absurd (walking.shape.legs_of_uaO.mpr unrouted) routed
  | failover ua event hop rest current failed remaining told resting =>
      rcases hops with ⟨quiet, _⟩ | ⟨_, first, same⟩
      · exact absurd (Or.inr ⟨current, failed⟩) quiet
      · rw [same] at remaining
        cases remaining
        exact .failover ua event hop current failed same told

theorem OnwardStep.failoverHops_subset {events : TraceEvent → Prop}
    (step : OnwardStep app events config next action) :
    ∀ hop, hop ∈ next.state.failoverHops → hop ∈ config.state.failoverHops := by
  intro other member
  cases step with
  | quiet action still hops told =>
      rw [← hops]
      exact member
  | failover ua event hop current failed hops told =>
      rw [hops]
      exact List.mem_cons_of_mem hop member

end Walk

end AsPlatform
