/-
What the registry knows of the hops that failed.

The state of a hop is set to unreachable by the failover that leaves it, so a hop that
fails when no other is left stays as its attempt has set it.  Once it is unreachable, a hop
of a call stays so, since every hop is attempted once and none has the key of another.
-/

import AsPlatform.CallController.Told

namespace AsPlatform

open Reentrant

/-! ### The property -/

/-- The no-answer timer has had the leg disconnected: the run has been inside that call. -/
def DidNotAnswer (app : App) (start : World) (earlier : List CallAction) (leg : UaRef) : Prop :=
  ∃ config : CallConfig, (callSystem app).Passes (Config.initial start) earlier config ∧
    ∃ frame, frame ∈ config.frames ∧ frame.request = .disconnect leg

/-- Here the attempt at the hop ends before the call is connected: its leg raises a failure,
or it is released after it did not answer. -/
structure HopFails (app : App) (start : World) (earlier : List CallAction) (config : CallConfig)
    (action : CallAction) (hop : NextHop) : Prop where
  ran : (callSystem app).run (Config.initial start) earlier = some config
  raised : ∃ leg event, action = .enter (.raises leg event) ∧ config.state.uaO = some leg ∧
    (event.isFail = true ∨ event = .disconnect ∧ DidNotAnswer app start earlier leg)
  serving : config.state.servingHop = some hop
  away : config.state.trunkConnected = false

def World.Unreachable (app : App) (hop : NextHop) (world : World) : Prop :=
  world.metrics.peerStatus.get? (app.peerStatusKey hop) = some .unreachable

def FailuresTold (app : App) (start : World) (actions : List CallAction) : Prop :=
  ∀ earlier action later rest config last hop, actions = earlier ++ action :: (later ++ rest) →
    HopFails app start earlier config action hop →
      (callSystem app).run config (action :: later) = some last → last.state.Unreachable app hop

def OthersRemain (app : App) (start : World) (actions : List CallAction) : Prop :=
  ∀ earlier action rest config hop, actions = earlier ++ action :: rest →
    HopFails app start earlier config action hop →
      config.state.failoverHops ≠ [] ∨ config.state.Unreachable app hop

/-! ### Hops that are lost -/

section Lost

variable {app : App} {process : Process} {decision : PolicyDecision} {config next : CallConfig}
  {action : CallAction}

structure Lost (app : App) (hop : NextHop) (config : CallConfig) : Prop where
  routed : config.state.legs ≠ []
  apart : ∀ other, other ∈ config.state.failoverHops →
    app.peerStatusKey other ≠ app.peerStatusKey hop
  unreachable : config.state.Unreachable app hop

/-- A failover leaves alone the state of all hops but the two. -/
theorem get?_failover {events laterEvents : TraceEvent → Prop} {told after : Told}
    {failed : String} {hop : NextHop}
    (grows : (told.lose failed).Then (Told.Grows (reaches app hop) events)
      (Told.Grows noPeers laterEvents) after)
    {name : String} (other : app.peerStatusKey hop ≠ name) :
    after.peerStatus.get? name = if failed = name then some .unreachable
      else told.peerStatus.get? name := by
  obtain ⟨middle, first, second⟩ := grows
  rw [second.get?_peerStatus fun _ => id,
    first.get?_peerStatus fun status reached => other reached.1.symm]
  exact OrderedDict.get?_insert told.peerStatus failed name .unreachable

theorem Lost.step {hop : NextHop} (lost : Lost app hop config)
    (walking : Walking process decision anyEvent config)
    (taken : (callSystem app).step config action = some next) : Lost app hop next := by
  have onward := walking.onward (fun _ _ => trivial) lost.routed taken
  refine ⟨routed_step walking.onWalk taken (Or.inl lost.routed),
    fun other member => lost.apart other (onward.failoverHops_subset other member), ?_⟩
  cases onward with
  | quiet action still hops told => exact (told.get?_peerStatus fun _ => id).trans lost.unreachable
  | failover ua event other current failed hops told =>
      have apart := lost.apart other (by rw [hops]; exact List.mem_cons_self)
      refine (get?_failover told apart).trans ?_
      split
      · rfl
      · exact lost.unreachable

theorem Lost.run {hop : NextHop} (lost : Lost app hop config)
    (walking : Walking process decision anyEvent config) (relays : Relays app decision)
    {later : List CallAction} {last : CallConfig}
    (ran : (callSystem app).run config later = some last) : Lost app hop last := by
  apply And.right (a := Walking process decision anyEvent last)
  apply System.Reaches.invariant
    (fun config => Walking process decision anyEvent config ∧ Lost app hop config)
    ⟨walking, lost⟩ _ (System.Reaches.of_run later ran)
  intro config action next both _ taken
  exact ⟨both.1.step relays (fun _ _ => trivial) (fun _ => id) (fun _ _ => trivial) taken,
    both.2.step both.1 taken⟩

/-! ### A hop that fails -/

variable {start : World} {earlier : List CallAction} {hop : NextHop}

theorem HopFails.routed (fails : HopFails app start earlier config action hop)
    (walking : Walking process decision anyEvent config) : config.state.legs ≠ [] := by
  obtain ⟨leg, _, _, current, _⟩ := fails.raised
  exact walking.routed_of_current current

theorem HopFails.taken (fails : HopFails app start earlier config action hop)
    (walking : Walking process decision anyEvent config) :
    ∃ next, (callSystem app).step config action = some next := by
  have routed := walking.shape.routed (fails.routed walking)
  obtain ⟨leg, event, rfl, _⟩ := fails.raised
  have enabled : (Label.raises leg event).enabled config.state.toCall config.idle = true :=
    decide_eq_true fun _ => routed
  have entered := callSystem_enter app (.raises leg event) config.state config.idle
  rw [if_pos enabled] at entered
  exact ⟨_, System.step_enter.mpr ⟨_, entered, rfl⟩⟩

/-- With another hop left the controller fails over. -/
theorem HopFails.originates (fails : HopFails app start earlier config action hop)
    (remaining : config.state.failoverHops ≠ []) : Originates app config.state.toCall action := by
  obtain ⟨leg, event, rfl, current, ended⟩ := fails.raised
  refine Or.inr ⟨current, ?_, fails.away, remaining⟩
  rcases ended with failed | ⟨released, _⟩
  · cases event with
    | fail data => rfl
    | _ => cases failed
  · rw [released]
    rfl

/-- The hop that is served has another key than those that are left. -/
theorem Walked.apart {tried : List NextHop} {call : Call} (walked : Walked decision tried call)
    (serving : call.servingHop = some hop)
    (distinct : (decision.nextHops.map app.peerStatusKey).Nodup) :
    ∀ other, other ∈ call.failoverHops → app.peerStatusKey other ≠ app.peerStatusKey hop := by
  rw [← walked.hops, List.map_append, List.nodup_append] at distinct
  intro other member same
  have served : hop ∈ tried := List.mem_of_getLast? (walked.serving.symm.trans serving)
  exact distinct.2.2 _ (List.mem_map_of_mem served) _ (List.mem_map_of_mem member) same.symm

/-- With no hop left the failure leaves all peer states alone. -/
theorem get?_exhausted (walking : Walking process decision anyEvent config)
    (routed : config.state.legs ≠ []) (exhausted : config.state.failoverHops = [])
    (taken : (callSystem app).step config action = some next) (name : String) :
    next.state.metrics.peerStatus.get? name = config.state.metrics.peerStatus.get? name := by
  cases walking.onward (fun _ _ => trivial) routed taken with
  | quiet action still hops told => exact told.get?_peerStatus fun _ => id
  | failover ua event other current failed hops told =>
      rw [exhausted] at hops
      cases hops

/-- A hop that fails is lost at once, if there is another or it was known to be. -/
theorem HopFails.lost (fails : HopFails app start earlier config action hop)
    (walking : Walking process decision anyEvent config)
    (distinct : (decision.nextHops.map app.peerStatusKey).Nodup)
    (known : config.state.failoverHops ≠ [] ∨ config.state.Unreachable app hop)
    (taken : (callSystem app).step config action = some next) : Lost app hop next := by
  have routed := fails.routed walking
  obtain ⟨tried, _, walked⟩ := walked_of_onWalk walking.onWalk routed
  have apart := walked.apart fails.serving distinct
  have onward := walking.onward (fun _ _ => trivial) routed taken
  refine ⟨routed_step walking.onWalk taken (Or.inl routed),
    fun other member => apart other (onward.failoverHops_subset other member), ?_⟩
  by_cases exhausted : config.state.failoverHops = []
  · have unreachable := known.resolve_left (not_not_intro exhausted)
    exact (get?_exhausted walking routed exhausted taken _).trans unreachable
  · cases onward with
    | quiet action still hops told => exact absurd (fails.originates exhausted) still
    | failover ua event other current failed hops told =>
        have others := apart other (by rw [hops]; exact List.mem_cons_self)
        refine (get?_failover told others).trans (if_pos ?_)
        rw [failedKey, fails.serving]
        rfl

end Lost

/-- For every run of a relay decision whose hops are kept under different keys: every hop that
fails before the call is connected is unreachable from then on exactly if each of them fails
while another is left to be tried, or was known to be unreachable. -/
theorem failuresTold_iff (app : App) (decision : PolicyDecision) (relays : Relays app decision)
    (distinct : (decision.nextHops.map app.peerStatusKey).Nodup) (process : Process)
    (globalConfig : GlobalConfig) (nextHop : Option (String × Nat)) (actions : List CallAction) :
    FailuresTold app (process.newCall globalConfig nextHop) actions ↔
      OthersRemain app (process.newCall globalConfig nextHop) actions := by
  have walks : ∀ {earlier config},
      (callSystem app).run (Config.initial (process.newCall globalConfig nextHop)) earlier =
        some config → Walking process decision anyEvent config := by
    intro earlier config ran
    apply System.Reaches.invariant (Walking process decision anyEvent)
      (walking_initial process decision anyEvent globalConfig nextHop) _
      (System.Reaches.of_run earlier ran)
    exact fun config action next walking _ taken =>
      walking.step relays (fun _ _ => trivial) (fun _ => id) (fun _ _ => trivial) taken
  constructor
  · intro told earlier action rest config hop split fails
    have walking := walks fails.ran
    obtain ⟨next, taken⟩ := fails.taken walking
    by_cases exhausted : config.state.failoverHops = []
    · right
      have unreachable := told earlier action [] rest config next hop split fails
        (by rw [System.run, taken]; rfl)
      exact (get?_exhausted walking (fails.routed walking) exhausted taken _).symm.trans unreachable
    · exact Or.inl exhausted
  · intro remain earlier action later rest config last hop split fails ran
    have walking := walks fails.ran
    obtain ⟨next, taken, onward⟩ := System.run_cons ran
    have known := remain earlier action (later ++ rest) config hop split fails
    have lost := fails.lost walking distinct known taken
    have walkingOn := walking.step relays (fun _ _ => trivial) (fun _ => id) (fun _ _ => trivial)
      taken
    exact (lost.run walkingOn relays onward).unreachable

/-- The first of two hops fails, and the second is tried. -/
theorem failuresTold_iff_twoHops :
    FailuresTold (App.deciding (sampleRelay [sampleHop "1", sampleHop "2"])) sampleWorld
      (sampleOpening ++ [.enter (.raises (.leg 0) sampleFail)]) := by
  apply (failuresTold_iff _ (sampleRelay [sampleHop "1", sampleHop "2"])
    ⟨fun _ _ => rfl, rfl, List.cons_ne_nil _ _⟩ (by decide) sampleProcess
    { sipAddress := some "192.0.2.1" } none _).mpr
  intro earlier action rest config hop split fails
  obtain ⟨leg, event, rfl, _, ended⟩ := fails.raised
  have ran := fails.ran
  rcases earlier with _ | ⟨_, _ | ⟨_, _ | ⟨_, _ | ⟨_, _ | ⟨_, earlier⟩⟩⟩⟩⟩
  · cases split
  · cases split
  · cases split
    rcases ended with failed | ⟨released, _⟩
    · cases failed
    · cases released
  · cases split
  · cases split
    cases ran
    exact Or.inl (List.cons_ne_nil _ _)
  · have lengths := congrArg List.length split
    simp only [sampleOpening, List.length_append, List.length_cons, List.length_nil] at lengths
    omega

/-- The only hop fails: the failure goes to the trunk leg, and the registry still has the hop
as the attempt has set it. -/
theorem not_failuresTold :
    Relays (App.deciding (sampleRelay [sampleHop "1"])) (sampleRelay [sampleHop "1"]) ∧
      ¬FailuresTold (App.deciding (sampleRelay [sampleHop "1"])) sampleWorld
        (sampleOpening ++ [.enter (.raises (.leg 0) sampleFail)]) := by
  refine ⟨⟨fun _ _ => rfl, rfl, List.cons_ne_nil _ _⟩, ?_⟩
  intro told
  have unreachable := told sampleOpening (.enter (.raises (.leg 0) sampleFail)) [] [] _ _
    (sampleHop "1") rfl ⟨rfl, ⟨.leg 0, sampleFail, rfl, rfl, Or.inl rfl⟩, rfl, rfl⟩ rfl
  revert unreachable
  unfold World.Unreachable
  decide

end AsPlatform
