/-
What the trace tells of a failover.

The event that names the failed hop is recorded when the attempt at the next hop has come
back.  Until then nothing that is recorded after the first attempt names a failed hop, so
the first failover of a run is never traced in the order in which it happens.
-/

import AsPlatform.CallController.Told

namespace AsPlatform

open Reentrant

namespace TraceEvent

def InviteOf (hop : NextHop) (event : TraceEvent) : Prop :=
  event.IsInvite ∧ event.peer = renderPeer hop.address hop.port

def FailureOf (hop : NextHop) (event : TraceEvent) : Prop :=
  event.direction = LogDirection.inbound ∧
    event.attributes.get? "failed_hop" = some (.str hop.name) ∧
      event.peer = renderPeer hop.address hop.port

instance (hop : NextHop) (event : TraceEvent) : Decidable (event.FailureOf hop) := by
  unfold FailureOf
  infer_instance

theorem FailureOf.names {hop : NextHop} {event : TraceEvent} (failure : event.FailureOf hop) :
    event.NamesFailedHop := by
  refine ⟨failure.1, ?_⟩
  rw [failure.2.1]
  exact Option.some_ne_none _

end TraceEvent

/-! ### The property -/

structure FailoverFrom (config : CallConfig) (action : CallAction) (failed hop : NextHop) :
    Prop where
  fails : ∃ leg event, action = .enter (.raises leg event) ∧ config.state.uaO = some leg ∧
    FailsOver config.state.toCall event
  serving : config.state.servingHop = some failed
  onward : config.state.failoverHops.head? = some hop

def World.recordedSince (start world : World) : List TraceEvent :=
  world.tracer.recorded.drop start.tracer.recorded.length

/-- One event tells of the failure, between the INVITEs of the two hops. -/
structure TracedFailover (failed hop : NextHop) (events : List TraceEvent) : Prop where
  once : events.countP (fun event => decide (event.FailureOf failed)) = 1
  order : ∃ invite failure onward : TraceEvent, [invite, failure, onward].Sublist events ∧
    invite.InviteOf failed ∧ failure.FailureOf failed ∧ onward.InviteOf hop

def Warned (failed : NextHop) (config next : CallConfig) : Prop :=
  config.state.isEnabledFor .warning = true →
    ∃ line, line ∈ next.state.log.drop config.state.log.length ∧ line.level = .warning ∧
      line.event = "next hop failed; trying failover hop" ∧
        ("failed_hop", .str failed.name) ∈ line.extra

def FailoversTraced (app : App) (start : World) (actions : List CallAction) (last : CallConfig) :
    Prop :=
  ∀ earlier action later config next failed hop, actions = earlier ++ action :: later →
    (callSystem app).run (Config.initial start) earlier = some config →
      (callSystem app).step config action = some next → FailoverFrom config action failed hop →
        TracedFailover failed hop (start.recordedSince last.state) ∧ Warned failed config next

/-! ### Before the first failover -/

/-- No INVITE is recorded, and then no failed hop is named. -/
abbrev Told.Unfailed : Told → Told → Prop :=
  Told.Then (Told.Records fun event => ¬event.IsInvite)
    (Told.Records fun event => ¬event.NamesFailedHop)

section Run

variable {app : App} {process : Process} {decision : PolicyDecision} {start : World}
  {config next : CallConfig} {action : CallAction} {failed hop : NextHop}

structure Unfailed (process : Process) (decision : PolicyDecision) (start : World)
    (config : CallConfig) : Prop extends Walking process decision TraceEvent.Plain config where
  traced : start.told.Unfailed config.state.told
  unrouted : config.state.legs = [] →
    start.told.Records (fun event => ¬event.IsInvite) config.state.told

theorem unfailed_initial (process : Process) (decision : PolicyDecision)
    (globalConfig : GlobalConfig) (nextHop : Option (String × Nat)) :
    Unfailed process decision (process.newCall globalConfig nextHop)
      (Config.initial (process.newCall globalConfig nextHop)) where
  toWalking := walking_initial process decision TraceEvent.Plain globalConfig nextHop
  traced := ⟨_, Told.Records.refl _, Told.Records.refl _⟩
  unrouted := fun _ => Told.Records.refl _

/-- A hop that is left is failed over to from the hop that is served. -/
theorem exists_failoverFrom {events : TraceEvent → Prop}
    (walking : Walking process decision events config) {ua : UaRef} {event : CCEvent}
    (current : config.state.uaO = some ua) (failed : FailsOver config.state.toCall event) :
    ∃ served hop, FailoverFrom config (.enter (.raises ua event)) served hop := by
  obtain ⟨tried, some, walked⟩ :=
    walked_of_onWalk walking.onWalk (walking.routed_of_current current)
  obtain ⟨hop, rest, remaining⟩ := List.exists_cons_of_ne_nil failed.2.2
  refine ⟨tried.getLast some, hop, ⟨ua, event, rfl, current, failed⟩, ?_, ?_⟩
  · rw [walked.serving]
    exact List.getLast?_eq_some_getLast some
  · rw [remaining]
    rfl

theorem Unfailed.step (unfailed : Unfailed process decision start config)
    (relays : Relays app decision)
    (allowed : ∀ failed hop, ¬FailoverFrom config action failed hop)
    (taken : (callSystem app).step config action = some next) :
    Unfailed process decision start next := by
  have onward := onWalk_step relays unfailed.onWalk taken
  have routedNow := routed_step unfailed.onWalk taken
  -- Without an INVITE it does not matter whether there is a leg.
  have still : start.told.Records (fun event => ¬event.IsInvite) next.state.told →
      Resting TraceEvent.Plain next → Unfailed process decision start next :=
    fun records resting => ⟨⟨onward, resting⟩, ⟨_, records, Told.Records.refl _⟩, fun _ => records⟩
  cases unfailed.told (fun _ => id) taken with
  | quiet action quiet invited told resting =>
      by_cases unrouted : config.state.legs = []
      · exact still ((unfailed.unrouted unrouted).trans
          (told.recorded.mono fun _ plain => plain.noInvite)) resting
      · obtain ⟨middle, first, second⟩ := unfailed.traced
        exact ⟨⟨onward, resting⟩,
          ⟨middle, first, second.trans (told.recorded.mono fun _ plain => plain.noFailedHop)⟩,
          fun none => absurd none (routedNow (Or.inl unrouted))⟩
  | invite request fresh told resting =>
      have unrouted : config.state.legs = [] := by
        by_contra routed
        exact unfailed.shape.invited_of_routed routed fresh
      obtain ⟨middle, first, second⟩ := told
      exact still (((unfailed.unrouted unrouted).trans
        (first.mono fun _ inbound => inbound.noInvite)).trans
          (second.recorded.mono fun _ plain => plain.noInvite)) resting
  | first ua event hop unrouted starts told resting =>
      obtain ⟨middle, first, second⟩ := told
      have none := unfailed.shape.legs_of_uaO.mpr unrouted
      refine ⟨⟨onward, resting⟩, ⟨_, unfailed.unrouted none, ?_⟩,
        fun none => absurd none (routedNow (Or.inr starts))⟩
      exact (first.recorded.mono fun _ attempts => attempts.noFailedHop).trans
        (second.recorded.mono fun _ plain => plain.noFailedHop)
  | failover ua event hop rest current failed remaining told resting =>
      obtain ⟨served, other, failover⟩ := exists_failoverFrom unfailed.toWalking current failed
      exact absurd failover (allowed served other)

/-! ### After a failover -/

structure Past (process : Process) (decision : PolicyDecision) (hop : NextHop)
    (config : CallConfig) : Prop
    extends Walking process decision (fun event => ¬event.IsInvite) config where
  routed : config.state.legs ≠ []
  apart : ∀ other, other ∈ config.state.failoverHops →
    renderPeer other.address other.port ≠ renderPeer hop.address hop.port

/-- No INVITE goes to a hop a second time. -/
theorem Past.step (past : Past process decision hop config) (relays : Relays app decision)
    (taken : (callSystem app).step config action = some next) :
    Past process decision hop next ∧
      config.state.told.Records (fun event => ¬event.InviteOf hop) next.state.told := by
  have noInvite : ∀ event : TraceEvent, event.Plain → ¬event.IsInvite :=
    fun _ plain => plain.noInvite
  have onward := past.onward noInvite past.routed taken
  have walking := past.toWalking.step relays noInvite (fun _ => id)
    (fun _ inbound => inbound.noInvite) taken
  have other : ∀ event : TraceEvent, ¬event.IsInvite → ¬event.InviteOf hop :=
    fun _ noInvite invite => noInvite invite.1
  refine ⟨⟨walking, routed_step past.onWalk taken (Or.inl past.routed),
    fun other member => past.apart other (onward.failoverHops_subset other member)⟩, ?_⟩
  cases onward with
  | quiet action still hops told => exact told.recorded.mono other
  | failover ua event next current failed hops told =>
      obtain ⟨middle, first, second⟩ := told
      have apart := past.apart next (by rw [hops]; exact List.mem_cons_self)
      have elsewhere : ∀ event : TraceEvent, event.Attempts next → ¬event.InviteOf hop :=
        fun _ attempts invite => apart (attempts.peer.symm.trans invite.2)
      exact Told.Records.trans (first.recorded.mono elsewhere) (second.recorded.mono other)

theorem Past.run (past : Past process decision hop config) (relays : Relays app decision)
    {later : List CallAction} {last : CallConfig}
    (ran : (callSystem app).run config later = some last) :
    config.state.told.Records (fun event => ¬event.InviteOf hop) last.state.told := by
  apply And.right (a := Past process decision hop last)
  apply System.Reaches.invariant
    (fun reached => Past process decision hop reached ∧
      config.state.told.Records (fun event => ¬event.InviteOf hop) reached.state.told)
    ⟨past, Told.Records.refl _⟩ _ (System.Reaches.of_run later ran)
  intro reached action next both _ taken
  obtain ⟨onward, records⟩ := both.1.step relays taken
  exact ⟨onward, both.2.trans records⟩

theorem Unfailed.past (unfailed : Unfailed process decision start config)
    (relays : Relays app decision)
    (distinct : (decision.nextHops.map fun hop => renderPeer hop.address hop.port).Nodup)
    (failover : FailoverFrom config action failed hop)
    (taken : (callSystem app).step config action = some next) :
    Past process decision hop next ∧ start.told.Unfailed next.state.told := by
  obtain ⟨leg, event, rfl, current, fails⟩ := failover.fails
  have routed := unfailed.routed_of_current current
  obtain ⟨tried, _, walked⟩ := walked_of_onWalk unfailed.onWalk routed
  have walking := unfailed.toWalking.step relays (fun _ => id) (fun _ plain => plain.noInvite)
    (fun _ inbound => inbound.noInvite) taken
  have routedNow := routed_step unfailed.onWalk taken (Or.inl routed)
  cases unfailed.onward (fun _ => id) routed taken with
  | quiet action still hops told => exact absurd (Or.inr ⟨current, fails⟩) still
  | failover ua event next current failed hops told =>
      have isFirst := failover.onward
      rw [hops] at isFirst
      cases isFirst
      refine ⟨⟨walking, routedNow, ?_⟩, ?_⟩
      · rw [← walked.hops, hops, List.map_append, List.map_cons, List.nodup_append,
          List.nodup_cons] at distinct
        intro other member same
        apply distinct.2.1.1
        rw [← same]
        exact List.mem_map_of_mem member
      · obtain ⟨middle, first, second⟩ := unfailed.traced
        obtain ⟨_, attempt, unwound⟩ := told
        have silent : ∀ event : TraceEvent, event.Attempts hop → ¬event.NamesFailedHop :=
          fun _ attempts => attempts.noFailedHop
        exact ⟨middle, first, second.trans (Told.Records.trans (attempt.recorded.mono silent)
          (unwound.recorded.mono fun _ plain => plain.noFailedHop))⟩

theorem sublist_of_not_mem_left {Item : Type} {first : Item} {items left right : List Item}
    (ordered : (first :: items).Sublist (left ++ right)) (absent : first ∉ left) :
    (first :: items).Sublist right := by
  obtain ⟨inLeft, inRight, split, ofLeft, ofRight⟩ := List.sublist_append_iff.mp ordered
  cases inLeft with
  | nil =>
      rw [split]
      exact ofRight
  | cons item others =>
      obtain ⟨rfl, _⟩ := List.cons.inj split
      exact absurd (ofLeft.subset List.mem_cons_self) absent

theorem sublist_of_not_mem_right {Item : Type} {last : Item} {items left right : List Item}
    (ordered : (items ++ [last]).Sublist (left ++ right)) (absent : last ∉ right) :
    (items ++ [last]).Sublist left := by
  have reversed := List.reverse_sublist.mpr ordered
  rw [List.reverse_append, List.reverse_append] at reversed
  have inLeft := sublist_of_not_mem_left reversed
    (fun member => absent (List.mem_reverse.mp member))
  rw [← List.reverse_sublist, List.reverse_append]
  exact inLeft

/-- What is recorded before the first INVITE, then without a failure, then without the INVITE
of the next hop does not have the failure where it belongs. -/
theorem not_tracedFailover {reached last : World} (unfailed : start.told.Unfailed reached.told)
    (later : reached.told.Records (fun event => ¬event.InviteOf hop) last.told) :
    ¬TracedFailover failed hop (start.recordedSince last) := by
  obtain ⟨middle, ⟨before, isBefore, noInvite⟩, after, isAfter, noFailure⟩ := unfailed
  obtain ⟨more, isMore, noOnward⟩ := later
  have recorded : start.recordedSince last = before ++ (after ++ more) := by
    change last.told.recorded.drop start.told.recorded.length = _
    rw [isMore, isAfter, isBefore, List.append_assoc, List.append_assoc, List.drop_left]
  intro traced
  obtain ⟨invite, failure, onward, ordered, isInvite, isFailure, isOnward⟩ := traced.order
  rw [recorded] at ordered
  have behind := sublist_of_not_mem_left ordered
    (fun member => noInvite invite member isInvite.1)
  have inside : ([invite, failure] ++ [onward]).Sublist after :=
    sublist_of_not_mem_right behind (fun member => noOnward onward member isOnward)
  have among : failure ∈ after := inside.subset (List.mem_cons_of_mem _ List.mem_cons_self)
  exact noFailure failure among isFailure.names

end Run

/-- For every run of a relay decision whose hops have different addresses: every failover is
traced in the order in which it happens exactly if there is none. -/
theorem failoversTraced_iff (app : App) (decision : PolicyDecision) (relays : Relays app decision)
    (distinct : (decision.nextHops.map fun hop => renderPeer hop.address hop.port).Nodup)
    (process : Process) (globalConfig : GlobalConfig) (nextHop : Option (String × Nat))
    (actions : List CallAction) (last : CallConfig)
    (ran : (callSystem app).run (Config.initial (process.newCall globalConfig nextHop)) actions =
      some last) :
    FailoversTraced app (process.newCall globalConfig nextHop) actions last ↔
      CallAlong app (fun config action _ => ∀ failed hop, ¬FailoverFrom config action failed hop)
        (process.newCall globalConfig nextHop) actions := by
  constructor
  · intro traced
    by_contra broken
    obtain ⟨earlier, action, later, config, next, split, reached, taken, along, fails⟩ :=
      System.exists_first_of_not_along broken
    simp only [not_forall, not_not] at fails
    obtain ⟨failed, hop, failover⟩ := fails
    have unfailed : Unfailed process decision (process.newCall globalConfig nextHop) config := by
      apply System.Reaches.invariant
        (Unfailed process decision (process.newCall globalConfig nextHop))
        (unfailed_initial process decision globalConfig nextHop) _
        (System.Reaches.of_run_along earlier reached along)
      exact fun config action next unfailed allowed taken => unfailed.step relays allowed taken
    obtain ⟨past, silent⟩ := unfailed.past relays distinct failover taken
    rw [split, System.run_append reached, System.run, taken] at ran
    exact not_tracedFailover silent (past.run relays ran)
      (traced earlier action later config next failed hop split reached taken failover).1
  · intro along earlier action later config next failed hop split reached taken failover
    rw [split] at along
    exact absurd failover (along.at_step reached taken failed hop)

/-- The first hop fails and the second gets the same event. -/
def sampleFailover : List CallAction :=
  sampleOpening ++ [.enter (.raises (.leg 0) sampleFail), .comeBack]

theorem failoversTraced_iff_failover :
    ∃ last, (callSystem (App.deciding (sampleRelay [sampleHop "1", sampleHop "2"]))).run
        (Config.initial sampleWorld) sampleFailover = some last ∧
      (FailoversTraced (App.deciding (sampleRelay [sampleHop "1", sampleHop "2"])) sampleWorld
          sampleFailover last ↔
        CallAlong (App.deciding (sampleRelay [sampleHop "1", sampleHop "2"]))
          (fun config action _ => ∀ failed hop, ¬FailoverFrom config action failed hop)
          sampleWorld sampleFailover) :=
  ⟨_, rfl, failoversTraced_iff _ (sampleRelay [sampleHop "1", sampleHop "2"])
    ⟨fun _ _ => rfl, rfl, List.cons_ne_nil _ _⟩ (by decide) sampleProcess
    { sipAddress := some "192.0.2.1" } none sampleFailover _ rfl⟩

/-- The warning names the hop that failed, the trace the one that is tried instead, after its
INVITE. -/
theorem not_failoversTraced :
    Relays (App.deciding (sampleRelay [sampleHop "1", sampleHop "2"]))
        (sampleRelay [sampleHop "1", sampleHop "2"]) ∧
      (∃ config next, (callSystem (App.deciding (sampleRelay [sampleHop "1", sampleHop "2"]))).run
          (Config.initial sampleWorld) sampleOpening = some config ∧
        (callSystem (App.deciding (sampleRelay [sampleHop "1", sampleHop "2"]))).step config
          (.enter (.raises (.leg 0) sampleFail)) = some next ∧
        Warned (sampleHop "1") config next) ∧
      ∃ last, (callSystem (App.deciding (sampleRelay [sampleHop "1", sampleHop "2"]))).run
          (Config.initial sampleWorld) sampleFailover = some last ∧
        last.frames.length = 0 ∧
        (sampleWorld.recordedSince last.state).map (fun event =>
          (event.method, event.peer, event.attributes.get? "failed_hop")) =
            [("INVITE", "192.0.2.9:5060", none), ("INVITE", "198.51.100.1:5060", none),
              ("INVITE", "198.51.100.2:5060", none),
              ("503", "198.51.100.2:5060", some (.str "2"))] ∧
        ¬FailoversTraced (App.deciding (sampleRelay [sampleHop "1", sampleHop "2"])) sampleWorld
          sampleFailover last := by
  refine ⟨⟨fun _ _ => rfl, rfl, List.cons_ne_nil _ _⟩, ⟨_, _, rfl, rfl, ?_⟩,
    _, rfl, rfl, by decide, ?_⟩
  · exact fun _ => ⟨_, List.mem_of_getElem? (i := 0) rfl, rfl, rfl, by decide⟩
  intro traced
  have once := (traced sampleOpening (.enter (.raises (.leg 0) sampleFail)) [.comeBack] _ _
    (sampleHop "1") (sampleHop "2") rfl rfl rfl
    ⟨⟨.leg 0, sampleFail, rfl, rfl, by decide⟩, rfl, rfl⟩).1.once
  revert once
  decide

end AsPlatform
