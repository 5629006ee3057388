/-
What refused requests do to the traces of calls.

A refused request is traced like a call, under the Call-ID that it carries and in the same
bounded store.  To the trace of a call it does not name it can do one thing, which is to
take part in its eviction; to the trace of a call it names it adds its own event.
-/

import AsPlatform.CallController.Admission
import AsPlatform.Library.Merge
import AsPlatform.Observability.Retention

namespace AsPlatform

open Reentrant

/-! ### Retention under additions -/

section Additions

variable {limit : Nat} {callId : String} {kept added whole : List TraceEvent}

theorem eventsOf_merge (merge : Merge kept added whole)
    (others : ∀ event, event ∈ added → event.callId ≠ callId) :
    eventsOf callId whole = eventsOf callId kept :=
  merge.filter_whole (fun event member => decide_eq_false (others event member))

/-- Gaps become no longer when what lies in them is taken out. -/
theorem Unbroken.of_merge (merge : Merge kept added whole)
    (others : ∀ event, event ∈ added → event.callId ≠ callId)
    (unbroken : Unbroken limit callId whole) : Unbroken limit callId kept := by
  intro earlier event gap later split same apart
  subst split
  obtain ⟨_, _, before, rest, rfl, rfl, _, fromEvent⟩ := merge.cut_kept
  obtain ⟨between, addedBack, after, rfl, rfl, onward⟩ := fromEvent.cut_cons
  obtain ⟨addedGap, _, wholeGap, wholeLater, rfl, rfl, inGap, _⟩ := onward.cut_kept
  have apartToo : ∀ other, other ∈ wholeGap → other.callId ≠ callId := by
    intro other member
    rcases (inGap.mem_whole_iff other).mp member with here | inserted
    · exact apart other here
    · exact others other (by simp [inserted])
  have few := unbroken (before ++ between) event wholeGap wholeLater (by simp) same apartToo
  refine Nat.lt_of_le_of_lt ?_ few
  apply (List.nodup_dedup _).length_le_of_subset
  intro identifier member
  rw [List.mem_dedup, List.mem_map] at member ⊢
  obtain ⟨other, here, rfl⟩ := member
  exact ⟨other, (inGap.mem_whole_iff other).mpr (Or.inl here), rfl⟩

theorem Retained.suffix_eventsOf {history events : List TraceEvent}
    (retained : Retained limit callId history events) : events <:+ eventsOf callId history := by
  obtain ⟨stretch, suffix, _, rfl, _⟩ := retained
  exact suffix.filter _

variable {more fewer : List TraceEvent}

/-- With the additions no more is retained of a call that they do not name. -/
theorem Retained.suffix_of_merge (merge : Merge kept added whole)
    (others : ∀ event, event ∈ added → event.callId ≠ callId)
    (full : Retained limit callId whole fewer) (without : Retained limit callId kept more) :
    fewer <:+ more := by
  have fewerSuffix := full.suffix_eventsOf
  rw [eventsOf_merge merge others] at fewerSuffix
  refine List.suffix_of_suffix_length_le fewerSuffix without.suffix_eventsOf ?_
  obtain ⟨stretch, ⟨before, rfl⟩, unbroken, rfl, _⟩ := full
  obtain ⟨_, _, _, _, longest⟩ := without
  obtain ⟨_, keptBack, _, addedBack, rfl, rfl, _, back⟩ := merge.cut_whole
  have backOthers : ∀ event, event ∈ addedBack → event.callId ≠ callId :=
    fun event member => others event (List.mem_append_right _ member)
  rw [eventsOf_merge back backOthers]
  exact longest keptBack (List.suffix_append _ _) (unbroken.of_merge back backOthers)

/-- As much is retained exactly if, with the additions, the events still lie in an unbroken
stretch. -/
theorem Retained.eq_iff_of_merge (merge : Merge kept added whole)
    (others : ∀ event, event ∈ added → event.callId ≠ callId)
    (full : Retained limit callId whole fewer) (without : Retained limit callId kept more) :
    fewer = more ↔ ∃ stretch, stretch <:+ whole ∧ Unbroken limit callId stretch ∧
      eventsOf callId stretch = more := by
  constructor
  · rintro rfl
    obtain ⟨stretch, suffix, unbroken, events, _⟩ := full
    exact ⟨stretch, suffix, unbroken, events.symm⟩
  · rintro ⟨stretch, suffix, unbroken, rfl⟩
    have shorter := Retained.suffix_of_merge merge others full without
    obtain ⟨_, _, _, _, longest⟩ := full
    exact shorter.eq_of_length_le (longest stretch suffix unbroken)

end Additions

/-! ### The recorders of two runs -/

structure Overlaid (limit : Nat) (refusals : List TraceEvent) (left right : TraceRecorder) :
    Prop where
  leftBound : left.maxCalls = limit
  rightBound : right.maxCalls = limit
  recorded : Merge right.recorded refusals left.recorded
  leftFaithful : left.Faithful
  rightFaithful : right.Faithful

theorem overlaid_overlays (limit : Nat) : Overlays (Overlaid limit) where
  record _ _ _ event overlaid :=
    ⟨overlaid.leftBound, overlaid.rightBound, overlaid.recorded.append_kept event,
      overlaid.leftFaithful.record event, overlaid.rightFaithful.record event⟩
  refuse _ _ _ event overlaid :=
    ⟨overlaid.leftBound, overlaid.rightBound, overlaid.recorded.append_added event,
      overlaid.leftFaithful.record event, overlaid.rightFaithful⟩

theorem events_record_self (recorder : TraceRecorder) (event : TraceEvent)
    (positive : 0 < recorder.maxCalls) :
    ((recorder.record event).traceFor event.callId).events =
      (recorder.traceFor event.callId).events ++ [event] := by
  have known : event.callId ∈ (recorder.record event).traces.keys := by
    obtain ⟨bound, more⟩ := Nat.exists_eq_succ_of_ne_zero (Nat.ne_of_gt positive)
    rw [TraceRecorder.keys_record, more, List.rtake_concat_succ]
    exact List.mem_append_right _ (List.mem_singleton_self _)
  rw [TraceRecorder.events_record recorder event known, if_pos rfl]

/-- A refused request adds its own event to the trace of the call that it names. -/
def AddsRefusal (servers : Nat → AsInstance) (config : AsConfig) (action : AsAction)
    (next : AsConfig) : Prop :=
  ∀ refusal, refusalBy servers action = some refusal → 0 < config.state.tracer.maxCalls →
    (next.state.tracer.traceFor refusal.callId).events =
      (config.state.tracer.traceFor refusal.callId).events ++ [refusal]

theorem addsRefusal {servers : Nat → AsInstance} {config next : AsConfig} {action : AsAction}
    (taken : (asSystem servers).step config action = some next) :
    AddsRefusal servers config action next := by
  intro refusal refuses positive
  unfold refusalBy at refuses
  split at refuses
  · rename_i owner request
    rw [Option.ite_none_right_eq_some, Option.some.injEq] at refuses
    obtain ⟨refused, rfl⟩ := refuses
    obtain ⟨program, entered, rfl⟩ := System.step_enter.mp taken
    simp only [asSystem, Option.ite_none_right_eq_some, Option.some.injEq] at entered
    obtain ⟨_, rfl⟩ := entered
    rw [AsInstance.recvRequest_refused refused, settle_ok]
    exact events_record_self config.state.tracer _ positive
  · cases refuses

def dropsRefused (servers : Nat → AsInstance) (owner : Nat) (request : TrunkRequest) : Bool :=
  (servers owner).refuses request

def refusedCallIds (servers : Nat → AsInstance) (actions : List AsAction) : List String :=
  (actions.filterMap (refusalBy servers)).map TraceEvent.callId

structure OnlyEvicted (servers : Nat → AsInstance) (start : Interpreter)
    (actions : List AsAction) (last only : AsConfig) : Prop where
  history : Merge only.state.tracer.recorded (actions.filterMap (refusalBy servers))
    last.state.tracer.recorded
  suffix : ∀ callId, callId ∉ refusedCallIds servers actions →
    (last.state.tracer.traceFor callId).events <:+ (only.state.tracer.traceFor callId).events
  same_iff : ∀ callId, callId ∉ refusedCallIds servers actions →
    (last.state.tracer.traceFor callId = only.state.tracer.traceFor callId ↔
      ∃ stretch, stretch <:+ last.state.tracer.recorded ∧
        Unbroken start.tracer.maxCalls callId stretch ∧
          eventsOf callId stretch = (only.state.tracer.traceFor callId).events)
  named : (asSystem servers).Along (AddsRefusal servers) (Config.initial start) actions

/-- Refused requests can evict the trace of a call they do not name, exactly if they make
too many others come in between, and add their own events to that of a call they name. -/
theorem only_evicted (servers : Nat → AsInstance) (start : Interpreter)
    (faithful : start.tracer.Faithful) (actions : List AsAction) (last : AsConfig)
    (ran : (asSystem servers).run (Config.initial start) actions = some last) :
    ∃ only, (asSystem servers).run (Config.initial start)
        (actions.filter (leaves (dropsRefused servers))) = some only ∧
      OnlyEvicted servers start actions last only := by
  have outside : ∀ owner request, dropsRefused servers owner request = true →
      (servers owner).admits request = false := by
    intro owner request refused
    by_contra admitted
    rw [Bool.not_eq_false] at admitted
    rw [dropsRefused, AsInstance.not_refuses_of_admits admitted] at refused
    cases refused
  have initially : Overlaid start.tracer.maxCalls [] start.tracer start.tracer :=
    ⟨rfl, rfl, Merge.refl _, faithful, faithful⟩
  obtain ⟨only, onlyRan, beside⟩ := run_without_from (overlaid_overlays start.tracer.maxCalls)
    (fun _ _ refused => refused) outside initially actions ran
  have overlaid := beside.process.tracer
  have others : ∀ callId, callId ∉ refusedCallIds servers actions →
      ∀ event, event ∈ actions.filterMap (refusalBy servers) → event.callId ≠ callId := by
    intro callId unnamed event member same
    exact unnamed (List.mem_map.mpr ⟨event, member, same⟩)
  have full : ∀ callId, Retained start.tracer.maxCalls callId last.state.tracer.recorded
      (last.state.tracer.traceFor callId).events := by
    intro callId
    have retained := overlaid.leftFaithful.events callId
    rwa [overlaid.leftBound] at retained
  have without : ∀ callId, Retained start.tracer.maxCalls callId only.state.tracer.recorded
      (only.state.tracer.traceFor callId).events := by
    intro callId
    have retained := overlaid.rightFaithful.events callId
    rwa [overlaid.rightBound] at retained
  refine ⟨only, onlyRan, overlaid.recorded, ?_, ?_, ?_⟩
  · intro callId unnamed
    exact Retained.suffix_of_merge overlaid.recorded (others callId unnamed) (full callId)
      (without callId)
  · intro callId unnamed
    rw [← Retained.eq_iff_of_merge overlaid.recorded (others callId unnamed) (full callId)
      (without callId)]
    constructor
    · exact fun same => congrArg CallTrace.events same
    · exact fun same => congrArg (CallTrace.mk callId) same
  · exact System.along_of_invariant (fun _ => True) trivial
      (fun _ _ _ _ taken => ⟨trivial, addsRefusal taken⟩) actions

theorem only_evicted_mixed :
    ∃ last only,
      (asSystem sampleServer).run (Config.initial (sampleInterpreter 4)) sampleMixed = some last ∧
      (asSystem sampleServer).run (Config.initial (sampleInterpreter 4))
        (sampleMixed.filter (leaves (dropsRefused sampleServer))) = some only ∧
      OnlyEvicted sampleServer (sampleInterpreter 4) sampleMixed last only := by
  obtain ⟨only, onlyRan, evicted⟩ := only_evicted sampleServer (sampleInterpreter 4)
    (TraceRecorder.faithful_empty 4) sampleMixed _ rfl
  exact ⟨_, only, rfl, onlyRan, evicted⟩

def Untampered (servers : Nat → AsInstance) (start : Interpreter) (actions : List AsAction) :
    Prop :=
  ∀ last only, (asSystem servers).run (Config.initial start) actions = some last →
    (asSystem servers).run (Config.initial start)
      (actions.filter (leaves (dropsRefused servers))) = some only →
    ∀ admitted, admitted ∈ actions.filterMap (admittedBy servers) →
      last.state.tracer.traceFor admitted.2.callId = only.state.tracer.traceFor admitted.2.callId

/-- A refused request with the Call-ID of a call adds to its trace, and where the store
holds one call, a refused request with any other evicts it. -/
theorem not_untampered :
    ¬Untampered sampleServer (sampleInterpreter 4)
        (sampleAdmission ++ [.enter (.request 0 (sampleIntruder "a1@trunk"))]) ∧
      ¬Untampered sampleServer (sampleInterpreter 1)
        (sampleAdmission ++ [.enter (.request 0 (sampleIntruder "b2@trunk"))]) := by
  constructor
  · intro untampered
    have same := untampered _ _ rfl rfl (0, sampleInvite "a1@trunk") (by decide)
    have lengths := congrArg (fun trace => trace.events.length) same
    revert lengths
    decide
  · intro untampered
    have same := untampered _ _ rfl rfl (0, sampleInvite "a1@trunk") (by decide)
    have lengths := congrArg (fun trace => trace.events.length) same
    revert lengths
    decide

end AsPlatform
