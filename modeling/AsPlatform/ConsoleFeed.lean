/-
The live event feed of the console.

One connection of `/ws/events` polls the trace recorder.  A poll reads the recorder
twice, and calls may be recorded before, between and after the two reads.
-/

import AsPlatform.Library.Transition
import AsPlatform.Observability.Retention
import Mathlib.Data.List.Perm.Subperm

namespace AsPlatform

open Recency

def wsMaxTraces : Nat := 50

/-- What one poll read and sent; `previous` is what was known at the poll before, or
when the console connected.  Where `recent()` was not read, `retained` is `current`. -/
structure Poll where
  previous : List String
  current : List String
  retained : List String
  batch : List CallTrace

/-- `pending` has `current_ids` and `new_ids` between the two reads of a poll. -/
structure ConsoleFeed where
  tracer : TraceRecorder
  seenCallIds : List String
  pending : Option (List String × List String) := none
  lastKnown : List String
  polls : List Poll := []

/-- `seen_call_ids = set(tracer.known_call_ids())`. -/
def ConsoleFeed.connect (tracer : TraceRecorder) : ConsoleFeed :=
  { tracer := tracer
    seenCallIds := tracer.knownCallIds
    lastKnown := tracer.knownCallIds }

inductive FeedAction where
  | record (event : TraceEvent)
  | readKnown
  | readRecent

namespace ConsoleFeed

/-- The first read: `current_ids`, and the ones among them not seen before. -/
def readKnown (feed : ConsoleFeed) : ConsoleFeed :=
  let currentIds := feed.tracer.knownCallIds
  let newIds := currentIds.filter fun callId => callId ∉ feed.seenCallIds
  if newIds = [] then
    { feed with
      lastKnown := currentIds
      polls := feed.polls ++ [⟨feed.lastKnown, currentIds, currentIds, []⟩] }
  else
    { feed with pending := some (currentIds, newIds) }

/-- The second read, the batch that is sent, and `seen_call_ids = current_ids`. -/
def readRecent (feed : ConsoleFeed) (currentIds newIds : List String) : ConsoleFeed :=
  let recent := feed.tracer.recent wsMaxTraces
  let batch := recent.filter fun trace => trace.callId ∈ newIds
  { feed with
    seenCallIds := currentIds
    pending := none
    lastKnown := currentIds
    polls := feed.polls ++ [⟨feed.lastKnown, currentIds, feed.tracer.knownCallIds, batch⟩] }

def step (feed : ConsoleFeed) : FeedAction → Option ConsoleFeed
  | .record event => some { feed with tracer := feed.tracer.record event }
  | .readKnown =>
      match feed.pending with
      | none => some feed.readKnown
      | some _ => none
  | .readRecent =>
      match feed.pending with
      | none => none
      | some (currentIds, newIds) => some (feed.readRecent currentIds newIds)

/-- Every call that became known at a poll and is still retained when the traces are
read is in the batch of that poll or of a later one. -/
def NothingLost (feed : ConsoleFeed) : Prop :=
  ∀ earlier poll later, feed.polls = earlier ++ poll :: later →
    ∀ callId, callId ∈ poll.current → callId ∉ poll.previous → callId ∈ poll.retained →
      ∃ sender, sender ∈ poll :: later ∧ callId ∈ sender.batch.map CallTrace.callId

def newCallIds (feed : ConsoleFeed) : List String :=
  (feed.pending.map Prod.snd).getD []

/-- When the traces are read, fewer than `wsMaxTraces` other calls have been recorded
since each of the new ones that is still known. -/
def Fits (feed : ConsoleFeed) : FeedAction → Prop
  | .readRecent =>
      ∀ callId, callId ∈ feed.newCallIds → callId ∈ feed.tracer.knownCallIds →
        (since callId (feed.tracer.recorded.map TraceEvent.callId)).dedup.length < wsMaxTraces
  | .record _ => True
  | .readKnown => True

instance (feed : ConsoleFeed) : ∀ action, Decidable (feed.Fits action)
  | .readRecent =>
      inferInstanceAs (Decidable (∀ callId, callId ∈ feed.newCallIds →
        callId ∈ feed.tracer.knownCallIds →
          (since callId (feed.tracer.recorded.map TraceEvent.callId)).dedup.length <
            wsMaxTraces))
  | .record _ | .readKnown => .isTrue trivial

/-! ### One poll -/

theorem mem_take_known_iff {tracer : TraceRecorder} (faithful : tracer.Faithful) (count : Nat)
    (callId : String) :
    callId ∈ tracer.knownCallIds.take count ↔ callId ∈ tracer.knownCallIds ∧
      (since callId (tracer.recorded.map TraceEvent.callId)).dedup.length < count := by
  unfold TraceRecorder.knownCallIds
  rw [faithful.keys, take_reverse_recent, List.mem_reverse, List.mem_reverse, mem_recent_iff,
    mem_recent_iff, Nat.lt_min, and_comm (a := _ < count), and_assoc]

/-- A new call is sent exactly if it is retained and is one of the calls recorded last. -/
theorem mem_batch_iff {tracer : TraceRecorder} (faithful : tracer.Faithful)
    {newIds : List String} {callId : String} (new : callId ∈ newIds) :
    callId ∈ ((tracer.recent wsMaxTraces).filter
        (fun trace => trace.callId ∈ newIds)).map CallTrace.callId ↔
      callId ∈ tracer.knownCallIds ∧
        (since callId (tracer.recorded.map TraceEvent.callId)).dedup.length < wsMaxTraces := by
  rw [← mem_take_known_iff faithful, TraceRecorder.recent_eq_map]
  constructor
  · intro member
    obtain ⟨trace, kept, rfl⟩ := List.mem_map.mp member
    obtain ⟨known, inside, rfl⟩ := List.mem_map.mp (List.mem_of_mem_filter kept)
    exact inside
  · intro inside
    refine List.mem_map.mpr ⟨tracer.traceFor callId, ?_, rfl⟩
    exact List.mem_filter.mpr ⟨List.mem_map.mpr ⟨callId, inside, rfl⟩,
      decide_eq_true new⟩

structure Watching (feed : ConsoleFeed) : Prop where
  faithful : feed.tracer.Faithful
  distinct : feed.lastKnown.Nodup
  bounded : feed.lastKnown.length ≤ feed.tracer.knownCallIds.length
  seen : ∀ callId, callId ∈ feed.seenCallIds ↔ callId ∈ feed.lastKnown
  polling : ∀ currentIds newIds, feed.pending = some (currentIds, newIds) →
    newIds = currentIds.filter (fun callId => callId ∉ feed.seenCallIds) ∧
      currentIds.Nodup ∧ currentIds.length ≤ feed.tracer.knownCallIds.length
  nothingLost : feed.NothingLost

theorem knownCallIds_nodup (tracer : TraceRecorder) : tracer.knownCallIds.Nodup :=
  List.nodup_reverse.mpr tracer.traces.keys_nodup

theorem length_knownCallIds_record {tracer : TraceRecorder} (faithful : tracer.Faithful)
    (event : TraceEvent) :
    tracer.knownCallIds.length ≤ (tracer.record event).knownCallIds.length := by
  have before := faithful.keys
  have after := (faithful.record event).keys
  unfold TraceRecorder.knownCallIds
  rw [List.length_reverse, List.length_reverse, before, after]
  have mono := recent_length_mono tracer.maxCalls (tracer.recorded.map TraceEvent.callId)
    event.callId
  rwa [← List.map_singleton (f := TraceEvent.callId), ← List.map_append] at mono

theorem Watching.connect {tracer : TraceRecorder} (faithful : tracer.Faithful) :
    (ConsoleFeed.connect tracer).Watching where
  faithful := faithful
  distinct := knownCallIds_nodup tracer
  bounded := Nat.le_refl _
  seen _ := Iff.rfl
  polling _ _ pending := by cases pending
  nothingLost := by
    intro earlier poll later split
    simp [ConsoleFeed.connect] at split

theorem Watching.record {feed : ConsoleFeed} (watching : feed.Watching) (event : TraceEvent) :
    Watching { feed with tracer := feed.tracer.record event } where
  faithful := watching.faithful.record event
  distinct := watching.distinct
  bounded := Nat.le_trans watching.bounded (length_knownCallIds_record watching.faithful event)
  seen := watching.seen
  polling currentIds newIds pending := by
    obtain ⟨new, distinct, bounded⟩ := watching.polling currentIds newIds pending
    exact ⟨new, distinct,
      Nat.le_trans bounded (length_knownCallIds_record watching.faithful event)⟩
  nothingLost := watching.nothingLost

/-- A further poll loses nothing if all that is new to it is sent. -/
theorem NothingLost.append {feed next : ConsoleFeed} (nothingLost : feed.NothingLost)
    {poll : Poll} (polls : next.polls = feed.polls ++ [poll])
    (sent : ∀ callId, callId ∈ poll.current → callId ∉ poll.previous →
      callId ∈ poll.retained → callId ∈ poll.batch.map CallTrace.callId) :
    next.NothingLost := by
  intro earlier known later split callId current previous retained
  rw [polls] at split
  rcases List.eq_nil_or_concat later with rfl | ⟨front, final, rfl⟩
  · obtain ⟨_, same⟩ := List.append_inj' split rfl
    cases same
    exact ⟨poll, List.mem_singleton.mpr rfl, sent callId current previous retained⟩
  · rw [List.concat_eq_append] at split ⊢
    have split' : feed.polls ++ [poll] = (earlier ++ known :: front) ++ [final] := by
      rw [split]
      simp
    obtain ⟨inner, _⟩ := List.append_inj' split' rfl
    obtain ⟨sender, member, inside⟩ :=
      nothingLost earlier known front inner callId current previous retained
    refine ⟨sender, ?_, inside⟩
    rw [← List.cons_append]
    exact List.mem_append_left _ member

/-- If nothing is new, exactly the calls of the last poll are known. -/
theorem Watching.unchanged {feed : ConsoleFeed} (watching : feed.Watching)
    (old : ∀ callId, callId ∈ feed.tracer.knownCallIds → callId ∈ feed.lastKnown)
    (callId : String) : callId ∈ feed.lastKnown ↔ callId ∈ feed.tracer.knownCallIds := by
  have subperm := List.subperm_of_subset (knownCallIds_nodup feed.tracer) old
  have perm := subperm.perm_of_length_le watching.bounded
  exact perm.mem_iff.symm

theorem Watching.readKnown {feed : ConsoleFeed} (watching : feed.Watching)
    (idle : feed.pending = none) : feed.readKnown.Watching := by
  have known := knownCallIds_nodup feed.tracer
  unfold ConsoleFeed.readKnown
  dsimp only
  split
  · rename_i nothing
    have old : ∀ callId, callId ∈ feed.tracer.knownCallIds → callId ∈ feed.lastKnown := by
      intro callId member
      rw [List.filter_eq_nil_iff] at nothing
      have seen := nothing callId member
      rw [← watching.seen]
      simpa using seen
    refine ⟨watching.faithful, known, Nat.le_refl _, ?_, ?_, ?_⟩
    · intro callId
      rw [watching.seen, watching.unchanged old]
    · intro currentIds newIds pending
      rw [idle] at pending
      cases pending
    · exact watching.nothingLost.append rfl
        (fun callId current previous _ => absurd (old callId current) previous)
  · refine ⟨watching.faithful, watching.distinct, watching.bounded, watching.seen, ?_,
      watching.nothingLost⟩
    intro currentIds newIds pending
    cases pending
    exact ⟨rfl, known, Nat.le_refl _⟩

theorem Watching.readRecent {feed : ConsoleFeed} (watching : feed.Watching)
    {currentIds newIds : List String} (pending : feed.pending = some (currentIds, newIds))
    (fits : feed.Fits .readRecent) : (feed.readRecent currentIds newIds).Watching := by
  obtain ⟨new, distinct, bounded⟩ := watching.polling currentIds newIds pending
  refine ⟨watching.faithful, distinct, bounded, fun _ => Iff.rfl, ?_, ?_⟩
  · intro current other impossible
    cases impossible
  · apply watching.nothingLost.append rfl
    intro callId current previous retained
    have isNew : callId ∈ newIds := by
      rw [new, List.mem_filter]
      have unseen := fun seen => previous ((watching.seen callId).mp seen)
      exact ⟨current, by simpa using unseen⟩
    exact (mem_batch_iff watching.faithful isNew).mpr
      ⟨retained, fits callId (by rw [newCallIds, pending]; exact isNew) retained⟩

theorem Watching.step {feed next : ConsoleFeed} {action : FeedAction}
    (watching : feed.Watching) (fits : feed.Fits action)
    (taken : feed.step action = some next) : next.Watching := by
  cases action with
  | record event =>
      cases taken
      exact watching.record event
  | readKnown =>
      cases idle : feed.pending with
      | some reads => simp [ConsoleFeed.step, idle] at taken
      | none =>
          simp only [ConsoleFeed.step, idle, Option.some.injEq] at taken
          rw [← taken]
          exact watching.readKnown idle
  | readRecent =>
      cases pending : feed.pending with
      | none => simp [ConsoleFeed.step, pending] at taken
      | some reads =>
          simp only [ConsoleFeed.step, pending, Option.some.injEq] at taken
          rw [← taken]
          exact watching.readRecent pending fits

end ConsoleFeed

def TraceRecorder.after (maxCalls : Nat) (events : List TraceEvent) : TraceRecorder :=
  events.foldl TraceRecorder.record { maxCalls := maxCalls }

theorem TraceRecorder.faithful_after (maxCalls : Nat) (events : List TraceEvent) :
    (TraceRecorder.after maxCalls events).Faithful := by
  induction events using List.reverseRecOn with
  | nil => exact faithful_empty maxCalls
  | append_singleton events last ih =>
      rw [TraceRecorder.after, List.foldl_append]
      exact ih.record last

/-- The feed loses no call as long as, whenever it reads the traces, fewer than
`wsMaxTraces` other calls have been recorded since each known call it is about to
report. -/
theorem nothingLost_of_fits (maxCalls : Nat) (before : List TraceEvent)
    (actions : List FeedAction) (last : ConsoleFeed)
    (fits : Transition.Along ConsoleFeed.step (fun feed action _ => feed.Fits action)
      (ConsoleFeed.connect (TraceRecorder.after maxCalls before)) actions)
    (ran : Transition.run ConsoleFeed.step
      (ConsoleFeed.connect (TraceRecorder.after maxCalls before)) actions = some last) :
    last.NothingLost := by
  have watching := Transition.invariant_of_along ConsoleFeed.Watching
    (fun _ _ _ watching allowed taken => watching.step allowed taken)
    (ConsoleFeed.Watching.connect (TraceRecorder.faithful_after maxCalls before)) fits ran
  exact watching.nothingLost

def sampleCall (index : Nat) : TraceEvent :=
  { callId := String.singleton (Char.ofNat (index + 65))
    direction := "in"
    method := "INVITE"
    summary := "invite received from the trunk" }

/-- Calls are recorded before and between the two reads of a poll. -/
theorem nothingLost_of_fits_between :
    ∃ last, Transition.run ConsoleFeed.step (ConsoleFeed.connect (TraceRecorder.after 2 []))
        [.record (sampleCall 0), .readKnown, .record (sampleCall 1), .readRecent] = some last ∧
      last.NothingLost :=
  ⟨_, rfl, nothingLost_of_fits 2 []
    [.record (sampleCall 0), .readKnown, .record (sampleCall 1), .readRecent] _
    (by decide) rfl⟩

/-- Of 51 calls that became known since the last poll the oldest is never sent. -/
theorem not_nothingLost :
    ∃ last, Transition.run ConsoleFeed.step
        (ConsoleFeed.connect (TraceRecorder.after defaultMaxTracedCalls []))
        ((List.range 51).map (fun index => .record (sampleCall index)) ++
          [.readKnown, .readRecent]) = some last ∧
      ¬last.NothingLost := by
  have polled : (Transition.run ConsoleFeed.step
      (ConsoleFeed.connect (TraceRecorder.after defaultMaxTracedCalls []))
      ((List.range 51).map (fun index => .record (sampleCall index)) ++
        [.readKnown, .readRecent])).map (fun feed => feed.polls.map fun poll =>
          ("A" ∈ poll.current ∧ "A" ∉ poll.previous ∧ "A" ∈ poll.retained ∧
            "A" ∉ poll.batch.map CallTrace.callId : Bool)) = some [true] := by
    decide +kernel
  obtain ⟨last, ran, polls⟩ := Option.map_eq_some_iff.mp polled
  refine ⟨last, ran, ?_⟩
  obtain ⟨poll, only, lost⟩ := List.map_eq_singleton_iff.mp polls
  rw [decide_eq_true_eq] at lost
  obtain ⟨current, previous, retained, absent⟩ := lost
  intro nothingLost
  obtain ⟨sender, member, sent⟩ :=
    nothingLost [] poll [] only "A" current previous retained
  rw [List.mem_singleton.mp member] at sent
  exact absent sent

end AsPlatform
