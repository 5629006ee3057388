/-
What the bounded trace store retains.

Retention is a consequence of two operations on the dictionary, the move to the end and
the eviction from the front.  On the history of what was recorded it comes to this: the
known calls are the ones recorded last, and of each call the events are kept since the
last time that as many other calls came in between as the store holds.
-/

import AsPlatform.Library.Recency
import AsPlatform.Observability.Tracing

namespace AsPlatform

open Recency

/-- In this stretch of the history fewer than `limit` other calls were recorded between
any two consecutive events of the call, and after the last of them. -/
def Unbroken (limit : Nat) (callId : String) (stretch : List TraceEvent) : Prop :=
  ∀ earlier event gap later, stretch = earlier ++ event :: (gap ++ later) →
    event.callId = callId → (∀ other, other ∈ gap → other.callId ≠ callId) →
      (gap.map TraceEvent.callId).dedup.length < limit

def eventsOf (callId : String) (history : List TraceEvent) : List TraceEvent :=
  history.filter fun event => event.callId = callId

/-- The longest suffix of the events of a call that is unbroken up to the present. -/
def Retained (limit : Nat) (callId : String) (history events : List TraceEvent) : Prop :=
  ∃ stretch, stretch <:+ history ∧ Unbroken limit callId stretch ∧
    events = eventsOf callId stretch ∧
    ∀ other, other <:+ history → Unbroken limit callId other →
      (eventsOf callId other).length ≤ events.length

/-! ### Unbroken stretches -/

theorem unbroken_nil (limit : Nat) (callId : String) : Unbroken limit callId [] := by
  intro earlier event gap later split
  simp at split

theorem Unbroken.of_append {limit : Nat} {callId : String} {stretch later : List TraceEvent}
    (unbroken : Unbroken limit callId (stretch ++ later)) : Unbroken limit callId stretch := by
  intro earlier event gap rest split same apart
  exact unbroken earlier event gap (rest ++ later) (by rw [split]; simp) same apart

/-- The others since the last event of the call are the last of the gaps. -/
theorem Unbroken.since {limit : Nat} {callId : String} {stretch : List TraceEvent}
    (unbroken : Unbroken limit callId stretch)
    (recorded : callId ∈ stretch.map TraceEvent.callId) :
    (since callId (stretch.map TraceEvent.callId)).dedup.length < limit := by
  obtain ⟨earlierIds, split⟩ := split_last recorded
  obtain ⟨earlier, rest, rfl, _, restIds⟩ := List.map_eq_append_iff.mp split
  obtain ⟨event, gap, rfl, same, gapIds⟩ := List.map_eq_cons_iff.mp restIds
  have apart : ∀ other, other ∈ gap → other.callId ≠ callId := by
    intro other member equal
    have inside : callId ∈ gap.map TraceEvent.callId := List.mem_map.mpr ⟨other, member, equal⟩
    rw [gapIds] at inside
    exact not_mem_since callId _ inside
  have few := unbroken earlier event gap [] (by simp) same apart
  rwa [gapIds] at few

theorem unbroken_append_same {limit : Nat} {callId : String} {stretch : List TraceEvent}
    (unbroken : Unbroken limit callId stretch) (positive : 0 < limit) {last : TraceEvent}
    (same : last.callId = callId) : Unbroken limit callId (stretch ++ [last]) := by
  intro earlier event gap later split here apart
  -- either the event is the last one, or the gap ends before the last one
  rcases List.eq_nil_or_concat later with rfl | ⟨front, final, rfl⟩
  · cases gap with
    | nil => exact positive
    | cons first rest =>
        exfalso
        have lasts := congrArg List.getLast? split
        simp only [List.append_nil, List.getLast?_append, List.getLast?_cons,
          Option.some_or] at lasts
        have inside : last ∈ first :: rest := by
          have found : (first :: rest).getLast? = some last := by
            rw [List.getLast?_cons]
            simpa using lasts.symm
          exact List.mem_of_getLast? found
        exact apart last inside same
  · have split' : stretch ++ [last] = (earlier ++ event :: (gap ++ front)) ++ [final] := by
      rw [split]
      simp
    have inner := (List.append_inj' split' rfl).1
    exact unbroken earlier event gap front inner here apart

theorem unbroken_append_other {limit : Nat} {callId : String} {stretch : List TraceEvent}
    (unbroken : Unbroken limit callId stretch) {last : TraceEvent}
    (few : callId ∈ (stretch ++ [last]).map TraceEvent.callId →
      (since callId ((stretch ++ [last]).map TraceEvent.callId)).dedup.length < limit) :
    Unbroken limit callId (stretch ++ [last]) := by
  intro earlier event gap later split here apart
  rcases List.eq_nil_or_concat later with rfl | ⟨front, final, rfl⟩
  · -- the gap reaches the present
    rw [List.append_nil] at split
    have recorded : callId ∈ (stretch ++ [last]).map TraceEvent.callId := by
      rw [split]
      simp [here]
    have gapIs : since callId ((stretch ++ [last]).map TraceEvent.callId) =
        gap.map TraceEvent.callId := by
      rw [split, List.map_append, List.map_cons, here]
      apply since_split
      rintro inside
      obtain ⟨other, member, same⟩ := List.mem_map.mp inside
      exact apart other member same
    rw [← gapIs]
    exact few recorded
  · have split' : stretch ++ [last] = (earlier ++ event :: (gap ++ front)) ++ [final] := by
      rw [split]
      simp
    have inner := (List.append_inj' split' rfl).1
    exact unbroken earlier event gap front inner here apart

/-! ### The retained events -/

theorem eventsOf_append_same {callId : String} (history : List TraceEvent) {last : TraceEvent}
    (same : last.callId = callId) :
    eventsOf callId (history ++ [last]) = eventsOf callId history ++ [last] := by
  simp [eventsOf, same]

theorem eventsOf_append_other {callId : String} (history : List TraceEvent) {last : TraceEvent}
    (different : last.callId ≠ callId) :
    eventsOf callId (history ++ [last]) = eventsOf callId history := by
  simp [eventsOf, different]

theorem eventsOf_eq_nil {callId : String} {history : List TraceEvent}
    (absent : callId ∉ history.map TraceEvent.callId) : eventsOf callId history = [] := by
  rw [eventsOf, List.filter_eq_nil_iff]
  intro event member
  have different : event.callId ≠ callId :=
    fun same => absent (List.mem_map.mpr ⟨event, member, same⟩)
  simpa using different

theorem suffix_append_singleton {stretch history : List TraceEvent} {last : TraceEvent}
    (suffix : stretch <:+ history ++ [last]) :
    stretch = [] ∨ ∃ front, stretch = front ++ [last] ∧ front <:+ history := by
  obtain ⟨earlier, split⟩ := suffix
  rcases List.eq_nil_or_concat stretch with rfl | ⟨front, final, rfl⟩
  · exact Or.inl rfl
  · rw [List.concat_eq_append, ← List.append_assoc] at split
    rw [List.concat_eq_append]
    obtain ⟨inner, finals⟩ := List.append_inj' split rfl
    rw [List.singleton_inj] at finals
    subst finals
    exact Or.inr ⟨front, rfl, ⟨earlier, inner⟩⟩

theorem retained_of_not_recent {limit : Nat} {callId : String} {history : List TraceEvent}
    (forgotten : callId ∉ Recency.recent limit (history.map TraceEvent.callId)) :
    Retained limit callId history [] := by
  have none : ∀ stretch, stretch <:+ history → Unbroken limit callId stretch →
      eventsOf callId stretch = [] := by
    rintro stretch ⟨earlier, rfl⟩ unbroken
    apply eventsOf_eq_nil
    intro recorded
    apply forgotten
    rw [mem_recent_iff, List.map_append]
    refine ⟨List.mem_append_right _ recorded, ?_⟩
    have few := unbroken.since recorded
    obtain ⟨before, split⟩ := split_last recorded
    rw [split, ← List.append_assoc, since_split _ (not_mem_since _ _)]
    exact few
  refine ⟨[], List.nil_suffix, unbroken_nil limit callId, rfl, ?_⟩
  intro other suffix unbroken
  rw [none other suffix unbroken]

theorem Retained.append_same {limit : Nat} {callId : String}
    {history events : List TraceEvent} (retained : Retained limit callId history events)
    (positive : 0 < limit) {last : TraceEvent} (same : last.callId = callId) :
    Retained limit callId (history ++ [last]) (events ++ [last]) := by
  obtain ⟨stretch, suffix, unbroken, rfl, longest⟩ := retained
  refine ⟨stretch ++ [last], ?_, unbroken_append_same unbroken positive same,
    (eventsOf_append_same stretch same).symm, ?_⟩
  · obtain ⟨earlier, split⟩ := suffix
    exact ⟨earlier, by rw [← List.append_assoc, split]⟩
  · intro other otherSuffix otherUnbroken
    rcases suffix_append_singleton otherSuffix with rfl | ⟨front, rfl, frontSuffix⟩
    · exact Nat.zero_le _
    · have shorter := longest front frontSuffix otherUnbroken.of_append
      rw [eventsOf_append_same front same, List.length_append, List.length_append]
      exact Nat.add_le_add_right shorter 1

theorem Retained.append_other {limit : Nat} {callId : String}
    {history events : List TraceEvent} (retained : Retained limit callId history events)
    {last : TraceEvent} (different : last.callId ≠ callId)
    (known : callId ∈ Recency.recent limit ((history ++ [last]).map TraceEvent.callId)) :
    Retained limit callId (history ++ [last]) events := by
  obtain ⟨stretch, ⟨earlier, rfl⟩, unbroken, rfl, longest⟩ := retained
  refine ⟨stretch ++ [last], ⟨earlier, by rw [List.append_assoc]⟩, ?_,
    (eventsOf_append_other stretch different).symm, ?_⟩
  · apply unbroken_append_other unbroken
    intro recorded
    obtain ⟨_, few⟩ := (mem_recent_iff _ _ _).mp known
    obtain ⟨before, split⟩ := split_last recorded
    rwa [List.append_assoc, List.map_append, split, ← List.append_assoc,
      since_split _ (not_mem_since _ _)] at few
  · intro other otherSuffix otherUnbroken
    rcases suffix_append_singleton otherSuffix with rfl | ⟨front, rfl, frontSuffix⟩
    · exact Nat.zero_le _
    · rw [eventsOf_append_other front different]
      exact longest front frontSuffix otherUnbroken.of_append

/-! ### The recorder -/

namespace TraceRecorder

structure Faithful (recorder : TraceRecorder) : Prop where
  keys : recorder.traces.keys =
    Recency.recent recorder.maxCalls (recorder.recorded.map TraceEvent.callId)
  events : ∀ callId,
    Retained recorder.maxCalls callId recorder.recorded (recorder.traceFor callId).events

theorem faithful_empty (maxCalls : Nat) : ({ maxCalls := maxCalls } : TraceRecorder).Faithful where
  keys := by simp [Recency.recent]
  events callId := retained_of_not_recent (by simp [Recency.recent])

theorem entries_record (recorder : TraceRecorder) (event : TraceEvent) :
    (recorder.record event).traces.entries =
      (recorder.traces.entries.filter (fun item => item.1 ≠ event.callId) ++
        [(event.callId, (recorder.traceFor event.callId).events ++ [event])]).rtake
          recorder.maxCalls := by
  unfold record
  rw [OrderedDict.entries_shrink, OrderedDict.entries_insert_moveToEnd]
  rfl

theorem keys_record (recorder : TraceRecorder) (event : TraceEvent) :
    (recorder.record event).traces.keys =
      (recorder.traces.keys.filter (fun callId => callId ≠ event.callId) ++
        [event.callId]).rtake recorder.maxCalls := by
  rw [OrderedDict.keys, entries_record, map_rtake, List.map_append, OrderedDict.keys,
    List.filter_map]
  rfl

theorem events_record (recorder : TraceRecorder) (event : TraceEvent) {callId : String}
    (known : callId ∈ (recorder.record event).traces.keys) :
    ((recorder.record event).traceFor callId).events =
      if event.callId = callId then (recorder.traceFor callId).events ++ [event]
      else (recorder.traceFor callId).events := by
  obtain ⟨events, stored⟩ := (OrderedDict.mem_keys_iff _ _).mp known
  have member := (OrderedDict.get?_eq_some_iff _ _ _).mp stored
  rw [entries_record] at member
  have inside := (rtake_suffix _ _).subset member
  unfold traceFor
  rw [stored, Option.getD_some]
  rcases List.mem_append.mp inside with older | newest
  · obtain ⟨before, different⟩ := List.mem_filter.mp older
    have apart : callId ≠ event.callId := by simpa using different
    rw [if_neg (Ne.symm apart), (OrderedDict.get?_eq_some_iff _ _ _).mpr before,
      Option.getD_some]
  · cases List.mem_singleton.mp newest
    rw [if_pos rfl]
    rfl

theorem events_of_unknown (recorder : TraceRecorder) {callId : String}
    (unknown : callId ∉ recorder.traces.keys) : (recorder.traceFor callId).events = [] := by
  unfold traceFor
  rw [(OrderedDict.get?_eq_none_iff _ _).mpr unknown, Option.getD_none]

/-- The traces come with the known calls, in the same order. -/
theorem recent_eq_map (recorder : TraceRecorder) (limit : Nat) :
    recorder.recent limit = (recorder.knownCallIds.take limit).map recorder.traceFor := by
  unfold recent knownCallIds OrderedDict.keys
  rw [sliceTo_natCast, ← List.map_reverse, ← List.map_take, List.map_map]
  apply List.map_congr_left
  intro item member
  have stored : recorder.traces.get? item.1 = some item.2 :=
    (OrderedDict.get?_eq_some_iff _ _ _).mpr
      (List.mem_reverse.mp (List.mem_of_mem_take member))
  rw [Function.comp_apply, traceFor, stored, Option.getD_some]

theorem Faithful.record {recorder : TraceRecorder} (faithful : recorder.Faithful)
    (event : TraceEvent) : (recorder.record event).Faithful := by
  have recorded : (recorder.record event).recorded = recorder.recorded ++ [event] := rfl
  have bound : (recorder.record event).maxCalls = recorder.maxCalls := rfl
  have keys : (recorder.record event).traces.keys =
      Recency.recent recorder.maxCalls
        ((recorder.recorded ++ [event]).map TraceEvent.callId) := by
    rw [keys_record, List.map_append, List.map_singleton, recent_append_singleton,
      faithful.keys]
  refine ⟨by rw [keys, bound, recorded], ?_⟩
  intro callId
  rw [recorded, bound]
  by_cases known : callId ∈ (recorder.record event).traces.keys
  · rw [events_record recorder event known]
    rw [keys] at known
    split
    · rename_i same
      have positive : 0 < recorder.maxCalls :=
        Nat.lt_of_lt_of_le (List.length_pos_of_mem known) (recent_length _ _)
      exact (faithful.events callId).append_same positive same
    · rename_i different
      exact (faithful.events callId).append_other different known
  · rw [events_of_unknown _ known]
    rw [keys] at known
    exact retained_of_not_recent known

theorem faithful_clear (recorder : TraceRecorder) : recorder.clear.Faithful :=
  faithful_empty recorder.maxCalls

end TraceRecorder

/-! ### Runs -/

inductive TraceOp where
  | record (event : TraceEvent)
  | clear

def TraceRecorder.perform (recorder : TraceRecorder) : TraceOp → TraceRecorder
  | .record event => recorder.record event
  | .clear => recorder.clear

def sinceClear (operations : List TraceOp) : List TraceEvent :=
  operations.foldl
    (fun history operation =>
      match operation with
      | .record event => history ++ [event]
      | .clear => [])
    []

theorem faithful_run (maxCalls : Nat) (operations : List TraceOp) :
    let recorder := operations.foldl TraceRecorder.perform { maxCalls := maxCalls }
    recorder.maxCalls = maxCalls ∧ recorder.recorded = sinceClear operations ∧
      recorder.Faithful := by
  induction operations using List.reverseRecOn with
  | nil => exact ⟨rfl, rfl, TraceRecorder.faithful_empty maxCalls⟩
  | append_singleton operations last ih =>
      obtain ⟨bound, recorded, faithful⟩ := ih
      unfold sinceClear at recorded ⊢
      simp only [List.foldl_append, List.foldl_cons, List.foldl_nil]
      cases last with
      | record event => exact ⟨bound, by rw [← recorded]; rfl, faithful.record event⟩
      | clear => exact ⟨bound, rfl, TraceRecorder.faithful_clear _⟩

/-- After any operations the known calls are the ones recorded last, newest first, the
trace of every call is what is retained of its events, and the recent traces are those
of the first known calls. -/
theorem recorder_keeps_recent (maxCalls : Nat) (operations : List TraceOp) :
    let recorder := operations.foldl TraceRecorder.perform { maxCalls := maxCalls }
    let history := sinceClear operations
    recorder.knownCallIds =
        ((history.map TraceEvent.callId).dedup.reverse).take maxCalls ∧
      (∀ callId, Retained maxCalls callId history (recorder.traceFor callId).events) ∧
      ∀ limit : Nat,
        recorder.recent limit = (recorder.knownCallIds.take limit).map recorder.traceFor := by
  obtain ⟨bound, recorded, faithful⟩ := faithful_run maxCalls operations
  refine ⟨?_, ?_, fun limit => TraceRecorder.recent_eq_map _ limit⟩
  · unfold TraceRecorder.knownCallIds
    rw [faithful.keys, bound, recorded, Recency.recent, List.rtake_eq_reverse_take_reverse,
      List.reverse_reverse]
  · intro callId
    have retained := faithful.events callId
    rwa [bound, recorded] at retained

end AsPlatform
