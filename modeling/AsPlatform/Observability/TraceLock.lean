/-
The trace recorder behind its lock.

The places are the statements of the methods inside `with self._lock`.  An event list is
appended to and copied in steps of its own, so that without the lock a reader would
see a trace that is half written or has just been dropped.
-/

import AsPlatform.Library.Locking
import AsPlatform.Observability.Retention

namespace AsPlatform

inductive TraceCall where
  | record (event : TraceEvent)
  | traceFor (callId : String)
  | recent (limit : Int)
  | knownCallIds
  | clear

inductive TraceAnswer where
  | event (event : TraceEvent)
  | trace (trace : CallTrace)
  | traces (traces : List CallTrace)
  | callIds (callIds : List String)
  | cleared

inductive TracePlace where
  | setdefault (event : TraceEvent)
  | append (event : TraceEvent)
  | moveToEnd (event : TraceEvent)
  | whileAbove (event : TraceEvent)
  | popitem (event : TraceEvent)
  | get (callId : String)
  | copyEvents (callId : String)
  | items (limit : Int)
  | copyItems (left : List (String × List TraceEvent)) (copied : List CallTrace)
  | keys
  | clear

namespace TraceRecorder

def enter : TraceCall → TracePlace
  | .record event => .setdefault event
  | .traceFor callId => .get callId
  | .recent limit => .items limit
  | .knownCallIds => .keys
  | .clear => .clear

/-- `events.append(event)`, on the list that the dictionary holds for the call. -/
def appendEvent (recorder : TraceRecorder) (event : TraceEvent) : TraceRecorder :=
  { recorder with
    traces := recorder.traces.insert event.callId
      ((recorder.traces.get? event.callId).getD [] ++ [event])
    recorded := recorder.recorded ++ [event] }

def step (recorder : TraceRecorder) : TracePlace → TraceRecorder × (TracePlace ⊕ TraceAnswer)
  | .setdefault event =>
      ({ recorder with traces := recorder.traces.setDefault event.callId [] },
        .inl (.append event))
  | .append event => (recorder.appendEvent event, .inl (.moveToEnd event))
  | .moveToEnd event =>
      ({ recorder with traces := recorder.traces.moveToEnd event.callId },
        .inl (.whileAbove event))
  | .whileAbove event =>
      (recorder, if recorder.maxCalls < recorder.traces.length then .inl (.popitem event)
        else .inr (.event event))
  | .popitem event =>
      ({ recorder with traces := recorder.traces.popFirst }, .inl (.whileAbove event))
  | .get callId =>
      (recorder, match recorder.traces.get? callId with
        | none => .inr (.trace { callId := callId, events := [] })
        | some _ => .inl (.copyEvents callId))
  | .copyEvents callId =>
      (recorder, .inr (.trace
        { callId := callId
          events := (recorder.traces.get? callId).getD [] }))
  | .items limit =>
      (recorder, .inl (.copyItems (sliceTo limit recorder.traces.entries.reverse) []))
  | .copyItems [] copied => (recorder, .inr (.traces copied))
  | .copyItems (item :: left) copied =>
      (recorder, .inl (.copyItems left (copied ++
        [{ callId := item.1
           events := (recorder.traces.get? item.1).getD item.2 }])))
  | .keys => (recorder, .inr (.callIds recorder.knownCallIds))
  | .clear => (recorder.clear, .inr .cleared)

def guarded : Locking.Guarded TraceRecorder TraceCall TraceAnswer where
  Place := TracePlace
  enter := enter
  step place recorder := recorder.step place

def answer : TraceCall → TraceRecorder → TraceRecorder × TraceAnswer
  | .record event, recorder => (recorder.record event, .event event)
  | .traceFor callId, recorder => (recorder, .trace (recorder.traceFor callId))
  | .recent limit, recorder => (recorder, .traces (recorder.recent limit))
  | .knownCallIds, recorder => (recorder, .callIds recorder.knownCallIds)
  | .clear, recorder => (recorder.clear, .cleared)

/-! ### Each method on its own -/

open Locking.Guarded (Finishes)

theorem finishes_whileAbove (recorder : TraceRecorder) (event : TraceEvent) :
    guarded.Finishes (.inl (.whileAbove event)) recorder
      { recorder with traces := recorder.traces.shrink recorder.maxCalls } (.event event) := by
  induction size : recorder.traces.length generalizing recorder with
  | zero =>
      have within : recorder.traces.length ≤ recorder.maxCalls := by omega
      apply Finishes.of_step
      rw [OrderedDict.shrink_of_le _ within]
      simp only [guarded, step, if_neg (Nat.not_lt.mpr within)]
      exact .done _ _
  | succ size ih =>
      apply Finishes.of_step
      by_cases above : recorder.maxCalls < recorder.traces.length
      · simp only [guarded, step, if_pos above]
        apply Finishes.of_step
        have popped := ih { recorder with traces := recorder.traces.popFirst }
          (by rw [OrderedDict.length_popFirst]; omega)
        rw [OrderedDict.shrink_popFirst _ above] at popped
        exact popped
      · rw [OrderedDict.shrink_of_le _ (Nat.le_of_not_lt above)]
        simp only [guarded, step, if_neg above]
        exact .done _ _

theorem finishes_record (recorder : TraceRecorder) (event : TraceEvent) :
    guarded.Finishes (.inl (.setdefault event)) recorder (recorder.record event)
      (.event event) := by
  have events : ((recorder.traces.setDefault event.callId []).get? event.callId).getD [] =
      (recorder.traces.get? event.callId).getD [] := by
    rw [OrderedDict.get?_setDefault, Option.getD_some]
  apply Finishes.of_step
  apply Finishes.of_step
  apply Finishes.of_step
  simp only [guarded, step, appendEvent, events, OrderedDict.insert_setDefault]
  exact finishes_whileAbove _ event

theorem finishes_traceFor (recorder : TraceRecorder) (callId : String) :
    guarded.Finishes (.inl (.get callId)) recorder recorder
      (.trace (recorder.traceFor callId)) := by
  apply Finishes.of_step
  rw [traceFor]
  cases found : recorder.traces.get? callId with
  | none =>
      simp only [guarded, step, found]
      exact .done _ _
  | some events =>
      simp only [guarded, step, found]
      apply Finishes.of_step
      simp only [found]
      exact .done _ _

theorem finishes_copyItems (recorder : TraceRecorder) (left : List (String × List TraceEvent))
    (stored : ∀ item ∈ left, item ∈ recorder.traces.entries) (copied : List CallTrace) :
    guarded.Finishes (.inl (.copyItems left copied)) recorder recorder
      (.traces (copied ++ left.map fun item => ⟨item.1, item.2⟩)) := by
  induction left generalizing copied with
  | nil =>
      apply Finishes.of_step
      rw [List.map_nil, List.append_nil]
      exact .done _ _
  | cons item left ih =>
      have found := (OrderedDict.get?_eq_some_iff recorder.traces item.1 item.2).mpr
        (stored item List.mem_cons_self)
      have onward := ih (fun other member => stored other (List.mem_cons_of_mem item member))
        (copied ++ [⟨item.1, item.2⟩])
      rw [List.append_assoc] at onward
      apply Finishes.of_step
      simp only [guarded, step, found, Option.getD_some]
      exact onward

theorem mem_of_mem_sliceTo {Item : Type} {limit : Int} {items : List Item} {item : Item}
    (member : item ∈ sliceTo limit items) : item ∈ items := by
  rw [sliceTo] at member
  split at member
  · exact List.mem_of_mem_take member
  · exact List.mem_of_mem_take member

theorem finishes_recent (recorder : TraceRecorder) (limit : Int) :
    guarded.Finishes (.inl (.items limit)) recorder recorder
      (.traces (recorder.recent limit)) := by
  have copies := finishes_copyItems recorder (sliceTo limit recorder.traces.entries.reverse)
    (fun item member => List.mem_reverse.mp (mem_of_mem_sliceTo member)) []
  exact Finishes.of_step copies

theorem implements_answer : guarded.Implements answer := by
  intro call recorder
  cases call with
  | record event => exact finishes_record recorder event
  | traceFor callId => exact finishes_traceFor recorder callId
  | recent limit => exact finishes_recent recorder limit
  | knownCallIds => exact Finishes.of_step (.done _ _)
  | clear => exact Finishes.of_step (.done _ _)

/-! ### What the readers see -/

def changes (calls : List (TraceCall × TraceAnswer)) : List TraceOp :=
  calls.filterMap fun call =>
    match call.1 with
    | .record event => some (.record event)
    | .clear => some .clear
    | _ => none

theorem after_answer (recorder : TraceRecorder) (calls : List (TraceCall × TraceAnswer)) :
    Locking.after answer recorder calls = (changes calls).foldl perform recorder := by
  induction calls generalizing recorder with
  | nil => rfl
  | cons call rest ih =>
      obtain ⟨call, told⟩ := call
      cases call with
      | record event => exact ih (recorder.record event)
      | traceFor callId => exact ih recorder
      | recent limit => exact ih recorder
      | knownCallIds => exact ih recorder
      | clear => exact ih recorder.clear

/-- What an answer says of the events recorded: the trace of a call is what the bound retains
of its events, and the calls known are the ones recorded last. -/
def Shows (maxCalls : Nat) (history : List TraceEvent) : TraceCall → TraceAnswer → Prop
  | .record event, .event told => told = event
  | .traceFor callId, .trace trace =>
      trace.callId = callId ∧ Retained maxCalls callId history trace.events
  | .recent limit, .traces traces =>
      traces.map CallTrace.callId =
          sliceTo limit (((history.map TraceEvent.callId).dedup.reverse).take maxCalls) ∧
        ∀ trace ∈ traces, Retained maxCalls trace.callId history trace.events
  | .knownCallIds, .callIds callIds =>
      callIds = ((history.map TraceEvent.callId).dedup.reverse).take maxCalls
  | .clear, .cleared => True
  | _, _ => False

theorem map_sliceTo {Item Other : Type} (limit : Int) (items : List Item) (f : Item → Other) :
    (sliceTo limit items).map f = sliceTo limit (items.map f) := by
  rw [sliceTo, sliceTo, List.length_map]
  split
  · exact List.map_take
  · exact List.map_take

theorem callId_recent (recorder : TraceRecorder) (limit : Int) :
    (recorder.recent limit).map CallTrace.callId = sliceTo limit recorder.knownCallIds := by
  rw [recent, List.map_map, map_sliceTo, knownCallIds, OrderedDict.keys, List.map_reverse]
  rfl

theorem events_of_recent {recorder : TraceRecorder} {limit : Int} {trace : CallTrace}
    (member : trace ∈ recorder.recent limit) :
    trace.events = (recorder.traceFor trace.callId).events := by
  obtain ⟨item, inSlice, rfl⟩ := List.mem_map.mp member
  have stored := List.mem_reverse.mp (mem_of_mem_sliceTo inSlice)
  rw [traceFor, (OrderedDict.get?_eq_some_iff recorder.traces item.1 item.2).mpr stored,
    Option.getD_some]

theorem shows_answer (maxCalls : Nat) (operations : List TraceOp) (call : TraceCall) :
    Shows maxCalls (sinceClear operations) call
      (answer call (operations.foldl perform { maxCalls := maxCalls })).2 := by
  obtain ⟨bound, recorded, faithful⟩ := faithful_run maxCalls operations
  generalize operations.foldl perform { maxCalls := maxCalls } = recorder at bound recorded faithful
  have known : recorder.knownCallIds =
      (((sinceClear operations).map TraceEvent.callId).dedup.reverse).take maxCalls := by
    rw [knownCallIds, faithful.keys, bound, recorded, Recency.recent,
      List.rtake_eq_reverse_take_reverse, List.reverse_reverse]
  have retained : ∀ callId,
      Retained maxCalls callId (sinceClear operations) (recorder.traceFor callId).events := by
    intro callId
    have retains := faithful.events callId
    rwa [bound, recorded] at retains
  cases call with
  | record event => rfl
  | traceFor callId => exact ⟨rfl, retained callId⟩
  | recent limit =>
      refine ⟨by rw [callId_recent, known], ?_⟩
      intro trace member
      rw [events_of_recent member]
      exact retained trace.callId
  | knownCallIds => exact known
  | clear => trivial

theorem mem_sinceClear {operations : List TraceOp} {event : TraceEvent}
    (recorded : .record event ∈ operations) (kept : .clear ∉ operations) :
    event ∈ sinceClear operations := by
  induction operations using List.reverseRecOn with
  | nil => cases recorded
  | append_singleton operations last ih =>
      have earlier : TraceOp.clear ∉ operations := fun member =>
        kept (List.mem_append_left _ member)
      rw [sinceClear, List.foldl_append, List.foldl_cons, List.foldl_nil]
      cases last with
      | record other =>
          rcases List.mem_append.mp recorded with before | now
          · exact List.mem_append_left _ (ih before earlier)
          · cases List.mem_singleton.mp now
            exact List.mem_append_right _ List.mem_cons_self
      | clear => exact absurd (List.mem_append_right _ List.mem_cons_self) kept

theorem mem_changes_record {calls : List (TraceCall × TraceAnswer)} {event : TraceEvent}
    {told : TraceAnswer} (member : (.record event, told) ∈ calls) :
    .record event ∈ changes calls :=
  List.mem_filterMap.mpr ⟨_, member, rfl⟩

theorem mem_changes_clear {calls : List (TraceCall × TraceAnswer)}
    (member : .clear ∈ changes calls) : ∃ told, (.clear, told) ∈ calls := by
  obtain ⟨call, inCalls, isClear⟩ := List.mem_filterMap.mp member
  obtain ⟨call, told⟩ := call
  cases call with
  | record event => cases isClear
  | traceFor callId => cases isClear
  | recent limit => cases isClear
  | knownCallIds => cases isClear
  | clear => exact ⟨told, inCalls⟩

/-- Any number of threads use one recorder, and their steps interleave in any order.  Then
each answer is the one of a single moment between the call and its return: of the events
recorded by then it shows what the bound retains.  An event whose recording had returned
before is among them unless somebody clears.  And the calls under way can always return. -/
theorem answers_of_one_moment (maxCalls threads : Nat) (actions : List (Locking.Action TraceCall))
    {last : Locking.Config guarded}
    (ran : Transition.run Locking.Config.act
      (Locking.Config.start guarded { maxCalls := maxCalls } threads) actions = some last) :
    (∀ thread call told before during,
      Locking.Spans (Locking.events (Locking.Config.start guarded { maxCalls := maxCalls } threads)
        actions) thread call told before during →
      ∃ earlier later, during = earlier ++ later ∧ ∃ history : List TraceEvent,
        history = sinceClear (changes (Locking.commits (before ++ earlier))) ∧
        Shows maxCalls history call told ∧
        ∀ event, (∃ writer told, .responded writer (.record event) told ∈ before) →
          (∀ other, .invoked other .clear ∉ before ++ [.invoked thread call] ++ earlier) →
          event ∈ history) ∧
    ∃ more final, (∀ action ∈ more, action.isInvoke = false) ∧
      Transition.run Locking.Config.act last more = some final ∧
      ∀ phase ∈ final.threads, phase = Locking.Phase.idle := by
  have inv := Locking.inv_run implements_answer ran
  refine ⟨?_, inv.all_return implements_answer⟩
  intro thread call told before during spans
  obtain ⟨earlier, later, split, isTold, moment⟩ := inv.linearized.moment spans
  refine ⟨earlier, later, split, _, rfl, ?_, ?_⟩
  · rw [isTold, after_answer]
    exact shows_answer maxCalls _ call
  · rintro event ⟨writer, answered, responded⟩ nobody
    refine mem_sinceClear (mem_changes_record (moment.returned _ answered ⟨writer, responded⟩)) ?_
    intro cleared
    obtain ⟨byClear, committed⟩ := mem_changes_clear cleared
    obtain ⟨other, called⟩ := moment.invoked _ byClear committed
    exact nobody other called

def anEvent : TraceEvent where
  callId := "a"
  direction := "in"
  method := "INVITE"
  summary := "call"

/-- A reader asks while a writer is inside, and is told of the event. -/
def readWhileWriting : List (Locking.Action TraceCall) :=
  [.invoke 0 (.record anEvent), .acquire 0, .step 0, .invoke 1 (.traceFor "a"), .step 0, .step 0,
    .step 0, .release 0, .acquire 1, .step 1, .step 1, .release 1, .respond 1, .respond 0]

theorem answers_of_one_moment_read :
    ∃ earlier later history,
      [Locking.Event.committed 0 (TraceCall.record anEvent) (.event anEvent),
        .committed 1 (.traceFor "a") (.trace ⟨"a", [anEvent]⟩)] = earlier ++ later ∧
      history = sinceClear (changes (Locking.commits
        ([.invoked 0 (.record anEvent)] ++ earlier))) ∧
      Shows 1 history (.traceFor "a") (.trace ⟨"a", [anEvent]⟩) := by
  obtain ⟨last, ran⟩ : ∃ last, Transition.run Locking.Config.act
      (Locking.Config.start guarded { maxCalls := 1 } 2) readWhileWriting = some last := ⟨_, rfl⟩
  obtain ⟨earlier, later, split, history, isHistory, shows, _⟩ :=
    (answers_of_one_moment 1 2 readWhileWriting ran).1 1 (.traceFor "a")
      (.trace ⟨"a", [anEvent]⟩) [.invoked 0 (.record anEvent)]
      [.committed 0 (.record anEvent) (.event anEvent),
        .committed 1 (.traceFor "a") (.trace ⟨"a", [anEvent]⟩)]
      ⟨⟨[.responded 0 (.record anEvent) (.event anEvent)], rfl⟩, by simp⟩
  exact ⟨earlier, later, history, split, isHistory, shows⟩

end TraceRecorder

end AsPlatform
