/-
The Call-ID keyed trace.

Timestamps are left out: nothing that is modelled reads them.
-/

import AsPlatform.Python

namespace AsPlatform

structure TraceEvent where
  callId : String
  direction : String
  method : String
  summary : String
  peer : String := "-"
  ruleId : Option Value := none
  attributes : Fields := ∅

structure CallTrace where
  callId : String
  events : List TraceEvent

def defaultMaxTracedCalls : Nat := 200

/-- The traces are kept in recency order, the call recorded last at the end.
`recorded` is history: all events since the last `clear`. -/
structure TraceRecorder where
  maxCalls : Nat := defaultMaxTracedCalls
  traces : OrderedDict String (List TraceEvent) := ∅
  recorded : List TraceEvent := []

namespace TraceRecorder

def record (recorder : TraceRecorder) (event : TraceEvent) : TraceRecorder :=
  let events := (recorder.traces.get? event.callId).getD [] ++ [event]
  let traces := (recorder.traces.insert event.callId events).moveToEnd event.callId
  { recorder with
    traces := traces.shrink recorder.maxCalls
    recorded := recorder.recorded ++ [event] }

def traceFor (recorder : TraceRecorder) (callId : String) : CallTrace :=
  { callId := callId
    events := (recorder.traces.get? callId).getD [] }

def recent (recorder : TraceRecorder) (limit : Int) : List CallTrace :=
  (sliceTo limit recorder.traces.entries.reverse).map fun item =>
    { callId := item.1
      events := item.2 }

def knownCallIds (recorder : TraceRecorder) : List String :=
  recorder.traces.keys.reverse

def clear (recorder : TraceRecorder) : TraceRecorder :=
  { recorder with
    traces := ∅
    recorded := [] }

end TraceRecorder

end AsPlatform
