/-
The decision an application hands the controller, and the vocabulary in it.

A decision is plain data: every string of the application's trace and log lines
travels in it.  Only the called number and the hop of an attempt are filled in by
the controller, where the application asked for them by name.
-/

import AsPlatform.Errors
import AsPlatform.Hop
import AsPlatform.Observability.Metrics
import AsPlatform.Sippy

namespace AsPlatform

inductive PolicyAction where
  | relay
  | reject
  deriving DecidableEq

structure PolicyDecision where
  action : PolicyAction
  outboundEvent : Option CCEvent := none
  nextHops : List NextHop := []
  error : Option AsError := none
  disposition : CallDisposition := .rejected
  attributes : Fields := ∅
  rejectTraceSummary : String := ""
  rejectLogMessage : String := ""
  rejectLogFields : Fields := ∅
  relayLogMessage : String := ""
  relayLogFields : Fields := ∅

structure Request where
  callId : String
  source : Option (String × Nat)
  deriving DecidableEq

def sourcePeer (request : Request) : String :=
  match request.source with
  | none => "-"
  | some source => renderPeer source.1 source.2

/-- The hooks an application may override, and the one it must supply. -/
structure App where
  decide : CCEvent → Except PyError PolicyDecision
  inboundFields : Request → Except PyError Fields := fun _ => .ok ∅
  peerStatusKey : NextHop → String :=
    fun hop => hop.name ++ ":" ++ renderPeer hop.address hop.port
  noAnswerHopLabel : Option NextHop → String :=
    fun servingHop => (servingHop.map NextHop.name).getD ""

def App.deciding (decision : PolicyDecision) : App :=
  { decide := fun _ => .ok decision }

/-! ### The fields of one attempt -/

/-- `if key in fields: fields[key] = value`. -/
def fillIn (fields : Fields) (key value : String) : Fields :=
  if key ∈ fields.keys then fields.insert key (.str value) else fields

def withAttemptFields (fields : Fields) (hop : NextHop) (calledNumber : String) : Fields :=
  fillIn (fillIn fields "called_number" calledNumber) "next_hop" hop.name

def relayVocabulary (policy : Option PolicyDecision) (hop : NextHop) (calledNumber : String) :
    String × Fields × Fields :=
  match policy with
  | none => ("", ∅, ∅)
  | some decision =>
      (decision.relayLogMessage,
        withAttemptFields decision.attributes hop calledNumber,
        withAttemptFields decision.relayLogFields hop calledNumber)

theorem keys_fillIn (fields : Fields) (key value : String) :
    (fillIn fields key value).keys = fields.keys := by
  unfold fillIn
  split
  · rename_i member
    exact OrderedDict.keys_insert_of_mem fields (.str value) member
  · rfl

/-- An attempt neither adds a field to the application's nor drops one. -/
theorem keys_withAttemptFields (fields : Fields) (hop : NextHop) (calledNumber : String) :
    (withAttemptFields fields hop calledNumber).keys = fields.keys := by
  unfold withAttemptFields
  rw [keys_fillIn, keys_fillIn]

theorem get?_fillIn (fields : Fields) (key value other : String) (asked : other ∈ fields.keys) :
    (fillIn fields key value).get? other =
      if key = other then some (.str value) else fields.get? other := by
  unfold fillIn
  split
  · exact OrderedDict.get?_insert fields key other (.str value)
  · rename_i absent
    rw [if_neg]
    intro same
    exact absent (same ▸ asked)

/-- The two fields only the controller can know are resolved where the application
asked for them; every other field is passed through. -/
theorem get?_withAttemptFields (fields : Fields) (hop : NextHop) (calledNumber key : String)
    (asked : key ∈ fields.keys) :
    (withAttemptFields fields hop calledNumber).get? key =
      if "next_hop" = key then some (.str hop.name)
      else if "called_number" = key then some (.str calledNumber)
      else fields.get? key := by
  unfold withAttemptFields
  rw [get?_fillIn _ _ _ _ (by rw [keys_fillIn]; exact asked), get?_fillIn _ _ _ _ asked]

end AsPlatform
