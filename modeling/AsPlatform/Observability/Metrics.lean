/-
Call counters and dispositions.

The registry's lock makes each operation atomic, so each is one function on the
counters.
-/

import AsPlatform.Library.OrderedDict
import Mathlib.Algebra.Group.Int.Defs

namespace AsPlatform

inductive CallDisposition where
  | completed
  | failed
  | rejected
  | noMatch
  | abandoned
  deriving DecidableEq

def CallDisposition.value : CallDisposition → String
  | .completed => "completed"
  | .failed => "failed"
  | .rejected => "rejected"
  | .noMatch => "no_match"
  | .abandoned => "abandoned"

inductive PeerStatus where
  | unknown
  | reachable
  | unreachable
  | degraded
  deriving DecidableEq

def PeerStatus.value : PeerStatus → String
  | .unknown => "unknown"
  | .reachable => "reachable"
  | .unreachable => "unreachable"
  | .degraded => "degraded"

structure MetricsSnapshot where
  callsTotal : Nat := 0
  callsByDisposition : OrderedDict String Nat := ∅
  errorsByCode : OrderedDict String Nat := ∅
  ruleHits : OrderedDict String Nat := ∅
  peerStatus : OrderedDict String String := ∅
  counters : OrderedDict String Int := ∅

structure MetricsRegistry where
  callsTotal : Nat := 0
  callsByDisposition : OrderedDict String Nat := ∅
  errorsByCode : OrderedDict String Nat := ∅
  ruleHits : OrderedDict String Nat := ∅
  peerStatus : OrderedDict String PeerStatus := ∅
  counters : OrderedDict String Int := ∅

namespace MetricsRegistry

def recordCallStarted (registry : MetricsRegistry) : MetricsRegistry :=
  { registry with callsTotal := registry.callsTotal + 1 }

def recordCallDisposition (registry : MetricsRegistry) (disposition : CallDisposition) :
    MetricsRegistry :=
  { registry with
    callsByDisposition := registry.callsByDisposition.increment disposition.value }

def recordError (registry : MetricsRegistry) (errorCode : String) : MetricsRegistry :=
  { registry with errorsByCode := registry.errorsByCode.increment errorCode }

def recordRuleHit (registry : MetricsRegistry) (ruleId : String) : MetricsRegistry :=
  { registry with ruleHits := registry.ruleHits.increment ruleId }

def setPeerStatus (registry : MetricsRegistry) (peerName : String) (status : PeerStatus) :
    MetricsRegistry :=
  { registry with peerStatus := registry.peerStatus.insert peerName status }

def recordCounter (registry : MetricsRegistry) (name : String) (amount : Int := 1) :
    MetricsRegistry :=
  { registry with counters := registry.counters.add name amount }

def snapshot (registry : MetricsRegistry) : MetricsSnapshot where
  callsTotal := registry.callsTotal
  callsByDisposition := registry.callsByDisposition
  errorsByCode := registry.errorsByCode
  ruleHits := registry.ruleHits
  peerStatus := registry.peerStatus.mapValues PeerStatus.value
  counters := registry.counters

def disposed (registry : MetricsRegistry) : Nat :=
  registry.callsByDisposition.total

@[simp] theorem disposed_recordCallStarted (registry : MetricsRegistry) :
    registry.recordCallStarted.disposed = registry.disposed := rfl

@[simp] theorem disposed_recordCallDisposition (registry : MetricsRegistry)
    (disposition : CallDisposition) :
    (registry.recordCallDisposition disposition).disposed = registry.disposed + 1 :=
  OrderedDict.total_increment registry.callsByDisposition disposition.value

@[simp] theorem disposed_setPeerStatus (registry : MetricsRegistry) (peerName : String)
    (status : PeerStatus) :
    (registry.setPeerStatus peerName status).disposed = registry.disposed := rfl

@[simp] theorem callsTotal_recordCallStarted (registry : MetricsRegistry) :
    registry.recordCallStarted.callsTotal = registry.callsTotal + 1 := rfl

@[simp] theorem callsTotal_recordCallDisposition (registry : MetricsRegistry)
    (disposition : CallDisposition) :
    (registry.recordCallDisposition disposition).callsTotal = registry.callsTotal := rfl

@[simp] theorem callsTotal_setPeerStatus (registry : MetricsRegistry) (peerName : String)
    (status : PeerStatus) :
    (registry.setPeerStatus peerName status).callsTotal = registry.callsTotal := rfl

end MetricsRegistry

end AsPlatform
