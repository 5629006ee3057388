/-
The shared error model: the code families, the reason phrases and `AsError`.
-/

import AsPlatform.Python

namespace AsPlatform

structure ErrorCode where
  code : String
  sipStatus : Nat
  message : String
  deriving DecidableEq

namespace SkeletonErrorCode

def peerNotAllowed : ErrorCode :=
  ⟨"AS-PEER-001", 403, "source address is not an allowed trunk peer"⟩

def peerUnreachable : ErrorCode :=
  ⟨"AS-PEER-002", 503, "next hop peer did not answer"⟩

def peerMalformedRequest : ErrorCode :=
  ⟨"AS-PEER-003", 400, "request from the trunk could not be parsed"⟩

end SkeletonErrorCode

def sipPhrases : List (Nat × String) :=
  [(400, "Bad Request"),
    (403, "Forbidden"),
    (404, "Not Found"),
    (480, "Temporarily Unavailable"),
    (500, "Server Internal Error"),
    (503, "Service Unavailable"),
    (603, "Decline"),
    (608, "Rejected")]

structure AsError where
  code : ErrorCode
  detail : String
  callId : Option String := none
  context : OrderedDict String String := ∅

namespace AsError

/-- The constructor: a missing or empty detail falls back to the code's message. -/
def create (code : ErrorCode) (detail : Option String) (callId : Option String)
    (context : OrderedDict String String) : AsError :=
  { code := code
    detail := if detail.getD "" = "" then code.message else detail.getD ""
    callId := callId
    context := context }

def sipStatus (error : AsError) : Nat :=
  error.code.sipStatus

def sipPhrase (error : AsError) : String :=
  (sipPhrases.lookup error.sipStatus).getD "Server Internal Error"

/-- The context is merged last, so it may overwrite the three fixed fields. -/
def asLogFields (error : AsError) : Fields :=
  let fields : Fields :=
    ((OrderedDict.singleton "error_code" (.str error.code.code)).insert
      "sip_status" (.str (toString error.sipStatus))).insert
        "error_detail" (.str error.detail)
  error.context.entries.foldl (fun acc entry => acc.insert entry.1 (.str entry.2)) fields

end AsError

end AsPlatform
