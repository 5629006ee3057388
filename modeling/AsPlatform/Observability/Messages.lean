/-
The captured SIP messages.

A message is found again by the Call-ID that a pattern reads off its text.  The pattern
matches within one line, so that a text is read line by line.
-/

import AsPlatform.Library.Recency
import AsPlatform.SipAdapter

namespace AsPlatform

open Backtracking Pattern

/-! ### The functions -/

def callIdName : List Char := ['C', 'a', 'l', 'l', '-', 'I', 'D']

/-- `[ \t]`. -/
def blankClass : Char → Bool := anyOf [' ', '\t']

/-- `[ \t\r]`. -/
def trailingClass : Char → Bool := anyOf [' ', '\t', '\r']

/-- What follows the name and its colon: `[ \t]*(\S+)[ \t\r]*$`. -/
def callIdValue : Regex :=
  seq (many blankClass) (seq (group 1 (plus notSpace))
    (seq (many trailingClass) (between lineEnd)))

/-- `_CALL_ID_IN_MESSAGE`: `^Call-ID:[ \t]*(\S+)[ \t\r]*$`, ignoring case, on any line. -/
def callIdInMessage : Regex :=
  seq (between lineStart) (word (callIdName.map caseless ++ [exactly ':']) callIdValue)

def callIdOf (text : String) : String :=
  match callIdInMessage.search text.toList with
  | none => "-"
  | some found => String.ofList ((found.group 1).getD [])

/-- `(\S+):(\d+)`. -/
def peerInPrefix : Regex :=
  seq (group 1 (plus notSpace)) (seq (symbol (exactly ':')) (group 2 (plus isDecimal)))

def removePrefix (front text : List Char) : List Char :=
  if front.isPrefixOf text then text.drop front.length else text

def removeSuffix (back text : List Char) : List Char :=
  if back.isSuffixOf text then text.take (text.length - back.length) else text

def peerFromPrefix (logPrefix : String) : String :=
  match peerInPrefix.search logPrefix.toList with
  | none => "-"
  | some found =>
      let address := removeSuffix [']'] (removePrefix ['['] (removePrefix ['u', 'd', 'p', ':']
        ((found.group 1).getD [])))
      String.ofList (address ++ ':' :: (found.group 2).getD [])

structure RecordedSipMessage where
  direction : String
  peer : String
  text : String
  callId : String
  deriving DecidableEq

def RecordedSipMessage.ofArgs (args : List String) : RecordedSipMessage :=
  let logPrefix := (args[0]?).getD ""
  let text := (args[1]?).getD ""
  { direction := if "RECEIVED".isPrefixOf logPrefix then "in" else "out"
    peer := peerFromPrefix logPrefix
    text := text
    callId := callIdOf text }

def defaultMaxCapturedMessages : Nat := 5000

structure SipMessageRecorder where
  maxMessages : Nat := defaultMaxCapturedMessages
  messages : List RecordedSipMessage := []

/-- `while len(messages) > bound: messages.pop(0)`. -/
def popAbove (bound : Nat) : List RecordedSipMessage → List RecordedSipMessage
  | [] => []
  | oldest :: rest =>
      if bound < (oldest :: rest).length then popAbove bound rest else oldest :: rest

namespace SipMessageRecorder

def write (recorder : SipMessageRecorder) (args : List String) : SipMessageRecorder :=
  { recorder with
    messages := popAbove recorder.maxMessages
      (recorder.messages ++ [RecordedSipMessage.ofArgs args]) }

def messagesForAny (recorder : SipMessageRecorder) (callIds : List String) :
    List RecordedSipMessage :=
  recorder.messages.filter fun message => callIds.contains message.callId

def clear (recorder : SipMessageRecorder) : SipMessageRecorder :=
  { recorder with messages := [] }

end SipMessageRecorder

structure MessagesPayload where
  callId : String
  outboundCallId : String
  messages : List RecordedSipMessage

def messagesPayload (trunkCallId : String) (sipRecorder : SipMessageRecorder) :
    MessagesPayload where
  callId := trunkCallId
  outboundCallId := outboundCallId trunkCallId
  messages := sipRecorder.messagesForAny [trunkCallId, outboundCallId trunkCallId]

/-! ### What is kept of the messages written -/

theorem popAbove_eq (bound : Nat) (messages : List RecordedSipMessage) :
    popAbove bound messages = messages.rtake bound := by
  induction messages with
  | nil => simp [popAbove, List.rtake]
  | cons oldest rest ih =>
      rw [popAbove]
      by_cases above : bound < (oldest :: rest).length
      · have one : (oldest :: rest).length - bound = rest.length - bound + 1 := by
          rw [List.length_cons] at above ⊢
          omega
        rw [if_pos above, ih, List.rtake, List.rtake, one, List.drop_succ_cons]
      · rw [if_neg above, List.rtake, Nat.sub_eq_zero_of_le (Nat.le_of_not_lt above),
          List.drop_zero]

def SipMessageRecorder.after (maxMessages : Nat) (writes : List (List String)) :
    SipMessageRecorder :=
  writes.foldl SipMessageRecorder.write { maxMessages := maxMessages }

theorem SipMessageRecorder.write_messages {maxMessages : Nat}
    {written : List RecordedSipMessage} (args : List String) :
    (SipMessageRecorder.mk maxMessages (written.rtake maxMessages)).write args =
      ⟨maxMessages, (written ++ [RecordedSipMessage.ofArgs args]).rtake maxMessages⟩ := by
  rw [write, popAbove_eq, Recency.rtake_rtake_append]

/-- The recorder holds the last messages written, as many as the bound allows. -/
theorem SipMessageRecorder.after_eq (maxMessages : Nat) (writes : List (List String)) :
    SipMessageRecorder.after maxMessages writes =
      ⟨maxMessages, (writes.map RecordedSipMessage.ofArgs).rtake maxMessages⟩ := by
  have onward : ∀ written : List RecordedSipMessage,
      writes.foldl SipMessageRecorder.write ⟨maxMessages, written.rtake maxMessages⟩ =
        ⟨maxMessages, (written ++ writes.map RecordedSipMessage.ofArgs).rtake maxMessages⟩ := by
    induction writes with
    | nil => simp
    | cons args writes ih =>
        intro written
        rw [List.foldl_cons, write_messages, ih, List.map_cons, List.append_assoc,
          List.singleton_append]
  have start := onward []
  rwa [List.rtake_nil, List.nil_append] at start

/-! ### Whose messages they are -/

theorem outboundCallId_injective {left right : String}
    (same : outboundCallId left = outboundCallId right) : left = right := by
  have text := congrArg String.toList same
  rw [outboundCallId, outboundCallId, String.toList_append, String.toList_append] at text
  exact String.toList_injective (List.append_cancel_right text)

theorem messagesPayload_after (callId : String) (maxMessages : Nat)
    (writes : List (List String)) :
    (messagesPayload callId (.after maxMessages writes)).messages =
      ((writes.rtake maxMessages).filter fun args =>
        [callId, outboundCallId callId].contains (RecordedSipMessage.ofArgs args).callId).map
          RecordedSipMessage.ofArgs := by
  have ofWindow : (writes.map RecordedSipMessage.ofArgs).rtake maxMessages =
      (writes.rtake maxMessages).map RecordedSipMessage.ofArgs := by
    rw [List.rtake, List.rtake, List.length_map, List.map_drop]
  rw [SipMessageRecorder.after_eq, messagesPayload, SipMessageRecorder.messagesForAny, ofWindow,
    List.filter_map]
  rfl

theorem mem_messagesPayload {trunkCallId : String} {sipRecorder : SipMessageRecorder}
    {message : RecordedSipMessage}
    (returned : message ∈ (messagesPayload trunkCallId sipRecorder).messages) :
    message.callId = trunkCallId ∨ message.callId = outboundCallId trunkCallId := by
  simpa using (List.mem_filter.mp returned).2

end AsPlatform
