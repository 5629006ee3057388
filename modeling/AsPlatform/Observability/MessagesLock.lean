/-
The recorder of SIP messages behind its lock.

A message is taken apart before the lock is asked for.  The reader goes over the list by
index, as a comprehension does, so that without the lock a message that is dropped at the
front meanwhile would make it skip another.
-/

import AsPlatform.Library.Locking
import AsPlatform.Observability.Messages

namespace AsPlatform

inductive MessagesCall where
  | write (args : List String)
  | messagesForAny (callIds : List String)
  | clear

inductive MessagesAnswer where
  | done
  | messages (messages : List RecordedSipMessage)

inductive MessagesPlace where
  | append (message : RecordedSipMessage)
  | whileAbove
  | popFirst
  | scan (wanted : List String) (index : Nat) (picked : List RecordedSipMessage)
  | clear

namespace SipMessageRecorder

def enter : MessagesCall → MessagesPlace
  | .write args => .append (RecordedSipMessage.ofArgs args)
  | .messagesForAny callIds => .scan callIds 0 []
  | .clear => .clear

def step (recorder : SipMessageRecorder) :
    MessagesPlace → SipMessageRecorder × (MessagesPlace ⊕ MessagesAnswer)
  | .append message =>
      ({ recorder with messages := recorder.messages ++ [message] }, .inl .whileAbove)
  | .whileAbove =>
      (recorder, if recorder.maxMessages < recorder.messages.length then .inl .popFirst
        else .inr .done)
  | .popFirst => ({ recorder with messages := recorder.messages.tail }, .inl .whileAbove)
  | .scan wanted index picked =>
      (recorder, match recorder.messages[index]? with
        | none => .inr (.messages picked)
        | some message => .inl (.scan wanted (index + 1)
            (if wanted.contains message.callId then picked ++ [message] else picked)))
  | .clear => (recorder.clear, .inr .done)

def guarded : Locking.Guarded SipMessageRecorder MessagesCall MessagesAnswer where
  Place := MessagesPlace
  enter := enter
  step place recorder := recorder.step place

def answer : MessagesCall → SipMessageRecorder → SipMessageRecorder × MessagesAnswer
  | .write args, recorder => (recorder.write args, .done)
  | .messagesForAny callIds, recorder => (recorder, .messages (recorder.messagesForAny callIds))
  | .clear, recorder => (recorder.clear, .done)

/-! ### Each method on its own -/

open Locking.Guarded (Finishes)

theorem finishes_whileAbove (maxMessages : Nat) (messages : List RecordedSipMessage) :
    guarded.Finishes (.inl .whileAbove) ⟨maxMessages, messages⟩
      ⟨maxMessages, popAbove maxMessages messages⟩ .done := by
  induction messages with
  | nil => exact Finishes.of_step (.done _ _)
  | cons oldest rest ih =>
      apply Finishes.of_step
      rw [popAbove]
      by_cases above : maxMessages < (oldest :: rest).length
      · simp only [guarded, step, if_pos above]
        exact Finishes.of_step ih
      · simp only [guarded, step, if_neg above]
        exact .done _ _

theorem finishes_scan (maxMessages : Nat) (wanted : List String)
    (passed left : List RecordedSipMessage) (picked : List RecordedSipMessage) :
    guarded.Finishes (.inl (.scan wanted passed.length picked)) ⟨maxMessages, passed ++ left⟩
      ⟨maxMessages, passed ++ left⟩
      (.messages (picked ++ left.filter fun message => wanted.contains message.callId)) := by
  induction left generalizing passed picked with
  | nil =>
      have behind : (passed ++ ([] : List RecordedSipMessage))[passed.length]? = none :=
        List.getElem?_eq_none (by rw [List.append_nil])
      have taken : guarded.step (.scan wanted passed.length picked) ⟨maxMessages, passed ++ []⟩ =
          (⟨maxMessages, passed ++ []⟩, .inr (.messages picked)) := by
        simp only [guarded, step, behind]
      rw [List.filter_nil, List.append_nil picked]
      exact .step taken (.done _ _)
  | cons message left ih =>
      have here : (passed ++ message :: left)[passed.length]? = some message := by
        rw [List.getElem?_append_right (Nat.le_refl _), Nat.sub_self]
        rfl
      have onward := ih (passed ++ [message])
        (if wanted.contains message.callId then picked ++ [message] else picked)
      have taken : guarded.step (.scan wanted passed.length picked)
          ⟨maxMessages, passed ++ message :: left⟩ =
            (⟨maxMessages, passed ++ message :: left⟩, .inl (.scan wanted (passed.length + 1)
              (if wanted.contains message.callId then picked ++ [message] else picked))) := by
        simp only [guarded, step, here]
      have picks : picked ++ (message :: left).filter (fun other => wanted.contains other.callId) =
          (if wanted.contains message.callId then picked ++ [message] else picked) ++
            left.filter (fun other => wanted.contains other.callId) := by
        rw [List.filter_cons]
        split
        · rw [List.append_assoc, List.singleton_append]
        · rfl
      rw [List.append_assoc, List.length_append, List.singleton_append] at onward
      rw [picks]
      exact .step taken onward

theorem implements_answer : guarded.Implements answer := by
  intro call recorder
  obtain ⟨maxMessages, messages⟩ := recorder
  cases call with
  | write args => exact Finishes.of_step (finishes_whileAbove maxMessages _)
  | messagesForAny callIds => exact finishes_scan maxMessages callIds [] messages []
  | clear => exact Finishes.of_step (.done _ _)

/-! ### What the readers see -/

/-- The messages written since the last `clear`. -/
def written (calls : List MessagesCall) : List RecordedSipMessage :=
  calls.foldl
    (fun messages call =>
      match call with
      | .write args => messages ++ [RecordedSipMessage.ofArgs args]
      | .messagesForAny _ => messages
      | .clear => [])
    []

theorem written_concat (calls : List MessagesCall) (call : MessagesCall) :
    written (calls ++ [call]) =
      match call with
      | .write args => written calls ++ [RecordedSipMessage.ofArgs args]
      | .messagesForAny _ => written calls
      | .clear => [] := by
  rw [written, List.foldl_append, List.foldl_cons, List.foldl_nil]
  rfl

/-- The recorder holds the last messages written, as many as the bound allows. -/
theorem after_answer (maxMessages : Nat) (calls : List (MessagesCall × MessagesAnswer)) :
    Locking.after answer ⟨maxMessages, []⟩ calls =
      ⟨maxMessages, (written (calls.map Prod.fst)).rtake maxMessages⟩ := by
  induction calls using List.reverseRecOn with
  | nil => simp [Locking.after, written]
  | append_singleton calls call ih =>
      obtain ⟨call, told⟩ := call
      rw [Locking.after_append, ih, List.map_append, List.map_singleton, written_concat]
      cases call with
      | write args => exact write_messages args
      | messagesForAny callIds => rfl
      | clear => simp [Locking.after, answer, SipMessageRecorder.clear]

theorem mem_written {calls : List MessagesCall} {args : List String}
    (write : .write args ∈ calls) (kept : .clear ∉ calls) :
    RecordedSipMessage.ofArgs args ∈ written calls := by
  induction calls using List.reverseRecOn with
  | nil => cases write
  | append_singleton calls last ih =>
      have earlier : MessagesCall.clear ∉ calls := fun member =>
        kept (List.mem_append_left _ member)
      rw [written_concat]
      rcases List.mem_append.mp write with before | now
      · cases last with
        | write other => exact List.mem_append_left _ (ih before earlier)
        | messagesForAny callIds => exact ih before earlier
        | clear => exact absurd (List.mem_append_right _ List.mem_cons_self) kept
      · cases List.mem_singleton.mp now
        exact List.mem_append_right _ List.mem_cons_self

/-- Any number of threads write to one recorder and read from it, and their steps interleave in
any order.  Then a reader gets, in the order of their writing, those of the last messages
written that carry one of the Call-IDs, at one moment between the call and its return.  What had
been written before it asked is among the messages written unless somebody clears. -/
theorem messages_of_one_moment (maxMessages threads : Nat)
    (actions : List (Locking.Action MessagesCall)) {last : Locking.Config guarded}
    (ran : Transition.run Locking.Config.act
      (Locking.Config.start guarded ⟨maxMessages, []⟩ threads) actions = some last) :
    (∀ thread callIds told before during,
      Locking.Spans (Locking.events (Locking.Config.start guarded ⟨maxMessages, []⟩ threads)
        actions) thread (.messagesForAny callIds) told before during →
      ∃ earlier later, during = earlier ++ later ∧ ∃ messages : List RecordedSipMessage,
        messages = written ((Locking.commits (before ++ earlier)).map Prod.fst) ∧
        told = .messages ((messages.rtake maxMessages).filter
          fun message => callIds.contains message.callId) ∧
        ∀ args, (∃ writer told, .responded writer (.write args) told ∈ before) →
          (∀ other, .invoked other .clear ∉
            before ++ [.invoked thread (.messagesForAny callIds)] ++ earlier) →
          RecordedSipMessage.ofArgs args ∈ messages) ∧
    ∃ more final, (∀ action ∈ more, action.isInvoke = false) ∧
      Transition.run Locking.Config.act last more = some final ∧
      ∀ phase ∈ final.threads, phase = Locking.Phase.idle := by
  have inv := Locking.inv_run implements_answer ran
  refine ⟨?_, inv.all_return implements_answer⟩
  intro thread callIds told before during spans
  obtain ⟨earlier, later, split, isTold, moment⟩ := inv.linearized.moment spans
  rw [after_answer] at isTold
  refine ⟨earlier, later, split, _, rfl, isTold, ?_⟩
  rintro args ⟨writer, answered, responded⟩ nobody
  have wrote := moment.returned _ answered ⟨writer, responded⟩
  refine mem_written (List.mem_map.mpr ⟨_, wrote, rfl⟩) ?_
  intro cleared
  obtain ⟨⟨call, byClear⟩, committed, isClear⟩ := List.mem_map.mp cleared
  cases isClear
  obtain ⟨other, called⟩ := moment.invoked _ byClear committed
  exact nobody other called

def anInvite : List String := ["RECEIVED message from udp:h:5:", "Call-ID: a"]

def recordedInvite : RecordedSipMessage := ⟨"in", "h:5", "Call-ID: a", "a"⟩

theorem ofArgs_anInvite : RecordedSipMessage.ofArgs anInvite = recordedInvite := by
  decide +kernel

def readMeanwhile : List (Locking.Action MessagesCall) :=
  [.invoke 0 (.write anInvite), .acquire 0, .step 0, .invoke 1 (.messagesForAny ["a"]), .step 0,
    .release 0, .acquire 1, .step 1, .step 1, .release 1, .respond 0, .respond 1]

theorem messages_of_one_moment_meanwhile :
    ∃ messages : List RecordedSipMessage,
      MessagesAnswer.messages [recordedInvite] = .messages ((messages.rtake 1).filter
        fun message => ["a"].contains message.callId) := by
  obtain ⟨last, ran⟩ : ∃ last, Transition.run Locking.Config.act
      (Locking.Config.start guarded ⟨1, []⟩ 2) readMeanwhile = some last := by
    simp only [readMeanwhile]
    exact ⟨_, rfl⟩
  obtain ⟨_, _, _, messages, _, isTold, _⟩ := (messages_of_one_moment 1 2 readMeanwhile ran).1 1
    ["a"] (.messages [recordedInvite]) [.invoked 0 (.write anInvite)]
    [.committed 0 (.write anInvite) .done,
      .committed 1 (.messagesForAny ["a"]) (.messages [recordedInvite]),
      .responded 0 (.write anInvite) .done] ⟨⟨[], by rw [← ofArgs_anInvite]; rfl⟩, by simp⟩
  exact ⟨messages, isTold⟩

end SipMessageRecorder

end AsPlatform
