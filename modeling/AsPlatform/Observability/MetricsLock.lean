/-
The metrics registry behind its lock.

`+= 1` is a load and a store, and the snapshot copies one counter after another, so that
without the lock an increment could be lost and a snapshot could mix two moments.
-/

import AsPlatform.Library.Locking
import AsPlatform.Observability.Metrics
import Mathlib.Algebra.Group.Basic

namespace AsPlatform

inductive MetricsCall where
  | recordCallStarted
  | recordCallDisposition (disposition : CallDisposition)
  | recordError (errorCode : String)
  | recordRuleHit (ruleId : String)
  | recordCounter (name : String) (amount : Int)
  | setPeerStatus (peerName : String) (status : PeerStatus)
  | snapshot

inductive MetricsAnswer where
  | recorded
  | snapshot (snapshot : MetricsSnapshot)

inductive CounterField where
  | callsByDisposition
  | errorsByCode
  | ruleHits
  | counters
  deriving DecidableEq

/-- An application may count down. -/
abbrev CounterField.Amount : CounterField → Type
  | counters => Int
  | _ => Nat

instance : ∀ field : CounterField, AddMonoid field.Amount
  | .counters => Int.instAddMonoid
  | .callsByDisposition | .errorsByCode | .ruleHits => Nat.instAddMonoid

inductive MetricsPlace where
  | loadTotal
  | storeTotal (loaded : Nat)
  | load (field : CounterField) (key : String) (amount : field.Amount)
  | store (field : CounterField) (key : String) (value : field.Amount)
  | storeStatus (peerName : String) (status : PeerStatus)
  | copyTotal
  | copyField (field : CounterField) (copied : MetricsSnapshot)
  | copyStatus (copied : MetricsSnapshot)

namespace CounterField

def get (registry : MetricsRegistry) : (field : CounterField) → OrderedDict String field.Amount
  | callsByDisposition => registry.callsByDisposition
  | errorsByCode => registry.errorsByCode
  | ruleHits => registry.ruleHits
  | counters => registry.counters

def set (registry : MetricsRegistry) :
    (field : CounterField) → OrderedDict String field.Amount → MetricsRegistry
  | callsByDisposition, counter => { registry with callsByDisposition := counter }
  | errorsByCode, counter => { registry with errorsByCode := counter }
  | ruleHits, counter => { registry with ruleHits := counter }
  | counters, counter => { registry with counters := counter }

end CounterField

namespace MetricsRegistry

def enter : MetricsCall → MetricsPlace
  | .recordCallStarted => .loadTotal
  | .recordCallDisposition disposition => .load .callsByDisposition disposition.value 1
  | .recordError errorCode => .load .errorsByCode errorCode 1
  | .recordRuleHit ruleId => .load .ruleHits ruleId 1
  | .recordCounter name amount => .load .counters name amount
  | .setPeerStatus peerName status => .storeStatus peerName status
  | .snapshot => .copyTotal

def step (registry : MetricsRegistry) :
    MetricsPlace → MetricsRegistry × (MetricsPlace ⊕ MetricsAnswer)
  | .loadTotal => (registry, .inl (.storeTotal registry.callsTotal))
  | .storeTotal loaded => ({ registry with callsTotal := loaded + 1 }, .inr .recorded)
  | .load field key amount =>
      (registry, .inl (.store field key (((field.get registry).get? key).getD 0 + amount)))
  | .store field key value =>
      (field.set registry ((field.get registry).insert key value), .inr .recorded)
  | .storeStatus peerName status => (registry.setPeerStatus peerName status, .inr .recorded)
  | .copyTotal =>
      (registry, .inl (.copyField .callsByDisposition { callsTotal := registry.callsTotal }))
  | .copyField .callsByDisposition copied =>
      (registry, .inl (.copyField .errorsByCode
        { copied with callsByDisposition := registry.callsByDisposition }))
  | .copyField .errorsByCode copied =>
      (registry, .inl (.copyField .ruleHits { copied with errorsByCode := registry.errorsByCode }))
  | .copyField .ruleHits copied =>
      (registry, .inl (.copyStatus { copied with ruleHits := registry.ruleHits }))
  | .copyStatus copied =>
      (registry, .inl (.copyField .counters
        { copied with peerStatus := registry.peerStatus.mapValues PeerStatus.value }))
  | .copyField .counters copied =>
      (registry, .inr (.snapshot { copied with counters := registry.counters }))

def guarded : Locking.Guarded MetricsRegistry MetricsCall MetricsAnswer where
  Place := MetricsPlace
  enter := enter
  step place registry := registry.step place

def answer : MetricsCall → MetricsRegistry → MetricsRegistry × MetricsAnswer
  | .recordCallStarted, registry => (registry.recordCallStarted, .recorded)
  | .recordCallDisposition disposition, registry =>
      (registry.recordCallDisposition disposition, .recorded)
  | .recordError errorCode, registry => (registry.recordError errorCode, .recorded)
  | .recordRuleHit ruleId, registry => (registry.recordRuleHit ruleId, .recorded)
  | .recordCounter name amount, registry => (registry.recordCounter name amount, .recorded)
  | .setPeerStatus peerName status, registry => (registry.setPeerStatus peerName status, .recorded)
  | .snapshot, registry => (registry, .snapshot registry.snapshot)

open Locking.Guarded (Finishes)

theorem finishes_load (registry : MetricsRegistry) (field : CounterField) (key : String)
    (amount : field.Amount) :
    guarded.Finishes (.inl (.load field key amount)) registry
      (field.set registry ((field.get registry).add key amount)) .recorded :=
  Finishes.of_step (Finishes.of_step (.done _ _))

theorem implements_answer : guarded.Implements answer := by
  intro call registry
  cases call with
  | recordCallStarted => exact Finishes.of_step (Finishes.of_step (.done _ _))
  | recordCallDisposition disposition =>
      exact finishes_load registry .callsByDisposition disposition.value 1
  | recordError errorCode => exact finishes_load registry .errorsByCode errorCode 1
  | recordRuleHit ruleId => exact finishes_load registry .ruleHits ruleId 1
  | recordCounter name amount => exact finishes_load registry .counters name amount
  | setPeerStatus peerName status => exact Finishes.of_step (.done _ _)
  | snapshot =>
      exact Finishes.of_step (Finishes.of_step (Finishes.of_step (Finishes.of_step
        (Finishes.of_step (Finishes.of_step (.done _ _))))))

end MetricsRegistry

/-! ### What the counters count -/

def MetricsCall.isStarted : MetricsCall → Bool
  | .recordCallStarted => true
  | _ => false

def MetricsCall.entry : MetricsCall → Option ((field : CounterField) × String × field.Amount)
  | .recordCallDisposition disposition => some ⟨.callsByDisposition, disposition.value, 1⟩
  | .recordError errorCode => some ⟨.errorsByCode, errorCode, 1⟩
  | .recordRuleHit ruleId => some ⟨.ruleHits, ruleId, 1⟩
  | .recordCounter name amount => some ⟨.counters, name, amount⟩
  | _ => none

def amounts (field : CounterField) (key : String) (calls : List MetricsCall) :
    List field.Amount :=
  calls.filterMap fun call =>
    match call.entry with
    | some ⟨other, name, amount⟩ =>
        if here : other = field ∧ name = key then some (here.1 ▸ amount) else none
    | none => none

def lastStatus (peerName : String) (calls : List MetricsCall) : Option PeerStatus :=
  calls.foldl
    (fun status call =>
      match call with
      | .setPeerStatus other latest => if other = peerName then some latest else status
      | _ => status)
    none

def CounterField.seen (snapshot : MetricsSnapshot) :
    (field : CounterField) → OrderedDict String field.Amount
  | callsByDisposition => snapshot.callsByDisposition
  | errorsByCode => snapshot.errorsByCode
  | ruleHits => snapshot.ruleHits
  | counters => snapshot.counters

/-- The snapshot of exactly these calls: a key is there if some call counts under it, with the
sum of what they add. -/
structure MetricsSnapshot.Exact (calls : List MetricsCall) (snapshot : MetricsSnapshot) : Prop where
  total : snapshot.callsTotal = calls.countP MetricsCall.isStarted
  counted : ∀ field key, (CounterField.seen snapshot field).get? key =
    if amounts field key calls = [] then none else some (amounts field key calls).sum
  status : ∀ peerName,
    snapshot.peerStatus.get? peerName = (lastStatus peerName calls).map PeerStatus.value

namespace MetricsRegistry

theorem seen_snapshot (registry : MetricsRegistry) (field : CounterField) :
    field.seen registry.snapshot = field.get registry := by
  cases field <;> rfl

theorem get_set_self (registry : MetricsRegistry) (field : CounterField)
    (counter : OrderedDict String field.Amount) :
    field.get (field.set registry counter) = counter := by
  cases field <;> rfl

theorem get_set_other (registry : MetricsRegistry) {field other : CounterField}
    (different : field ≠ other) (counter : OrderedDict String field.Amount) :
    other.get (field.set registry counter) = other.get registry := by
  cases field <;> cases other <;> first | rfl | exact absurd rfl different

/-- A call that counts adds its amount where it counts, and leaves the rest alone. -/
theorem answer_of_entry {call : MetricsCall} {field : CounterField} {key : String}
    {amount : field.Amount} (entry : call.entry = some ⟨field, key, amount⟩)
    (registry : MetricsRegistry) :
    (answer call registry).1 = field.set registry ((field.get registry).add key amount) := by
  cases call with
  | recordCallStarted => cases entry
  | recordCallDisposition disposition =>
      cases entry
      rfl
  | recordError errorCode =>
      cases entry
      rfl
  | recordRuleHit ruleId =>
      cases entry
      rfl
  | recordCounter name amount =>
      cases entry
      rfl
  | setPeerStatus peerName status => cases entry
  | snapshot => cases entry

def Exact (calls : List MetricsCall) (registry : MetricsRegistry) : Prop :=
  registry.snapshot.Exact calls

theorem exact_start : Exact [] ({} : MetricsRegistry) where
  total := rfl
  counted field key := by cases field <;> rfl
  status _ := rfl

theorem amounts_concat (field : CounterField) (key : String) (calls : List MetricsCall)
    (call : MetricsCall) :
    amounts field key (calls ++ [call]) = amounts field key calls ++ amounts field key [call] :=
  List.filterMap_append

theorem amounts_of_entry {call : MetricsCall} {field : CounterField} {key : String}
    {amount : field.Amount} (entry : call.entry = some ⟨field, key, amount⟩) (name : String) :
    amounts field name [call] = if key = name then [amount] else [] := by
  rw [amounts, List.filterMap_cons, entry, List.filterMap_nil]
  by_cases here : key = name
  · simp only [here, and_self, dite_true, if_true]
  · simp only [here, and_false, dite_false, if_false]

theorem amounts_of_other_entry {call : MetricsCall} {field other : CounterField} {key : String}
    {amount : field.Amount} (entry : call.entry = some ⟨field, key, amount⟩)
    (different : field ≠ other) (name : String) : amounts other name [call] = [] := by
  rw [amounts, List.filterMap_cons, entry, List.filterMap_nil]
  simp only [different, false_and, dite_false]

theorem amounts_of_no_entry {call : MetricsCall} (entry : call.entry = none)
    (other : CounterField) (name : String) : amounts other name [call] = [] := by
  rw [amounts, List.filterMap_cons, entry, List.filterMap_nil]

theorem lastStatus_concat (peerName : String) (calls : List MetricsCall) (call : MetricsCall) :
    lastStatus peerName (calls ++ [call]) =
      match call with
      | .setPeerStatus other latest =>
          if other = peerName then some latest else lastStatus peerName calls
      | _ => lastStatus peerName calls := by
  rw [lastStatus, List.foldl_append, List.foldl_cons, List.foldl_nil]
  rfl

theorem countP_concat (calls : List MetricsCall) (call : MetricsCall) :
    (calls ++ [call]).countP MetricsCall.isStarted =
      calls.countP MetricsCall.isStarted + if call.isStarted then 1 else 0 := by
  rw [List.countP_append, List.countP_singleton]

theorem counted_add {calls : List MetricsCall} {other : CounterField}
    {counter : OrderedDict String other.Amount} {name : String}
    (counted : counter.get? name =
      if amounts other name calls = [] then none else some (amounts other name calls).sum)
    (key : String) (amount : other.Amount) :
    (counter.add key amount).get? name =
      if key = name then some ((amounts other name calls).sum + amount)
      else if amounts other name calls = [] then none else some (amounts other name calls).sum := by
  rw [OrderedDict.get?_add, counted]
  by_cases nothing : amounts other name calls = []
  · simp [nothing]
  · simp [nothing]

theorem Exact.of_entry {calls : List MetricsCall} {registry : MetricsRegistry}
    (exact : registry.Exact calls) {call : MetricsCall} {field : CounterField} {key : String}
    {amount : field.Amount} (entry : call.entry = some ⟨field, key, amount⟩) :
    (field.set registry ((field.get registry).add key amount)).Exact (calls ++ [call]) := by
  obtain ⟨total, counted, status⟩ := exact
  have notStarted : call.isStarted = false := by
    cases call <;> first | rfl | cases entry
  have sameStatus : ∀ peerName,
      lastStatus peerName (calls ++ [call]) = lastStatus peerName calls := by
    intro peerName
    rw [lastStatus_concat]
    cases call <;> first | rfl | cases entry
  refine ⟨?_, ?_, ?_⟩
  · rw [countP_concat, notStarted, ← total]
    cases field <;> rfl
  · intro other name
    rw [seen_snapshot, amounts_concat]
    have before := counted other name
    rw [seen_snapshot] at before
    by_cases same : field = other
    · subst same
      rw [get_set_self, amounts_of_entry entry, counted_add before]
      by_cases here : key = name
      · simp [here, List.sum_append]
      · simp [here]
    · rw [get_set_other registry same, amounts_of_other_entry entry same, List.append_nil]
      exact before
  · intro peerName
    rw [sameStatus, ← status peerName]
    cases field <;> rfl

theorem Exact.answer {calls : List MetricsCall} {registry : MetricsRegistry}
    (exact : registry.Exact calls) (call : MetricsCall) :
    (MetricsRegistry.answer call registry).1.Exact (calls ++ [call]) := by
  cases entry : call.entry with
  | some place =>
      obtain ⟨field, key, amount⟩ := place
      rw [answer_of_entry entry]
      exact exact.of_entry entry
  | none =>
      obtain ⟨total, counted, status⟩ := exact
      have unchanged : ∀ other name,
          amounts other name (calls ++ [call]) = amounts other name calls := by
        intro other name
        rw [amounts_concat, amounts_of_no_entry entry, List.append_nil]
      cases call with
      | recordCallStarted =>
          refine ⟨?_, fun other name => ?_, fun peerName => ?_⟩
          · rw [countP_concat, ← total]
            rfl
          · rw [unchanged]
            exact counted other name
          · rw [lastStatus_concat]
            exact status peerName
      | recordCallDisposition disposition => cases entry
      | recordError errorCode => cases entry
      | recordRuleHit ruleId => cases entry
      | recordCounter name amount => cases entry
      | setPeerStatus peerName latest =>
          refine ⟨?_, fun other name => ?_, fun other => ?_⟩
          · rw [countP_concat, ← total]
            rfl
          · rw [unchanged]
            exact counted other name
          · have before := status other
            rw [lastStatus_concat]
            simp only [MetricsRegistry.answer, setPeerStatus, snapshot,
              OrderedDict.get?_mapValues, OrderedDict.get?_insert] at before ⊢
            by_cases same : peerName = other
            · simp [same]
            · simpa [same] using before
      | snapshot =>
          refine ⟨?_, fun other name => ?_, fun peerName => ?_⟩
          · rw [countP_concat, ← total]
            rfl
          · rw [unchanged]
            exact counted other name
          · rw [lastStatus_concat]
            exact status peerName

theorem exact_after (calls : List (MetricsCall × MetricsAnswer)) :
    (Locking.after answer {} calls).Exact (calls.map Prod.fst) := by
  induction calls using List.reverseRecOn with
  | nil => exact exact_start
  | append_singleton calls call ih =>
      rw [Locking.after_append, List.map_append]
      exact ih.answer call.1

/-- Any number of threads count in one registry, and their steps interleave in any order.
Then each snapshot is exact: it has what the calls of one moment between its invocation and its
return add up to, among them all calls that had returned before, and no call that was not yet
invoked.  No increment is lost: when the threads are done each counter has what was invoked. -/
theorem snapshots_are_exact (threads : Nat) (actions : List (Locking.Action MetricsCall))
    {last : Locking.Config guarded}
    (ran : Transition.run Locking.Config.act (Locking.Config.start guarded {} threads) actions =
      some last) :
    (∀ thread snapshot before during,
      Locking.Spans (Locking.events (Locking.Config.start guarded {} threads) actions) thread
        .snapshot (.snapshot snapshot) before during →
      ∃ earlier later calls, during = earlier ++ later ∧ snapshot.Exact calls ∧
        ∀ counts : MetricsCall → Bool,
          before.countP (Locking.Event.isResponded counts) ≤ calls.countP counts ∧
          calls.countP counts ≤ (before ++ [Locking.Event.invoked thread MetricsCall.snapshot] ++
            earlier).countP (Locking.Event.isInvoked counts)) ∧
    ((∀ phase ∈ last.threads, phase = Locking.Phase.idle) →
      ∃ calls, last.state.snapshot.Exact calls ∧ ∀ counts : MetricsCall → Bool,
        calls.countP counts =
          (Locking.events (Locking.Config.start guarded {} threads) actions).countP
            (Locking.Event.isInvoked counts)) := by
  have inv := Locking.inv_run implements_answer ran
  constructor
  · intro thread snapshot before during spans
    obtain ⟨earlier, later, split, isTold, moment⟩ := inv.linearized.moment spans
    have exact := exact_after (Locking.commits (before ++ earlier))
    cases isTold
    refine ⟨earlier, later, _, split, exact, fun counts => ?_⟩
    rw [List.countP_map]
    exact ⟨moment.least counts, moment.most counts⟩
  · intro allIdle
    refine ⟨(Locking.commits (Locking.events (Locking.Config.start guarded {} threads)
      actions)).map Prod.fst, ?_, fun counts => ?_⟩
    · rw [(inv.settled allIdle (fun _ => true)).2]
      exact exact_after _
    · rw [List.countP_map]
      exact (inv.settled allIdle counts).1.symm

def countedMeanwhile : List (Locking.Action MetricsCall) :=
  [.invoke 0 (.recordError "AS-SIP-001"), .acquire 0, .step 0, .invoke 1 .snapshot, .step 0,
    .release 0, .acquire 1, .step 1, .step 1, .step 1, .step 1, .step 1, .step 1, .release 1,
    .respond 0, .respond 1]

theorem snapshots_are_exact_meanwhile :
    (∃ calls, MetricsSnapshot.Exact calls
      { errorsByCode := OrderedDict.singleton "AS-SIP-001" 1 }) ∧
    ∃ last calls, Transition.run Locking.Config.act (Locking.Config.start guarded {} 2)
        countedMeanwhile = some last ∧ last.state.snapshot.Exact calls ∧
      ∀ counts : MetricsCall → Bool,
        calls.countP counts = [MetricsCall.recordError "AS-SIP-001", .snapshot].countP counts := by
  obtain ⟨last, ran⟩ : ∃ last, Transition.run Locking.Config.act
      (Locking.Config.start guarded {} 2) countedMeanwhile = some last := ⟨_, rfl⟩
  have both := snapshots_are_exact 2 countedMeanwhile ran
  constructor
  · obtain ⟨earlier, later, calls, _, exact, _⟩ := both.1 1
      { errorsByCode := OrderedDict.singleton "AS-SIP-001" 1 }
      [.invoked 0 (.recordError "AS-SIP-001")]
      [.committed 0 (.recordError "AS-SIP-001") .recorded, .committed 1 .snapshot (.snapshot
        { errorsByCode := OrderedDict.singleton "AS-SIP-001" 1 }),
        .responded 0 (.recordError "AS-SIP-001") .recorded] ⟨⟨[], rfl⟩, by simp⟩
    exact ⟨calls, exact⟩
  · have allIdle : ∀ phase ∈ last.threads, phase = Locking.Phase.idle := by
      cases ran
      intro phase member
      simpa [Locking.Config.set, Locking.Config.start] using member
    obtain ⟨calls, exact, counted⟩ := both.2 allIdle
    exact ⟨last, calls, ran, exact, counted⟩

end MetricsRegistry

end AsPlatform
