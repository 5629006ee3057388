/-
Cancelling the timers that the transactions of a manager still own.

The manager, the transactions and the timers are objects of the stack.  A transaction is
known by its attributes, an object that they refer to by its callback, and of everything
else that `cancel()` may change nothing is said.
-/

import AsPlatform.Library.Loops
import AsPlatform.Library.OrderedDict
import Mathlib.Data.Set.Card
import Mathlib.Logic.Function.Basic

namespace AsPlatform

def transactionTimerNames : List String :=
  ["teA", "teB", "teC", "teD", "teE", "teF", "teG"]

inductive TableName where
  | tclient
  | tserver
  deriving DecidableEq

/-- An attribute may be missing, and one that is there may be `None`. -/
abbrev Attribute (Referent : Type) : Type := Option (Option Referent)

/-- The objects of the stack that the walk reads.  `Loop` is what else there is. -/
structure Objects (Key Transaction Object Callback Loop : Type) where
  table : TableName → Attribute (OrderedDict Key Transaction)
  attributes : Transaction → String → Attribute Object
  cbFunc : Object → Attribute Callback
  loop : Loop

namespace Objects

variable {Key Transaction Object Callback Loop : Type}

/-- `getattr(transaction, timer_name, None)`. -/
def getattr (objects : Objects Key Transaction Object Callback Loop) (transaction : Transaction)
    (timerName : String) : Option Object :=
  (objects.attributes transaction timerName).join

theorem getattr_eq_some {objects : Objects Key Transaction Object Callback Loop}
    {transaction : Transaction} {timerName : String} {object : Object} :
    objects.getattr transaction timerName = some object ↔
      objects.attributes transaction timerName = some (some object) := by
  rw [getattr, Option.join_eq_some_iff]

/-- `setattr(transaction, timer_name, None)`. -/
def setNone [DecidableEq Transaction] (objects : Objects Key Transaction Object Callback Loop)
    (transaction : Transaction) (timerName : String) :
    Objects Key Transaction Object Callback Loop :=
  { objects with
    attributes := Function.update objects.attributes transaction
      (Function.update (objects.attributes transaction) timerName (some none)) }

def armed? (objects : Objects Key Transaction Object Callback Loop) (object : Object) :
    Option Callback :=
  (objects.cbFunc object).join

def Armed (objects : Objects Key Transaction Object Callback Loop) (object : Object) : Prop :=
  objects.armed? object ≠ none

def Holds (objects : Objects Key Transaction Object Callback Loop) (transaction : Transaction) :
    Prop :=
  ∃ name transactions, (objects.table name).join = some transactions ∧
    transaction ∈ transactions.values

def Reaches (objects : Objects Key Transaction Object Callback Loop) (object : Object) : Prop :=
  ∃ transaction timerName, objects.Holds transaction ∧ timerName ∈ transactionTimerNames ∧
    objects.getattr transaction timerName = some object

end Objects

/-! ### What is visited -/

section Cells

variable {Key Transaction Object Callback Loop : Type}

def timerCells (transaction : Transaction) : List (Transaction × String) :=
  transactionTimerNames.flatMap fun timerName => [(transaction, timerName)]

def Objects.tableCells (objects : Objects Key Transaction Object Callback Loop) (name : TableName) :
    List (Transaction × String) :=
  match (objects.table name).join with
  | none => []
  | some transactions => transactions.values.flatMap timerCells

def Objects.cells (objects : Objects Key Transaction Object Callback Loop) :
    List (Transaction × String) :=
  objects.tableCells .tclient ++ objects.tableCells .tserver

theorem Objects.mem_cells {objects : Objects Key Transaction Object Callback Loop}
    {transaction : Transaction} {timerName : String} :
    (transaction, timerName) ∈ objects.cells ↔
      objects.Holds transaction ∧ timerName ∈ transactionTimerNames := by
  have ofTable : ∀ name, (transaction, timerName) ∈ objects.tableCells name ↔
      (∃ transactions, (objects.table name).join = some transactions ∧
        transaction ∈ transactions.values) ∧ timerName ∈ transactionTimerNames := by
    intro name
    unfold Objects.tableCells
    cases (objects.table name).join with
    | none => simp
    | some transactions => simp [timerCells]
  rw [Objects.cells, List.mem_append, ofTable, ofTable, Objects.Holds, ← or_and_right]
  constructor
  · rintro ⟨inTable | inTable, isName⟩
    · exact ⟨⟨.tclient, inTable⟩, isName⟩
    · exact ⟨⟨.tserver, inTable⟩, isName⟩
  · rintro ⟨⟨name, inTable⟩, isName⟩
    cases name with
    | tclient => exact ⟨Or.inl inTable, isName⟩
    | tserver => exact ⟨Or.inr inTable, isName⟩

theorem Objects.reaches_iff {objects : Objects Key Transaction Object Callback Loop}
    {object : Object} :
    objects.Reaches object ↔
      ∃ cell, cell ∈ objects.cells ∧ objects.getattr cell.1 cell.2 = some object := by
  constructor
  · rintro ⟨transaction, timerName, holds, isName, refers⟩
    exact ⟨(transaction, timerName), Objects.mem_cells.mpr ⟨holds, isName⟩, refers⟩
  · rintro ⟨⟨transaction, timerName⟩, member, refers⟩
    obtain ⟨holds, isName⟩ := Objects.mem_cells.mp member
    exact ⟨transaction, timerName, holds, isName, refers⟩

end Cells

/-! ### The walk -/

section Walk

variable {Key Transaction Object Callback Loop : Type} [DecidableEq Transaction]

structure Cancelling (Key Transaction Object Callback Loop : Type) where
  objects : Objects Key Transaction Object Callback Loop
  calls : List Object
  cancelled : Nat

variable (cancel : Object → Objects Key Transaction Object Callback Loop →
  Objects Key Transaction Object Callback Loop)

/-- The body of the innermost loop. -/
def cancelTimer (transaction : Transaction)
    (walk : Cancelling Key Transaction Object Callback Loop) (timerName : String) :
    Cancelling Key Transaction Object Callback Loop :=
  match walk.objects.getattr transaction timerName with
  | none => walk
  | some timer =>
      match walk.objects.armed? timer with
      | none => walk
      | some _ =>
          { objects := (cancel timer walk.objects).setNone transaction timerName
            calls := walk.calls ++ [timer]
            cancelled := walk.cancelled + 1 }

def cancelTimersOf (walk : Cancelling Key Transaction Object Callback Loop)
    (transaction : Transaction) : Cancelling Key Transaction Object Callback Loop :=
  transactionTimerNames.foldl (cancelTimer cancel transaction) walk

/-- The body of the outermost loop: a table that is missing, `None` or empty is passed over. -/
def cancelTimersIn (walk : Cancelling Key Transaction Object Callback Loop) (name : TableName) :
    Cancelling Key Transaction Object Callback Loop :=
  match (walk.objects.table name).join with
  | none => walk
  | some transactions =>
      if transactions.length = 0 then walk
      else transactions.values.foldl (cancelTimersOf cancel) walk

/-- `cancel_transaction_timers`: `cancelled` is what it returns. -/
def cancelTransactionTimers (objects : Objects Key Transaction Object Callback Loop) :
    Cancelling Key Transaction Object Callback Loop :=
  [TableName.tclient, .tserver].foldl (cancelTimersIn cancel)
    { objects := objects
      calls := []
      cancelled := 0 }

/-- A timer that is missing, `None` or dead is left alone. -/
theorem cancelTimer_disarmed (walk : Cancelling Key Transaction Object Callback Loop)
    {transaction : Transaction} {timerName : String}
    (disarmed : ∀ timer, walk.objects.getattr transaction timerName = some timer →
      ¬walk.objects.Armed timer) : cancelTimer cancel transaction walk timerName = walk := by
  unfold cancelTimer
  cases refers : walk.objects.getattr transaction timerName with
  | none => rfl
  | some timer =>
      have dead : walk.objects.armed? timer = none := not_not.mp (disarmed timer refers)
      simp only [dead]

/-- `cancel()` of an armed timer sets its `cb_func` to `None`, and has no other effect on
the tables, the transactions and their timers. -/
def CancelsTimer [DecidableEq Object] : Prop :=
  ∀ timer objects, Objects.Armed objects timer →
    ∃ loop, cancel timer objects =
      { objects with
        cbFunc := Function.update objects.cbFunc timer (some none)
        loop := loop }

end Walk

/-! ### What a part of the walk does -/

section Sweep

variable {Key Transaction Object Callback Loop : Type} [DecidableEq Object]

/-- What the walk over some cells does: `calls` are the timers that it cancels, each of them
referred to by a cell and armed until then. -/
structure SweptBy (calls : List Object) (cells : List (Transaction × String))
    (before after : Cancelling Key Transaction Object Callback Loop) : Prop where
  made : after.calls = before.calls ++ calls
  cancelled : after.cancelled = before.cancelled + calls.length
  distinct : calls.Nodup
  called : ∀ object, object ∈ calls ↔ before.objects.Armed object ∧
    ∃ cell, cell ∈ cells ∧ before.objects.getattr cell.1 cell.2 = some object
  table : after.objects.table = before.objects.table
  cbFunc : ∀ object, after.objects.cbFunc object =
    if object ∈ calls then some none else before.objects.cbFunc object
  attributes : ∀ transaction timerName,
    after.objects.attributes transaction timerName =
        before.objects.attributes transaction timerName ∨
      (transaction, timerName) ∈ cells ∧
        after.objects.attributes transaction timerName = some none ∧
        ∃ timer, timer ∈ calls ∧
          before.objects.attributes transaction timerName = some (some timer)
  idle : calls = [] → after = before

def Swept (cells : List (Transaction × String))
    (before after : Cancelling Key Transaction Object Callback Loop) : Prop :=
  ∃ calls, SweptBy calls cells before after

namespace SweptBy

variable {calls laterCalls : List Object} {cells laterCells : List (Transaction × String)}
  {before middle after : Cancelling Key Transaction Object Callback Loop}

theorem armed_iff (swept : SweptBy calls cells before after) (object : Object) :
    after.objects.Armed object ↔ before.objects.Armed object ∧ object ∉ calls := by
  rw [Objects.Armed, Objects.armed?, swept.cbFunc object]
  by_cases called : object ∈ calls
  · simp [called]
  · simp [called, Objects.Armed, Objects.armed?]

/-- No cell comes to refer to an object that it did not refer to. -/
theorem getattr_before (swept : SweptBy calls cells before after) {transaction : Transaction}
    {timerName : String} {object : Object}
    (refers : after.objects.getattr transaction timerName = some object) :
    before.objects.getattr transaction timerName = some object := by
  rw [Objects.getattr_eq_some] at refers ⊢
  rcases swept.attributes transaction timerName with same | ⟨_, cleared, _⟩
  · rw [← same]
    exact refers
  · rw [cleared] at refers
    cases refers

/-- A cell that referred to an object that has not been cancelled still does. -/
theorem getattr_after (swept : SweptBy calls cells before after) {transaction : Transaction}
    {timerName : String} {object : Object}
    (refers : before.objects.getattr transaction timerName = some object)
    (kept : object ∉ calls) : after.objects.getattr transaction timerName = some object := by
  rw [Objects.getattr_eq_some] at refers ⊢
  rcases swept.attributes transaction timerName with same | ⟨_, _, timer, called, referred⟩
  · rw [same]
    exact refers
  · rw [refers] at referred
    cases referred
    exact absurd called kept

theorem append (first : SweptBy calls cells before middle)
    (second : SweptBy laterCalls laterCells middle after) :
    SweptBy (calls ++ laterCalls) (cells ++ laterCells) before after where
  made := by rw [second.made, first.made, List.append_assoc]
  cancelled := by rw [second.cancelled, first.cancelled, List.length_append, Nat.add_assoc]
  distinct := by
    refine List.nodup_append.mpr ⟨first.distinct, second.distinct, ?_⟩
    intro object called other calledLater same
    rw [← same] at calledLater
    have armed := ((second.called object).mp calledLater).1
    exact ((first.armed_iff object).mp armed).2 called
  called := by
    intro object
    rw [List.mem_append]
    constructor
    · rintro (now | later)
      · obtain ⟨armed, cell, member, refers⟩ := (first.called object).mp now
        exact ⟨armed, cell, List.mem_append_left _ member, refers⟩
      · obtain ⟨armed, cell, member, refers⟩ := (second.called object).mp later
        exact ⟨((first.armed_iff object).mp armed).1, cell, List.mem_append_right _ member,
          first.getattr_before refers⟩
    · rintro ⟨armed, cell, member, refers⟩
      by_cases called : object ∈ calls
      · exact Or.inl called
      · right
        rcases List.mem_append.mp member with now | later
        · exact absurd ((first.called object).mpr ⟨armed, cell, now, refers⟩) called
        · exact (second.called object).mpr ⟨(first.armed_iff object).mpr ⟨armed, called⟩, cell,
            later, first.getattr_after refers called⟩
  table := second.table.trans first.table
  cbFunc := by
    intro object
    rw [second.cbFunc object, first.cbFunc object]
    by_cases later : object ∈ laterCalls <;> simp [later]
  attributes := by
    intro transaction timerName
    rcases second.attributes transaction timerName with same | ⟨member, cleared, timer, called, was⟩
    · rw [same]
      rcases first.attributes transaction timerName with
        asWas | ⟨member, cleared, timer, called, was⟩
      · exact Or.inl asWas
      · exact Or.inr ⟨List.mem_append_left _ member, cleared, timer,
          List.mem_append_left _ called, was⟩
    · right
      refine ⟨List.mem_append_right _ member, cleared, timer, List.mem_append_right _ called, ?_⟩
      exact Objects.getattr_eq_some.mp (first.getattr_before (Objects.getattr_eq_some.mpr was))
  idle := by
    intro none
    obtain ⟨noneNow, noneLater⟩ := List.append_eq_nil_iff.mp none
    exact (second.idle noneLater).trans (first.idle noneNow)

theorem nothing (cells : List (Transaction × String))
    (walk : Cancelling Key Transaction Object Callback Loop)
    (disarmed : ∀ object cell, cell ∈ cells →
      walk.objects.getattr cell.1 cell.2 = some object → ¬walk.objects.Armed object) :
    SweptBy [] cells walk walk where
  made := (List.append_nil _).symm
  cancelled := rfl
  distinct := List.nodup_nil
  called := by
    intro object
    constructor
    · intro called
      cases called
    · rintro ⟨armed, cell, member, refers⟩
      exact absurd armed (disarmed object cell member refers)
  table := rfl
  cbFunc := fun _ => rfl
  attributes := fun _ _ => Or.inl rfl
  idle := fun _ => rfl

end SweptBy

theorem swept_composes :
    Loops.Composes fun (cells : List (Transaction × String))
      (before after : Cancelling Key Transaction Object Callback Loop) =>
        Swept cells before after where
  nil := fun walk => ⟨[], SweptBy.nothing [] walk fun _ _ member => absurd member List.not_mem_nil⟩
  append := by
    rintro first second before middle after ⟨calls, now⟩ ⟨laterCalls, later⟩
    exact ⟨calls ++ laterCalls, now.append later⟩

/-! ### What the walk does -/

variable [DecidableEq Transaction]
  {cancel : Object → Objects Key Transaction Object Callback Loop →
    Objects Key Transaction Object Callback Loop}

/-- One armed timer is cancelled, and the attribute that referred to it is set to `None`. -/
theorem cancelTimer_armed (cancels : CancelsTimer cancel)
    (walk : Cancelling Key Transaction Object Callback Loop) {transaction : Transaction}
    {timerName : String} {timer : Object}
    (refers : walk.objects.getattr transaction timerName = some timer)
    (armed : walk.objects.Armed timer) :
    SweptBy [timer] [(transaction, timerName)] walk
      (cancelTimer cancel transaction walk timerName) := by
  obtain ⟨callback, isArmed⟩ := Option.ne_none_iff_exists'.mp armed
  obtain ⟨loop, cancelled⟩ := cancels timer walk.objects armed
  have body : cancelTimer cancel transaction walk timerName =
      { objects := (cancel timer walk.objects).setNone transaction timerName
        calls := walk.calls ++ [timer]
        cancelled := walk.cancelled + 1 } := by
    rw [cancelTimer, refers]
    simp only [isArmed]
  rw [cancelled] at body
  rw [body]
  refine ⟨rfl, rfl, List.nodup_singleton timer, ?_, rfl, ?_, ?_, fun none => by cases none⟩
  · intro object
    constructor
    · intro called
      rw [List.mem_singleton.mp called]
      exact ⟨armed, _, List.mem_singleton_self _, refers⟩
    · rintro ⟨_, cell, member, referred⟩
      rw [List.mem_singleton.mp member] at referred
      rw [refers] at referred
      cases referred
      exact List.mem_singleton_self timer
  · intro object
    by_cases same : object = timer
    · subst same
      simp [Objects.setNone]
    · simp [Objects.setNone, same]
  · intro other name
    by_cases cleared : (other, name) = (transaction, timerName)
    · cases cleared
      exact Or.inr ⟨List.mem_singleton_self _, by simp [Objects.setNone], timer,
        List.mem_singleton_self timer, Objects.getattr_eq_some.mp refers⟩
    · left
      by_cases same : other = transaction
      · subst same
        have apart : name ≠ timerName := fun equal => cleared (by rw [equal])
        simp [Objects.setNone, apart]
      · simp [Objects.setNone, same]

theorem cancelTimer_swept (cancels : CancelsTimer cancel) (transaction : Transaction)
    (walk : Cancelling Key Transaction Object Callback Loop) (timerName : String) :
    Swept [(transaction, timerName)] walk (cancelTimer cancel transaction walk timerName) := by
  by_cases alive : ∃ timer, walk.objects.getattr transaction timerName = some timer ∧
      walk.objects.Armed timer
  · obtain ⟨timer, refers, armed⟩ := alive
    exact ⟨[timer], cancelTimer_armed cancels walk refers armed⟩
  · have disarmed : ∀ timer, walk.objects.getattr transaction timerName = some timer →
        ¬walk.objects.Armed timer := fun timer refers armed => alive ⟨timer, refers, armed⟩
    rw [cancelTimer_disarmed cancel walk disarmed]
    refine ⟨[], SweptBy.nothing _ walk ?_⟩
    intro object cell member refers
    rw [List.mem_singleton.mp member] at refers
    exact disarmed object refers

theorem cancelTimersOf_swept (cancels : CancelsTimer cancel)
    (walk : Cancelling Key Transaction Object Callback Loop) (transaction : Transaction) :
    Swept (timerCells transaction) walk (cancelTimersOf cancel walk transaction) :=
  swept_composes.foldl (cancelTimer_swept cancels transaction) transactionTimerNames walk

theorem cancelTimersIn_swept (cancels : CancelsTimer cancel)
    (walk : Cancelling Key Transaction Object Callback Loop) (name : TableName) :
    Swept (walk.objects.tableCells name) walk (cancelTimersIn cancel walk name) := by
  unfold Objects.tableCells cancelTimersIn
  cases (walk.objects.table name).join with
  | none => exact swept_composes.nil walk
  | some transactions =>
      by_cases empty : transactions.length = 0
      · have noValues : transactions.values = [] := by
          rw [OrderedDict.values, List.eq_nil_of_length_eq_zero empty, List.map_nil]
        simp only [empty, if_true, noValues]
        exact swept_composes.nil walk
      · simp only [empty, if_false]
        exact swept_composes.foldl (cancelTimersOf_swept cancels) transactions.values walk

theorem cancelTransactionTimers_swept (cancels : CancelsTimer cancel)
    (objects : Objects Key Transaction Object Callback Loop) :
    Swept objects.cells { objects := objects, calls := [], cancelled := 0 }
      (cancelTransactionTimers cancel objects) := by
  obtain ⟨calls, clients⟩ := cancelTimersIn_swept cancels
    { objects := objects, calls := [], cancelled := 0 } .tclient
  obtain ⟨laterCalls, servers⟩ := cancelTimersIn_swept cancels
    (cancelTimersIn cancel { objects := objects, calls := [], cancelled := 0 } .tclient) .tserver
  have same : (cancelTimersIn cancel
      { objects := objects, calls := [], cancelled := 0 } .tclient).objects.tableCells .tserver =
        objects.tableCells .tserver := by
    rw [Objects.tableCells, Objects.tableCells, clients.table]
  rw [same] at servers
  exact ⟨calls ++ laterCalls, clients.append servers⟩

structure TimersCancelled
    (cancel : Object → Objects Key Transaction Object Callback Loop →
      Objects Key Transaction Object Callback Loop)
    (before : Objects Key Transaction Object Callback Loop)
    (result : Cancelling Key Transaction Object Callback Loop) : Prop where
  disarmed : ∀ timer, before.Reaches timer ∨ result.objects.Reaches timer →
    ¬result.objects.Armed timer
  once : ∀ timer, before.Reaches timer → before.Armed timer → result.calls.count timer = 1
  others : ∀ object, ¬(before.Reaches object ∧ before.Armed object) →
    result.calls.count object = 0 ∧ result.objects.cbFunc object = before.cbFunc object
  counted : (result.cancelled : ℕ∞) =
    {timer | before.Reaches timer ∧ before.Armed timer}.encard
  table : result.objects.table = before.table
  /-- An attribute is changed only where it referred to an armed timer, and then to `None`. -/
  attributes : ∀ transaction timerName,
    result.objects.attributes transaction timerName = before.attributes transaction timerName ∨
      before.Holds transaction ∧ timerName ∈ transactionTimerNames ∧
        result.objects.attributes transaction timerName = some none ∧
        ∃ timer, before.Armed timer ∧
          before.attributes transaction timerName = some (some timer)
  again : cancelTransactionTimers cancel result.objects =
    { objects := result.objects, calls := [], cancelled := 0 }

/-- For every manager: all timers that its transactions refer to are cancelled, and those that
were armed exactly once. -/
theorem cancelTransactionTimers_cancels (cancels : CancelsTimer cancel)
    (objects : Objects Key Transaction Object Callback Loop) :
    TimersCancelled cancel objects (cancelTransactionTimers cancel objects) := by
  obtain ⟨calls, swept⟩ := cancelTransactionTimers_swept cancels objects
  have made : (cancelTransactionTimers cancel objects).calls = calls := swept.made
  have called : ∀ object, object ∈ calls ↔ objects.Reaches object ∧ objects.Armed object := by
    intro object
    rw [swept.called object, Objects.reaches_iff, and_comm]
  have reached : ∀ timer, (cancelTransactionTimers cancel objects).objects.Reaches timer →
      objects.Reaches timer := by
    rintro timer ⟨transaction, timerName, ⟨name, transactions, isTable, member⟩, isName, refers⟩
    rw [swept.table] at isTable
    exact ⟨transaction, timerName, ⟨name, transactions, isTable, member⟩, isName,
      swept.getattr_before refers⟩
  have disarmed : ∀ timer, objects.Reaches timer →
      ¬(cancelTransactionTimers cancel objects).objects.Armed timer := by
    intro timer reaches armed
    obtain ⟨wasArmed, spared⟩ := (swept.armed_iff timer).mp armed
    exact spared ((called timer).mpr ⟨reaches, wasArmed⟩)
  refine ⟨?_, ?_, ?_, ?_, swept.table, ?_, ?_⟩
  · rintro timer (before | after)
    · exact disarmed timer before
    · exact disarmed timer (reached timer after)
  · intro timer reaches armed
    rw [made]
    exact List.count_eq_one_of_mem swept.distinct ((called timer).mpr ⟨reaches, armed⟩)
  · intro object other
    have spared : object ∉ calls := fun member => other ((called object).mp member)
    rw [made, swept.cbFunc object, if_neg spared]
    exact ⟨List.count_eq_zero_of_not_mem spared, rfl⟩
  · have same : {timer | objects.Reaches timer ∧ objects.Armed timer} =
        (calls.toFinset : Set Object) := by
      ext timer
      rw [List.coe_toFinset]
      exact (called timer).symm
    rw [same, Set.encard_coe_eq_coe_finsetCard, List.toFinset_card_of_nodup swept.distinct,
      swept.cancelled, Nat.zero_add]
  · intro transaction timerName
    rcases swept.attributes transaction timerName with kept | ⟨member, cleared, timer, now, was⟩
    · exact Or.inl kept
    · obtain ⟨holds, isName⟩ := Objects.mem_cells.mp member
      exact Or.inr ⟨holds, isName, cleared, timer, ((called timer).mp now).2, was⟩
  · obtain ⟨more, second⟩ := cancelTransactionTimers_swept cancels
      (cancelTransactionTimers cancel objects).objects
    apply second.idle
    rw [List.eq_nil_iff_forall_not_mem]
    intro timer again
    obtain ⟨armed, cell, member, refers⟩ := (second.called timer).mp again
    exact disarmed timer (reached timer (Objects.reaches_iff.mpr ⟨cell, member, refers⟩)) armed

end Sweep

/-- The transaction `0` is in both tables.  Its `teA` and its `teB` are one armed timer, its
`teD` is a dead one, and its `teE` is `None`. -/
def sampleManager : Objects String Nat Nat Unit Nat where
  table := fun _ => some (some (OrderedDict.singleton "invite" 0))
  attributes := fun _ timerName =>
    if timerName = "teA" ∨ timerName = "teB" then some (some 0)
    else if timerName = "teD" then some (some 1)
    else if timerName = "teE" then some none
    else none
  cbFunc := fun object => if object = 0 then some (some ()) else some none
  loop := 1

def sampleCancel (timer : Nat) (objects : Objects String Nat Nat Unit Nat) :
    Objects String Nat Nat Unit Nat :=
  { objects with
    cbFunc := Function.update objects.cbFunc timer (some none)
    loop := objects.loop - 1 }

theorem cancelTransactionTimers_cancels_shared :
    TimersCancelled sampleCancel sampleManager
        (cancelTransactionTimers sampleCancel sampleManager) ∧
      (cancelTransactionTimers sampleCancel sampleManager).cancelled = 1 :=
  ⟨cancelTransactionTimers_cancels (fun _ objects _ => ⟨objects.loop - 1, rfl⟩) sampleManager,
    by decide⟩

end AsPlatform
