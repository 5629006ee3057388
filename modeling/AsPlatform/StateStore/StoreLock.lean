/-
The in-memory store behind its lock.

Each access to the dictionary is a step of its own, and one that needs a key fails if the
key is gone.  With the lock it never is.
-/

import AsPlatform.Library.Locking
import AsPlatform.StateStore.AccessOrder

namespace AsPlatform

variable {Record : Type}

inductive StoreAnswer (Record : Type) where
  | found (value : Option Record)
  | done (outcome : Except PyError Unit)

inductive StorePlace (Record : Type) where
  | test (key : String)
  | moveFound (key : String)
  | get (key : String)
  | store (key : String) (value : Record)
  | moveStored (key : String)
  | scan (pre : String) (limit : Int) (index : Nat) (family : List String)
  | whileAbove (limit : Int) (family : List String)
  | delete (limit : Int) (key : String) (family : List String)

namespace InMemoryStateStore

def enter : StoreOp Record → StorePlace Record
  | .read key => .test key
  | .write key value => .store key value
  | .trim pre limit => .scan pre limit 0 []

/-- `move_to_end`, which raises if the key is not there. -/
def moveStep (store : InMemoryStateStore Record) (key : String)
    (rest : StorePlace Record ⊕ StoreAnswer Record) :
    InMemoryStateStore Record × (StorePlace Record ⊕ StoreAnswer Record) :=
  if key ∈ store.entries.keys then ({ entries := store.entries.moveToEnd key }, rest)
  else (store, .inr (.done (.error (.keyError key))))

def step (store : InMemoryStateStore Record) :
    StorePlace Record → InMemoryStateStore Record × (StorePlace Record ⊕ StoreAnswer Record)
  | .test key =>
      (store, if key ∉ store.entries.keys then .inr (.found none) else .inl (.moveFound key))
  | .moveFound key => store.moveStep key (.inl (.get key))
  | .get key =>
      (store, match store.entries.get? key with
        | some value => .inr (.found (some value))
        | none => .inr (.done (.error (.keyError key))))
  | .store key value => ({ entries := store.entries.insert key value }, .inl (.moveStored key))
  | .moveStored key => store.moveStep key (.inr (.done (.ok ())))
  | .scan pre limit index family =>
      (store, match store.entries.keys[index]? with
        | some key => .inl (.scan pre limit (index + 1)
            (if startsWith pre key then family ++ [key] else family))
        | none => .inl (.whileAbove limit family))
  | .whileAbove limit family =>
      (store, if (family.length : Int) > limit then
          match family with
          | [] => .inr (.done (.error (.indexError "pop from empty list")))
          | key :: family => .inl (.delete limit key family)
        else .inr (.done (.ok ())))
  | .delete limit key family =>
      if key ∈ store.entries.keys then
        ({ entries := store.entries.erase key }, .inl (.whileAbove limit family))
      else (store, .inr (.done (.error (.keyError key))))

def guarded :
    Locking.Guarded (InMemoryStateStore Record) (StoreOp Record) (StoreAnswer Record) where
  Place := StorePlace Record
  enter := enter
  step place store := store.step place

def answer : StoreOp Record → InMemoryStateStore Record →
    InMemoryStateStore Record × StoreAnswer Record
  | .read key, store => ((store.read key).1, .found (store.read key).2)
  | .write key value, store => (store.write key value, .done (.ok ()))
  | .trim pre limit, store => ((store.trim pre limit).1, .done (store.trim pre limit).2)

/-! ### Each method on its own -/

open Locking.Guarded (Finishes)

theorem finishes_read (store : InMemoryStateStore Record) (key : String) :
    guarded.Finishes (.inl (.test key)) store (store.read key).1 (.found (store.read key).2) := by
  cases stored : store.entries.get? key with
  | none =>
      rw [read_absent store stored]
      have absent := (OrderedDict.get?_eq_none_iff _ _).mp stored
      have taken : guarded.step (.test key) store = (store, .inr (.found none)) := by
        simp only [guarded, step, if_pos absent]
      exact .step taken (.done _ _)
  | some value =>
      rw [read_present store stored]
      have present := (OrderedDict.mem_keys_iff _ _).mpr ⟨value, stored⟩
      have moved : (store.entries.moveToEnd key).get? key = some value :=
        (OrderedDict.get?_moveToEnd store.entries key key).trans stored
      have tested : guarded.step (.test key) store = (store, .inl (.moveFound key)) := by
        simp only [guarded, step, if_neg (not_not.mpr present)]
      have taken : guarded.step (.moveFound key) store =
          ({ entries := store.entries.moveToEnd key }, .inl (.get key)) := by
        simp only [guarded, step, moveStep, if_pos present]
      have got : guarded.step (.get key) { entries := store.entries.moveToEnd key } =
          ({ entries := store.entries.moveToEnd key }, .inr (.found (some value))) := by
        simp only [guarded, step, moved]
      exact .step tested (.step taken (.step got (.done _ _)))

theorem finishes_write (store : InMemoryStateStore Record) (key : String) (value : Record) :
    guarded.Finishes (.inl (.store key value)) store (store.write key value) (.done (.ok ())) := by
  have present : key ∈ (store.entries.insert key value).keys :=
    (OrderedDict.mem_keys_iff _ _).mpr ⟨value, by rw [OrderedDict.get?_insert, if_pos rfl]⟩
  have moved : guarded.step (.moveStored key) { entries := store.entries.insert key value } =
      (store.write key value, .inr (.done (.ok ()))) := by
    simp only [guarded, step, moveStep, if_pos present, write]
  exact .step rfl (.step moved (.done _ _))

theorem finishes_evict (limit : Int) (family : List String) (entries : OrderedDict String Record)
    (distinct : family.Nodup) (present : ∀ key ∈ family, key ∈ entries.keys) :
    guarded.Finishes (.inl (.whileAbove limit family)) ⟨entries⟩ ⟨(evict limit family entries).1⟩
      (.done (evict limit family entries).2) := by
  induction family generalizing entries with
  | nil =>
      rw [evict]
      by_cases above : (0 : Int) > limit
      · have taken : guarded.step (.whileAbove limit []) ⟨entries⟩ =
            (⟨entries⟩, .inr (.done (.error (.indexError "pop from empty list")))) := by
          have isAbove : ((([] : List String).length : Int) > limit) := above
          simp only [guarded, step, if_pos isAbove]
        rw [if_pos above]
        exact .step taken (.done _ _)
      · have taken : guarded.step (.whileAbove limit []) ⟨entries⟩ =
            (⟨entries⟩, .inr (.done (.ok ()))) := by
          have within : ¬((([] : List String).length : Int) > limit) := above
          simp only [guarded, step, if_neg within]
        rw [if_neg above]
        exact .step taken (.done _ _)
  | cons key family ih =>
      obtain ⟨fresh, apart⟩ := List.nodup_cons.mp distinct
      rw [evict]
      by_cases above : ((key :: family).length : Int) > limit
      · have taken : guarded.step (.whileAbove limit (key :: family)) ⟨entries⟩ =
            (⟨entries⟩, .inl (.delete limit key family)) := by
          simp only [guarded, step, if_pos above]
        have deleted : guarded.step (.delete limit key family) ⟨entries⟩ =
            (⟨entries.erase key⟩, .inl (.whileAbove limit family)) := by
          simp only [guarded, step, if_pos (present key List.mem_cons_self)]
        have onward := ih (entries.erase key) apart (fun other member => by
          rw [OrderedDict.keys_erase, List.mem_filter]
          refine ⟨present other (List.mem_cons_of_mem key member), ?_⟩
          simpa using fun same : other = key => fresh (same ▸ member))
        rw [if_pos above]
        exact .step taken (.step deleted onward)
      · have taken : guarded.step (.whileAbove limit (key :: family)) ⟨entries⟩ =
            (⟨entries⟩, .inr (.done (.ok ()))) := by
          simp only [guarded, step, if_neg above]
        rw [if_neg above]
        exact .step taken (.done _ _)

theorem finishes_scan (store : InMemoryStateStore Record) (pre : String) (limit : Int)
    {passed left : List String} (keys : store.entries.keys = passed ++ left) {last : _}
    {outcome : StoreAnswer Record}
    (onward : guarded.Finishes (.inl (.whileAbove limit ((passed ++ left).filter (startsWith pre))))
      store last outcome) :
    guarded.Finishes (.inl (.scan pre limit passed.length (passed.filter (startsWith pre))))
      store last outcome := by
  induction left generalizing passed with
  | nil =>
      have behind : store.entries.keys[passed.length]? = none := by
        rw [keys, List.append_nil]
        exact List.getElem?_eq_none (Nat.le_refl _)
      have taken : guarded.step (.scan pre limit passed.length (passed.filter (startsWith pre)))
          store = (store, .inl (.whileAbove limit (passed.filter (startsWith pre)))) := by
        simp only [guarded, step, behind]
      rw [List.append_nil] at onward
      exact .step taken onward
  | cons key left ih =>
      have here : store.entries.keys[passed.length]? = some key := by
        rw [keys, List.getElem?_append_right (Nat.le_refl _), Nat.sub_self]
        rfl
      have regrouped : passed ++ key :: left = passed ++ [key] ++ left := by
        rw [List.append_assoc, List.singleton_append]
      have picks : (passed ++ [key]).filter (startsWith pre) =
          if startsWith pre key then passed.filter (startsWith pre) ++ [key]
          else passed.filter (startsWith pre) := by
        rw [List.filter_append]
        by_cases inFamily : startsWith pre key = true
        · rw [if_pos inFamily, List.filter_cons_of_pos inFamily, List.filter_nil]
        · rw [if_neg inFamily, List.filter_cons_of_neg inFamily, List.filter_nil, List.append_nil]
      have taken : guarded.step (.scan pre limit passed.length (passed.filter (startsWith pre)))
          store = (store, .inl (.scan pre limit (passed ++ [key]).length
            ((passed ++ [key]).filter (startsWith pre)))) := by
        rw [picks, List.length_append]
        simp only [guarded, step, here, List.length_singleton]
      rw [regrouped] at keys onward
      exact .step taken (ih keys onward)

theorem implements_answer :
    (guarded : Locking.Guarded (InMemoryStateStore Record) _ _).Implements answer := by
  intro call store
  cases call with
  | read key => exact finishes_read store key
  | write key value => exact finishes_write store key value
  | trim pre limit =>
      have family : (([] : List String) ++ store.entries.keys).filter (startsWith pre) =
          store.family pre := rfl
      have evicts := finishes_evict limit (store.family pre) store.entries
        (store.entries.keys_nodup.filter _) (fun key member => (List.mem_filter.mp member).1)
      exact finishes_scan store pre limit (List.nil_append _).symm (family ▸ evicts)

/-! ### What the readers see -/

theorem run_concat (operations : List (StoreOp Record)) (last : StoreOp Record) :
    run (operations ++ [last]) =
      (((run operations).1.perform last).1,
        ((run operations).1.perform last).2 :: (run operations).2) := by
  rw [run, List.foldl_append]
  rfl

theorem after_answer (calls : List (StoreOp Record × StoreAnswer Record)) :
    Locking.after answer {} calls = (run (calls.map Prod.fst)).1 := by
  induction calls using List.reverseRecOn with
  | nil => rfl
  | append_singleton calls call ih =>
      obtain ⟨operation, told⟩ := call
      rw [Locking.after_append, ih, List.map_append, List.map_singleton, run_concat]
      cases operation with
      | read key => rfl
      | write key value => rfl
      | trim pre limit => rfl

/-- A trim raises if and only if the limit is negative, and then after the whole family is gone. -/
theorem evict_outcome (limit : Int) (family : List String) (entries : OrderedDict String Record) :
    (evict limit family entries).2 =
      if limit < 0 then .error (.indexError "pop from empty list") else .ok () := by
  induction family generalizing entries with
  | nil =>
      rw [evict]
      by_cases negative : limit < 0
      · rw [if_pos negative, if_pos negative]
      · rw [if_neg negative, if_neg negative]
  | cons key family ih =>
      rw [evict]
      split
      · exact ih (entries.erase key)
      · rename_i within
        rw [List.length_cons] at within
        rw [if_neg (by omega)]

/-- Only keys of the family are dropped. -/
theorem startsWith_of_dropped {store : InMemoryStateStore Record} {pre key : String} {limit : Int}
    (isDropped : key ∈ store.dropped pre limit) : startsWith pre key = true :=
  (List.mem_filter.mp (List.mem_of_mem_take ((mem_dropped_iff store pre limit key).mp isDropped))).2

theorem latest_of_written {operations : List (StoreOp Record)} {key : String} {value : Record}
    (written : .write key value ∈ operations)
    (only : ∀ other, .write key other ∈ operations → other = value)
    (kept : ∀ pre limit, .trim pre limit ∈ operations → startsWith pre key = false) :
    latest key (run operations).2 = some value := by
  induction operations using List.reverseRecOn with
  | nil => cases written
  | append_singleton operations last ih =>
      have onlyBefore : ∀ other, .write key other ∈ operations → other = value :=
        fun other member => only other (List.mem_append_left _ member)
      have keptBefore : ∀ pre limit, .trim pre limit ∈ operations → startsWith pre key = false :=
        fun pre limit member => kept pre limit (List.mem_append_left _ member)
      rw [run_concat]
      cases last with
      | read other =>
          have before := (List.mem_append.mp written).resolve_right (by simp)
          exact ih before onlyBefore keptBefore
      | write other latestValue =>
          show (if other = key then some latestValue else latest key (run operations).2) = _
          by_cases same : other = key
          · rw [if_pos same, only latestValue (by rw [same]; simp)]
          · rw [if_neg same]
            have before := (List.mem_append.mp written).resolve_right (by simp [Ne.symm same])
            exact ih before onlyBefore keptBefore
      | trim pre limit =>
          have before := (List.mem_append.mp written).resolve_right (by simp)
          have outside : key ∉ (run operations).1.dropped pre limit := by
            intro isDropped
            have inFamily := startsWith_of_dropped isDropped
            rw [kept pre limit (List.mem_append_right _ List.mem_cons_self)] at inFamily
            cases inFamily
          show (if key ∈ (run operations).1.dropped pre limit then none
            else latest key (run operations).2) = _
          rw [if_neg outside]
          exact ih before onlyBefore keptBefore

/-- What a call is told of the operations before it: a read gets the latest value, a write never
fails, and a trim fails only for a negative limit. -/
def Tells (history : List (StoreEvent Record)) : StoreOp Record → StoreAnswer Record → Prop
  | .read key, .found value => value = latest key history
  | .write _ _, .done outcome => outcome = .ok ()
  | .trim _ limit, .done outcome =>
      outcome = if limit < 0 then .error (.indexError "pop from empty list") else .ok ()
  | _, _ => False

theorem tells_answer (operations : List (StoreOp Record)) (call : StoreOp Record) :
    Tells (run operations).2 call (answer call (run operations).1).2 := by
  cases call with
  | read key => exact ((agrees_run operations).read key).1
  | write key value => rfl
  | trim pre limit => exact evict_outcome limit _ _

/-- Any number of threads use one store, and their steps interleave in any order.  Then each call
happens at one moment between its invocation and its return.  A read gets the value of the latest
write before this moment, unless a trim dropped it since; what had been written before is
found unless another value was written or the family trimmed.  No access fails because a key is gone
meanwhile. -/
theorem calls_of_one_moment (threads : Nat) (actions : List (Locking.Action (StoreOp Record)))
    {last : Locking.Config (guarded : Locking.Guarded (InMemoryStateStore Record) _ _)}
    (ran : Transition.run Locking.Config.act (Locking.Config.start guarded {} threads) actions =
      some last) :
    (∀ thread call told before during,
      Locking.Spans (Locking.events (Locking.Config.start guarded
        ({} : InMemoryStateStore Record) threads) actions) thread call told before during →
      ∃ earlier later, during = earlier ++ later ∧ ∃ operations : List (StoreOp Record),
        operations = (Locking.commits (before ++ earlier)).map Prod.fst ∧
        Tells (run operations).2 call told ∧
        ∀ key value, call = .read key →
          (∃ writer told, .responded writer (.write key value) told ∈ before) →
          (∀ other different, .invoked other (.write key different) ∈
            before ++ [.invoked thread call] ++ earlier → different = value) →
          (∀ other pre limit, .invoked other (.trim pre limit) ∈
            before ++ [.invoked thread call] ++ earlier → startsWith pre key = false) →
          told = .found (some value)) ∧
    ∃ more final, (∀ action ∈ more, action.isInvoke = false) ∧
      Transition.run Locking.Config.act last more = some final ∧
      ∀ phase ∈ final.threads, phase = Locking.Phase.idle := by
  have inv := Locking.inv_run implements_answer ran
  refine ⟨?_, inv.all_return implements_answer⟩
  intro thread call told before during spans
  obtain ⟨earlier, later, split, isTold, moment⟩ := inv.linearized.moment spans
  rw [after_answer] at isTold
  have tells := tells_answer ((Locking.commits (before ++ earlier)).map Prod.fst) call
  rw [← isTold] at tells
  refine ⟨earlier, later, split, _, rfl, tells, ?_⟩
  rintro key value rfl ⟨writer, answered, responded⟩ only kept
  have wrote : .write key value ∈ (Locking.commits (before ++ earlier)).map Prod.fst :=
    List.mem_map.mpr ⟨_, moment.returned _ answered ⟨writer, responded⟩, rfl⟩
  have found := latest_of_written wrote
    (fun other member => by
      obtain ⟨⟨operation, byWrite⟩, committed, isWrite⟩ := List.mem_map.mp member
      cases isWrite
      obtain ⟨who, invoked⟩ := moment.invoked _ byWrite committed
      exact only who _ invoked)
    (fun pre limit member => by
      obtain ⟨⟨operation, byTrim⟩, committed, isTrim⟩ := List.mem_map.mp member
      cases isTrim
      obtain ⟨who, invoked⟩ := moment.invoked _ byTrim committed
      exact kept who _ _ invoked)
  rw [isTold, answer]
  exact congrArg StoreAnswer.found (((agrees_run _).read key).1.trans found)

def readWhileTrimmed : List (Locking.Action (StoreOp Nat)) :=
  [.invoke 0 (.write "k" 7), .acquire 0, .step 0, .step 0, .release 0, .respond 0,
    .invoke 1 (.trim "x" 0), .invoke 0 (.read "k"), .acquire 1, .step 1, .step 1, .step 1,
    .release 1, .acquire 0, .step 0, .step 0, .step 0, .release 0, .respond 0, .respond 1]

theorem calls_of_one_moment_read :
    ∃ operations, Tells (run operations).2 (.read "k") (.found (some 7)) := by
  obtain ⟨last, ran⟩ : ∃ last, Transition.run Locking.Config.act
      (Locking.Config.start guarded ({} : InMemoryStateStore Nat) 2) readWhileTrimmed =
        some last := ⟨_, rfl⟩
  obtain ⟨_, _, _, operations, _, tells, _⟩ := (calls_of_one_moment 2 readWhileTrimmed ran).1 0
    (.read "k") (.found (some 7))
    [.invoked 0 (.write "k" 7), .committed 0 (.write "k" 7) (.done (.ok ())),
      .responded 0 (.write "k" 7) (.done (.ok ())), .invoked 1 (.trim "x" 0)]
    [.committed 1 (.trim "x" 0) (.done (.ok ())), .committed 0 (.read "k") (.found (some 7))]
    ⟨⟨[.responded 1 (.trim "x" 0) (.done (.ok ()))], rfl⟩, by simp⟩
  exact ⟨operations, tells⟩

end InMemoryStateStore

end AsPlatform
