/-
Objects that are guarded by one lock.

Any number of threads call the operations of the object.  A thread waits for the lock,
takes its steps while it holds it, releases it, and returns; the steps of different threads
interleave in any order.  Each call then happens at one moment, between its invocation and
its return, as if nobody else were there.
-/

import AsPlatform.Library.Transition
import AsPlatform.Library.Threads

namespace Locking

/-- What a thread does while it holds the lock: it enters at the start of the operation,
and each step leads to a further place or ends with a result. -/
structure Guarded (State Call Result : Type) where
  Place : Type
  enter : Call → Place
  step : Place → State → State × (Place ⊕ Result)

variable {State Call Result : Type}

inductive Guarded.Finishes (object : Guarded State Call Result) :
    object.Place ⊕ Result → State → State → Result → Prop
  | done (result : Result) (state : State) : Finishes object (.inr result) state state result
  | step {place : object.Place} {rest : object.Place ⊕ Result} {state middle last : State}
      {result : Result} (taken : object.step place state = (middle, rest))
      (onward : Finishes object rest middle last result) :
      Finishes object (.inl place) state last result

/-- An operation that nobody disturbs does what the function says, and comes to an end. -/
def Guarded.Implements (object : Guarded State Call Result)
    (perform : Call → State → State × Result) : Prop :=
  ∀ call state, object.Finishes (.inl (object.enter call)) state
    (perform call state).1 (perform call state).2

namespace Guarded

variable {object : Guarded State Call Result}

theorem Finishes.of_result {result ended : Result} {state last : State}
    (finishes : object.Finishes (.inr result) state last ended) :
    last = state ∧ ended = result := by
  cases finishes
  exact ⟨rfl, rfl⟩

theorem Finishes.of_place {place : object.Place} {state last : State} {result : Result}
    (finishes : object.Finishes (.inl place) state last result) :
    object.Finishes (object.step place state).2 (object.step place state).1 last result := by
  cases finishes with
  | step taken onward =>
      rw [taken]
      exact onward

theorem Finishes.of_step {place : object.Place} {state last : State} {result : Result}
    (onward : object.Finishes (object.step place state).2 (object.step place state).1 last
      result) : object.Finishes (.inl place) state last result :=
  .step rfl onward

end Guarded

/-! ### The threads -/

/-- Where a thread is: outside, before the lock, inside, or behind it. -/
inductive Phase (Place Call Result : Type) where
  | idle
  | waiting (call : Call)
  | inside (call : Call) (rest : Place ⊕ Result)
  | leaving (call : Call) (result : Result)

structure Config (object : Guarded State Call Result) where
  state : State
  holder : Option Nat := none
  threads : List (Phase object.Place Call Result)

inductive Action (Call : Type) where
  | invoke (thread : Nat) (call : Call)
  | acquire (thread : Nat)
  | step (thread : Nat)
  | release (thread : Nat)
  | respond (thread : Nat)

/-- What is noted of a run.  A call is committed when its thread gives the lock back. -/
inductive Event (Call Result : Type) where
  | invoked (thread : Nat) (call : Call)
  | committed (thread : Nat) (call : Call) (result : Result)
  | responded (thread : Nat) (call : Call) (result : Result)

variable {object : Guarded State Call Result}

namespace Config

def set (config : Config object) (thread : Nat) (phase : Phase object.Place Call Result) :
    Config object :=
  { config with threads := config.threads.set thread phase }

def start (object : Guarded State Call Result) (state : State) (threads : Nat) : Config object where
  state := state
  threads := List.replicate threads .idle

/-- The lock is taken only when it is free; nothing else asks who holds it. -/
def act (config : Config object) : Action Call → Option (Config object)
  | .invoke thread call =>
      match config.threads[thread]? with
      | some .idle => some (config.set thread (.waiting call))
      | _ => none
  | .acquire thread =>
      match config.holder, config.threads[thread]? with
      | none, some (.waiting call) =>
          some { config with
            holder := some thread
            threads := config.threads.set thread (.inside call (.inl (object.enter call))) }
      | _, _ => none
  | .step thread =>
      match config.threads[thread]? with
      | some (.inside call (.inl place)) =>
          let taken := object.step place config.state
          some { config with
            state := taken.1
            threads := config.threads.set thread (.inside call taken.2) }
      | _ => none
  | .release thread =>
      match config.threads[thread]? with
      | some (.inside call (.inr result)) =>
          some { config with
            holder := none
            threads := config.threads.set thread (.leaving call result) }
      | _ => none
  | .respond thread =>
      match config.threads[thread]? with
      | some (.leaving _ _) => some (config.set thread .idle)
      | _ => none

def note (config : Config object) : Action Call → Option (Event Call Result)
  | .invoke thread call => some (.invoked thread call)
  | .release thread =>
      match config.threads[thread]? with
      | some (.inside call (.inr result)) => some (.committed thread call result)
      | _ => none
  | .respond thread =>
      match config.threads[thread]? with
      | some (.leaving call result) => some (.responded thread call result)
      | _ => none
  | _ => none

inductive Took (config : Config object) :
    Action Call → Config object → Option (Event Call Result) → Prop
  | invoke {thread : Nat} (call : Call) (found : config.threads[thread]? = some .idle) :
      Took config (.invoke thread call) (config.set thread (.waiting call))
        (some (.invoked thread call))
  | acquire {thread : Nat} {call : Call} (free : config.holder = none)
      (found : config.threads[thread]? = some (.waiting call)) :
      Took config (.acquire thread)
        { config with
          holder := some thread
          threads := config.threads.set thread (.inside call (.inl (object.enter call))) }
        none
  | step {thread : Nat} {call : Call} {place : object.Place}
      (found : config.threads[thread]? = some (.inside call (.inl place))) :
      Took config (.step thread)
        { config with
          state := (object.step place config.state).1
          threads := config.threads.set thread (.inside call (object.step place config.state).2) }
        none
  | release {thread : Nat} {call : Call} {result : Result}
      (found : config.threads[thread]? = some (.inside call (.inr result))) :
      Took config (.release thread)
        { config with
          holder := none
          threads := config.threads.set thread (.leaving call result) }
        (some (.committed thread call result))
  | respond {thread : Nat} {call : Call} {result : Result}
      (found : config.threads[thread]? = some (.leaving call result)) :
      Took config (.respond thread) (config.set thread .idle)
        (some (.responded thread call result))

theorem took_of_act {config next : Config object} {action : Action Call}
    (acted : config.act action = some next) : Took config action next (config.note action) := by
  cases action with
  | invoke thread call =>
      rw [act] at acted
      split at acted
      · rename_i found
        cases acted
        exact .invoke call found
      · cases acted
  | acquire thread =>
      rw [act] at acted
      split at acted
      · rename_i free found
        cases acted
        exact .acquire free found
      · cases acted
  | step thread =>
      rw [act] at acted
      split at acted
      · rename_i found
        cases acted
        exact .step found
      · cases acted
  | release thread =>
      rw [act] at acted
      split at acted
      · rename_i found
        cases acted
        rw [note, found]
        exact .release found
      · cases acted
  | respond thread =>
      rw [act] at acted
      split at acted
      · rename_i found
        cases acted
        rw [note, found]
        exact .respond found
      · cases acted

end Config

def events (config : Config object) (actions : List (Action Call)) : List (Event Call Result) :=
  Transition.observed Config.act Config.note config actions

/-! ### One call at a time -/

def commits (events : List (Event Call Result)) : List (Call × Result) :=
  events.filterMap fun event =>
    match event with
    | .committed _ call result => some (call, result)
    | _ => none

@[simp] theorem commits_append (events more : List (Event Call Result)) :
    commits (events ++ more) = commits events ++ commits more :=
  List.filterMap_append

def after (perform : Call → State → State × Result) (state : State)
    (calls : List (Call × Result)) : State :=
  calls.foldl (fun reached call => (perform call.1 reached).1) state

/-- Each call, made in its turn, has the result that is noted of it. -/
def Legal (perform : Call → State → State × Result) : State → List (Call × Result) → Prop
  | _, [] => True
  | state, call :: rest =>
      (perform call.1 state).2 = call.2 ∧ Legal perform (perform call.1 state).1 rest

theorem after_append (perform : Call → State → State × Result) (state : State)
    (calls more : List (Call × Result)) :
    after perform state (calls ++ more) = after perform (after perform state calls) more :=
  List.foldl_append

theorem legal_append {perform : Call → State → State × Result} {state : State}
    {calls more : List (Call × Result)} :
    Legal perform state (calls ++ more) ↔
      Legal perform state calls ∧ Legal perform (after perform state calls) more := by
  induction calls generalizing state with
  | nil => exact (and_iff_right trivial).symm
  | cons call rest ih =>
      rw [List.cons_append, Legal, Legal, ih, and_assoc]
      rfl

/-! ### Invocation, commitment, return -/

inductive Stage (Call Result : Type) where
  | idle
  | called (call : Call)
  | answered (call : Call) (result : Result)

def Phase.stage {Place : Type} : Phase Place Call Result → Stage Call Result
  | .idle => .idle
  | .waiting call => .called call
  | .inside call _ => .called call
  | .leaving call result => .answered call result

inductive Follows : Event Call Result → List (Stage Call Result) → List (Stage Call Result) → Prop
  | invoke {stages : List (Stage Call Result)} {thread : Nat} (call : Call)
      (found : stages[thread]? = some .idle) :
      Follows (.invoked thread call) stages (stages.set thread (.called call))
  | commit {stages : List (Stage Call Result)} {thread : Nat} {call : Call} (result : Result)
      (found : stages[thread]? = some (.called call)) :
      Follows (.committed thread call result) stages (stages.set thread (.answered call result))
  | respond {stages : List (Stage Call Result)} {thread : Nat} {call : Call} {result : Result}
      (found : stages[thread]? = some (.answered call result)) :
      Follows (.responded thread call result) stages (stages.set thread .idle)

/-- Each thread makes one call after the other, and each of its calls is committed once,
after it was invoked and before it returns with the result committed. -/
inductive Turns (threads : Nat) : List (Event Call Result) → List (Stage Call Result) → Prop
  | start : Turns threads [] (List.replicate threads .idle)
  | next {events : List (Event Call Result)} {event : Event Call Result}
      {stages later : List (Stage Call Result)} (turns : Turns threads events stages)
      (follows : Follows event stages later) : Turns threads (events ++ [event]) later

structure Linearized (perform : Call → State → State × Result) (state : State) (threads : Nat)
    (events : List (Event Call Result)) : Prop where
  turns : ∃ stages, Turns threads events stages
  legal : Legal perform state (commits events)

/-! ### Every interleaving -/

/-- While a thread holds the lock the state is on the way from what the committed calls
left behind to what the thread's call will leave behind. -/
def Config.Underway (perform : Call → State → State × Result) (config : Config object)
    (settled : State) : Prop :=
  match config.holder with
  | none => config.state = settled
  | some thread => ∃ call rest, config.threads[thread]? = some (.inside call rest) ∧
      object.Finishes rest config.state (perform call settled).1 (perform call settled).2

structure Inv (perform : Call → State → State × Result) (state : State) (threads : Nat)
    (events : List (Event Call Result)) (config : Config object) : Prop where
  turns : Turns threads events (config.threads.map Phase.stage)
  legal : Legal perform state (commits events)
  alone : ∀ thread call rest, config.threads[thread]? = some (.inside call rest) →
    config.holder = some thread
  underway : config.Underway perform (after perform state (commits events))

section Interleaving

variable {perform : Call → State → State × Result} {start : State} {threads : Nat}

theorem inv_start : Inv perform start threads [] (Config.start object start threads) where
  turns := by
    rw [Config.start, List.map_replicate]
    exact Turns.start
  legal := trivial
  alone := by
    intro thread call rest found
    cases List.eq_of_mem_replicate (List.mem_of_getElem? found)
  underway := rfl

theorem stage_of_found {config : Config object} {thread : Nat}
    {phase : Phase object.Place Call Result} (found : config.threads[thread]? = some phase) :
    (config.threads.map Phase.stage)[thread]? = some phase.stage := by
  rw [List.getElem?_map, found]
  rfl

theorem Config.Underway.set_of_outside {config : Config object} {settled : State}
    (underway : config.Underway perform settled) {thread : Nat}
    {before after : Phase object.Place Call Result}
    (found : config.threads[thread]? = some before)
    (outside : ∀ call rest, before ≠ .inside call rest) :
    (config.set thread after).Underway perform settled := by
  unfold Config.Underway at underway ⊢
  cases held : config.holder with
  | none =>
      simp only [held] at underway
      simpa [Config.set, held] using underway
  | some owner =>
      simp only [held] at underway
      obtain ⟨call, rest, inside, finishes⟩ := underway
      have other : thread ≠ owner := by
        intro same
        rw [same, inside] at found
        cases found
        exact outside call rest rfl
      simp only [Config.set, held]
      exact ⟨call, rest, by rw [List.getElem?_set_ne other]; exact inside, finishes⟩

theorem Config.Underway.of_holder {config : Config object} {settled : State}
    (underway : config.Underway perform settled) {thread : Nat} {call : Call}
    {rest : object.Place ⊕ Result} (held : config.holder = some thread)
    (found : config.threads[thread]? = some (.inside call rest)) :
    object.Finishes rest config.state (perform call settled).1 (perform call settled).2 := by
  unfold Config.Underway at underway
  simp only [held] at underway
  obtain ⟨other, restOther, inside, finishes⟩ := underway
  rw [found] at inside
  cases inside
  exact finishes

theorem alone_set {config : Config object}
    (alone : ∀ thread call rest, config.threads[thread]? = some (.inside call rest) →
      config.holder = some thread) {thread : Nat} {after : Phase object.Place Call Result}
    (outside : ∀ call rest, after ≠ .inside call rest) :
    ∀ other call rest, (config.set thread after).threads[other]? = some (.inside call rest) →
      config.holder = some other ∧ other ≠ thread := by
  intro other call rest found
  by_cases same : thread = other
  · subst same
    have inside := (List.getElem?_eq_some_iff.mp found).choose
    rw [Config.set, List.length_set] at inside
    rw [Config.set, List.getElem?_set_self inside] at found
    cases found
    exact absurd rfl (outside call rest)
  · rw [Config.set, List.getElem?_set_ne same] at found
    exact ⟨alone other call rest found, fun equal => same equal.symm⟩

/-- Every step keeps the invariant. -/
theorem Inv.step (implements : object.Implements perform) {seen : List (Event Call Result)}
    {config next : Config object} {action : Action Call}
    (inv : Inv perform start threads seen config)
    (acted : config.act action = some next) :
    Inv perform start threads (seen ++ (config.note action).toList) next := by
  obtain ⟨turns, legal, alone, underway⟩ := inv
  have took := Config.took_of_act acted
  generalize config.note action = noted at took
  cases took with
  | invoke call found =>
      refine ⟨?_, ?_, ?_, ?_⟩
      · rw [Config.set, List.map_set]
        exact turns.next (.invoke call (stage_of_found found))
      · simpa [commits] using legal
      · intro other otherCall rest inside
        exact (alone_set alone (by nofun) other otherCall rest inside).1
      · have same : (config.set _ (.waiting call)).Underway perform _ :=
          underway.set_of_outside found (by nofun)
        simpa [commits] using same
  | @acquire thread call free found =>
      have settled : config.state = after perform start (commits seen) := by
        unfold Config.Underway at underway
        simpa only [free] using underway
      have inside := (List.getElem?_eq_some_iff.mp found).choose
      refine ⟨?_, ?_, ?_, ?_⟩
      · have same : (config.threads.set thread
            (.inside call (.inl (object.enter call)))).map Phase.stage =
              config.threads.map Phase.stage := Threads.map_set_of_eq found rfl
        rw [Option.toList_none, List.append_nil, same]
        exact turns
      · simpa using legal
      · intro other otherCall rest isInside
        by_cases same : thread = other
        · rw [same]
        · rw [List.getElem?_set_ne same] at isInside
          rw [alone other otherCall rest isInside] at free
          cases free
      · refine ⟨call, .inl (object.enter call), ?_, ?_⟩
        · exact List.getElem?_set_self inside
        · have finishes := implements call config.state
          rw [Option.toList_none, List.append_nil, ← settled]
          exact finishes
  | @step thread call place found =>
      have held := alone thread call (.inl place) found
      have onward := (underway.of_holder held found).of_place
      have inside := (List.getElem?_eq_some_iff.mp found).choose
      refine ⟨?_, ?_, ?_, ?_⟩
      · have same : (config.threads.set thread
            (.inside call (object.step place config.state).2)).map Phase.stage =
              config.threads.map Phase.stage := Threads.map_set_of_eq found rfl
        rw [Option.toList_none, List.append_nil, same]
        exact turns
      · simpa using legal
      · intro other otherCall rest isInside
        by_cases same : thread = other
        · rw [← same]
          exact held
        · rw [List.getElem?_set_ne same] at isInside
          exact alone other otherCall rest isInside
      · rw [Option.toList_none, List.append_nil]
        unfold Config.Underway
        simp only [held]
        exact ⟨call, _, List.getElem?_set_self inside, onward⟩
  | @release thread call result found =>
      have held := alone thread call (.inr result) found
      obtain ⟨state, answered⟩ := (underway.of_holder held found).of_result
      refine ⟨?_, ?_, ?_, ?_⟩
      · rw [List.map_set]
        exact turns.next (.commit result (stage_of_found found))
      · rw [Option.toList_some, commits_append]
        exact legal_append.mpr ⟨legal, answered, trivial⟩
      · intro other otherCall rest isInside
        obtain ⟨holds, different⟩ := alone_set alone (by nofun) other otherCall rest isInside
        rw [held] at holds
        exact absurd (Option.some.inj holds).symm different
      · rw [Option.toList_some, commits_append, after_append]
        exact state.symm
  | @respond thread call result found =>
      refine ⟨?_, ?_, ?_, ?_⟩
      · rw [Config.set, List.map_set]
        exact turns.next (.respond (stage_of_found found))
      · simpa [commits] using legal
      · intro other otherCall rest inside
        exact (alone_set alone (by nofun) other otherCall rest inside).1
      · have same : (config.set _ .idle).Underway perform _ :=
          underway.set_of_outside found (by nofun)
        simpa [commits] using same

theorem inv_run (implements : object.Implements perform) {actions : List (Action Call)}
    {last : Config object}
    (ran : Transition.run Config.act (Config.start object start threads) actions = some last) :
    Inv perform start threads (events (Config.start object start threads) actions) last :=
  Transition.invariant_of_observed (Inv perform start threads)
    (fun _ _ _ _ inv acted => inv.step implements acted) inv_start ran

theorem Inv.linearized {seen : List (Event Call Result)} {config : Config object}
    (inv : Inv perform start threads seen config) : Linearized perform start threads seen :=
  ⟨⟨_, inv.turns⟩, inv.legal⟩

theorem Inv.state_of_free {seen : List (Event Call Result)} {config : Config object}
    (inv : Inv perform start threads seen config) (free : config.holder = none) :
    config.state = after perform start (commits seen) := by
  have underway := inv.underway
  unfold Config.Underway at underway
  simpa only [free] using underway

end Interleaving

/-! ### What the order in time says -/

theorem Turns.of_concat {threads : Nat} {events : List (Event Call Result)}
    {event : Event Call Result} {later : List (Stage Call Result)}
    (turns : Turns threads (events ++ [event]) later) :
    ∃ stages, Turns threads events stages ∧ Follows event stages later := by
  generalize isAll : events ++ [event] = all at turns
  cases turns with
  | start => exact absurd isAll (by simp)
  | next turns follows =>
      obtain ⟨same, last⟩ := List.append_inj' isAll rfl
      cases same
      cases last
      exact ⟨_, turns, follows⟩

theorem Turns.of_append {threads : Nat} {events more : List (Event Call Result)}
    {later : List (Stage Call Result)} (turns : Turns threads (events ++ more) later) :
    ∃ stages, Turns threads events stages := by
  induction more using List.reverseRecOn generalizing later with
  | nil => exact ⟨later, by rwa [List.append_nil] at turns⟩
  | append_singleton rest event ih =>
      rw [← List.append_assoc] at turns
      obtain ⟨stages, earlier, _⟩ := turns.of_concat
      exact ih earlier

/-- How a thread stands that has invoked nothing since the given call: the call is not yet
committed, it is, or it has returned. -/
def Stands (thread : Nat) (call : Call) (during : List (Event Call Result))
    (stages : List (Stage Call Result)) : Prop :=
  stages[thread]? = some (.called call) ∨ stages[thread]? = some .idle ∨
    ∃ result earlier later, during = earlier ++ [.committed thread call result] ++ later ∧
      stages[thread]? = some (.answered call result)

theorem Stands.of_other {thread other : Nat} {call : Call} {during : List (Event Call Result)}
    {stages : List (Stage Call Result)} (stands : Stands thread call during stages)
    (different : other ≠ thread) (event : Event Call Result) (stage : Stage Call Result) :
    Stands thread call (during ++ [event]) (stages.set other stage) := by
  rw [Stands, List.getElem?_set_ne different]
  rcases stands with called | idle | ⟨result, earlier, later, split, answered⟩
  · exact Or.inl called
  · exact Or.inr (Or.inl idle)
  · exact Or.inr (Or.inr ⟨result, earlier, later ++ [event],
      by rw [split, List.append_assoc _ later], answered⟩)

theorem Turns.stands {threads thread : Nat} {before during : List (Event Call Result)}
    {call : Call} {stages : List (Stage Call Result)}
    (turns : Turns threads (before ++ [.invoked thread call] ++ during) stages)
    (only : ∀ other, .invoked thread other ∉ during) : Stands thread call during stages := by
  induction during using List.reverseRecOn generalizing stages with
  | nil =>
      rw [List.append_nil] at turns
      obtain ⟨earlier, _, follows⟩ := turns.of_concat
      cases follows with
      | invoke _ found =>
          exact Or.inl (List.getElem?_set_self (List.getElem?_eq_some_iff.mp found).choose)
  | append_singleton rest event ih =>
      rw [← List.append_assoc] at turns
      obtain ⟨earlier, turnsEarlier, follows⟩ := turns.of_concat
      have stood := ih turnsEarlier (fun other member =>
        only other (List.mem_append_left _ member))
      cases follows with
      | @invoke _ other otherCall found =>
          refine stood.of_other ?_ _ _
          intro same
          rw [same] at only
          exact only otherCall (List.mem_append_right _ List.mem_cons_self)
      | @commit _ other otherCall result found =>
          by_cases same : other = thread
          · subst same
            have inside := (List.getElem?_eq_some_iff.mp found).choose
            rcases stood with called | idle | ⟨_, _, _, _, answered⟩
            · rw [called] at found
              cases found
              exact Or.inr (Or.inr ⟨result, rest, [], by rw [List.append_nil],
                List.getElem?_set_self inside⟩)
            · rw [idle] at found
              cases found
            · rw [answered] at found
              cases found
          · exact stood.of_other same _ _
      | @respond _ other otherCall result found =>
          by_cases same : other = thread
          · subst same
            exact Or.inr (Or.inl
              (List.getElem?_set_self (List.getElem?_eq_some_iff.mp found).choose))
          · exact stood.of_other same _ _

/-- Between the invocation of a call and its return lies the moment at which it happened. -/
theorem Turns.committed_between {threads thread : Nat}
    {before during : List (Event Call Result)} {call returned : Call} {result : Result}
    {stages : List (Stage Call Result)}
    (turns : Turns threads (before ++ [.invoked thread call] ++ during ++
      [.responded thread returned result]) stages)
    (only : ∀ other, .invoked thread other ∉ during) :
    returned = call ∧
      ∃ earlier later, during = earlier ++ [.committed thread call result] ++ later := by
  obtain ⟨middle, turnsMiddle, follows⟩ := turns.of_concat
  cases follows with
  | respond found =>
      rcases turnsMiddle.stands only with called | idle | ⟨_, first, second, split, answered⟩
      · rw [called] at found
        cases found
      · rw [idle] at found
        cases found
      · rw [answered] at found
        cases found
        exact ⟨rfl, first, second, split⟩

theorem stage_set {stages : List (Stage Call Result)} {thread other : Nat}
    {stage found : Stage Call Result} (isFound : (stages.set other stage)[thread]? = some found) :
    (other = thread ∧ found = stage) ∨ stages[thread]? = some found := by
  rw [List.getElem?_set] at isFound
  split at isFound
  · rename_i same
    split at isFound
    · exact Or.inl ⟨same, (Option.some.inj isFound).symm⟩
    · cases isFound
  · exact Or.inr isFound

theorem Turns.committed_of_answered {threads thread : Nat} {events : List (Event Call Result)}
    {stages : List (Stage Call Result)} (turns : Turns threads events stages) {call : Call}
    {result : Result} (answered : stages[thread]? = some (.answered call result)) :
    .committed thread call result ∈ events := by
  induction turns with
  | start => cases List.eq_of_mem_replicate (List.mem_of_getElem? answered)
  | next _ follows ih =>
      cases follows with
      | invoke otherCall found =>
          rcases stage_set answered with ⟨_, impossible⟩ | before
          · cases impossible
          · exact List.mem_append_left _ (ih before)
      | commit otherResult found =>
          rcases stage_set answered with ⟨same, now⟩ | before
          · cases now
            rw [same]
            exact List.mem_append_right _ List.mem_cons_self
          · exact List.mem_append_left _ (ih before)
      | respond found =>
          rcases stage_set answered with ⟨_, impossible⟩ | before
          · cases impossible
          · exact List.mem_append_left _ (ih before)

/-- What has returned was committed. -/
theorem Turns.committed_of_responded {threads thread : Nat} {events : List (Event Call Result)}
    {stages : List (Stage Call Result)} (turns : Turns threads events stages) {call : Call}
    {result : Result} (responded : .responded thread call result ∈ events) :
    .committed thread call result ∈ events := by
  obtain ⟨before, later, split⟩ := List.append_of_mem responded
  rw [split, ← List.singleton_append, ← List.append_assoc] at turns
  obtain ⟨_, upToThere⟩ := turns.of_append
  obtain ⟨_, turnsBefore, follows⟩ := upToThere.of_concat
  cases follows with
  | respond found =>
      rw [split]
      exact List.mem_append_left _ (turnsBefore.committed_of_answered found)

theorem Turns.invoked_of_called {threads thread : Nat} {events : List (Event Call Result)}
    {stages : List (Stage Call Result)} (turns : Turns threads events stages) {call : Call}
    (called : stages[thread]? = some (.called call)) : .invoked thread call ∈ events := by
  induction turns with
  | start => cases List.eq_of_mem_replicate (List.mem_of_getElem? called)
  | next _ follows ih =>
      cases follows with
      | invoke otherCall found =>
          rcases stage_set called with ⟨same, now⟩ | before
          · cases now
            rw [same]
            exact List.mem_append_right _ List.mem_cons_self
          · exact List.mem_append_left _ (ih before)
      | commit otherResult found =>
          rcases stage_set called with ⟨_, impossible⟩ | before
          · cases impossible
          · exact List.mem_append_left _ (ih before)
      | respond found =>
          rcases stage_set called with ⟨_, impossible⟩ | before
          · cases impossible
          · exact List.mem_append_left _ (ih before)

theorem Turns.invoked_of_committed {threads thread : Nat} {events : List (Event Call Result)}
    {stages : List (Stage Call Result)} (turns : Turns threads events stages) {call : Call}
    {result : Result} (committed : .committed thread call result ∈ events) :
    .invoked thread call ∈ events := by
  obtain ⟨before, later, split⟩ := List.append_of_mem committed
  rw [split, ← List.singleton_append, ← List.append_assoc] at turns
  obtain ⟨_, upToThere⟩ := turns.of_append
  obtain ⟨_, turnsBefore, follows⟩ := upToThere.of_concat
  cases follows with
  | commit _ found =>
      rw [split]
      exact List.mem_append_left _ (turnsBefore.invoked_of_called found)

/-! ### How many calls -/

def Event.isInvoked (counts : Call → Bool) : Event Call Result → Bool
  | .invoked _ call => counts call
  | _ => false

def Event.isCommitted (counts : Call → Bool) : Event Call Result → Bool
  | .committed _ call _ => counts call
  | _ => false

def Event.isResponded (counts : Call → Bool) : Event Call Result → Bool
  | .responded _ call _ => counts call
  | _ => false

def Stage.isCalled (counts : Call → Bool) : Stage Call Result → Nat
  | .called call => if counts call then 1 else 0
  | _ => 0

def Stage.isAnswered (counts : Call → Bool) : Stage Call Result → Nat
  | .answered call _ => if counts call then 1 else 0
  | _ => 0

/-- The calls of a kind: those invoked are committed or on their way, and those committed have
returned or are about to. -/
theorem Turns.counts {threads : Nat} {events : List (Event Call Result)}
    {stages : List (Stage Call Result)} (turns : Turns threads events stages)
    (counts : Call → Bool) :
    events.countP (Event.isInvoked counts) =
        events.countP (Event.isCommitted counts) +
          Threads.total (Stage.isCalled counts) stages ∧
      events.countP (Event.isCommitted counts) =
        events.countP (Event.isResponded counts) +
          Threads.total (Stage.isAnswered counts) stages := by
  induction turns with
  | start => simp [Threads.total_replicate, Stage.isCalled, Stage.isAnswered]
  | next _ follows ih =>
      obtain ⟨called, answered⟩ := ih
      rw [List.countP_append, List.countP_append, List.countP_append]
      cases follows with
      | @invoke _ _ call found =>
          have inCalled := Threads.total_set found (Stage.isCalled counts) (.called call)
          have inAnswered := Threads.total_set found (Stage.isAnswered counts) (.called call)
          cases counted : counts call <;>
            simp [counted, Event.isInvoked, Event.isCommitted, Event.isResponded, Stage.isCalled,
              Stage.isAnswered] at inCalled inAnswered ⊢ <;>
            omega
      | @commit _ _ call result found =>
          have inCalled := Threads.total_set found (Stage.isCalled counts) (.answered call result)
          have inAnswered :=
            Threads.total_set found (Stage.isAnswered counts) (.answered call result)
          cases counted : counts call <;>
            simp [counted, Event.isInvoked, Event.isCommitted, Event.isResponded, Stage.isCalled,
              Stage.isAnswered] at inCalled inAnswered ⊢ <;>
            omega
      | @respond _ _ call result found =>
          have inCalled := Threads.total_set found (Stage.isCalled counts) .idle
          have inAnswered := Threads.total_set found (Stage.isAnswered counts) .idle
          cases counted : counts call <;>
            simp [counted, Event.isInvoked, Event.isCommitted, Event.isResponded, Stage.isCalled,
              Stage.isAnswered] at inCalled inAnswered ⊢ <;>
            omega

theorem mem_commits {events : List (Event Call Result)} {call : Call} {result : Result} :
    (call, result) ∈ commits events ↔ ∃ thread, .committed thread call result ∈ events := by
  rw [commits, List.mem_filterMap]
  constructor
  · rintro ⟨event, member, isCommitted⟩
    cases event with
    | invoked thread other => cases isCommitted
    | committed thread other answer =>
        cases isCommitted
        exact ⟨thread, member⟩
    | responded thread other answer => cases isCommitted
  · rintro ⟨thread, member⟩
    exact ⟨_, member, rfl⟩

theorem countP_commits (counts : Call → Bool) (events : List (Event Call Result)) :
    events.countP (Event.isCommitted counts) =
      (commits events).countP fun call => counts call.1 := by
  induction events with
  | nil => rfl
  | cons event rest ih =>
      cases event with
      | invoked thread call => exact ih
      | committed thread call result =>
          have cons : commits (.committed thread call result :: rest) =
              (call, result) :: commits rest := rfl
          rw [List.countP_cons, ih, cons, List.countP_cons]
          rfl
      | responded thread call result => exact ih

/-- Calls that have returned are committed, and committed calls have been invoked. -/
theorem Turns.ordered {threads : Nat} {events : List (Event Call Result)}
    {stages : List (Stage Call Result)} (turns : Turns threads events stages)
    (counts : Call → Bool) :
    events.countP (Event.isResponded counts) ≤
        ((commits events).countP fun call => counts call.1) ∧
      ((commits events).countP fun call => counts call.1) ≤
        events.countP (Event.isInvoked counts) := by
  obtain ⟨invoked, committed⟩ := turns.counts counts
  rw [← countP_commits]
  omega

structure Spans (events : List (Event Call Result)) (thread : Nat) (call : Call) (result : Result)
    (before during : List (Event Call Result)) : Prop where
  split : ∃ rest, events = before ++ [.invoked thread call] ++ during ++
    [.responded thread call result] ++ rest
  only : ∀ other, .invoked thread other ∉ during

structure Moment (thread : Nat) (call : Call) (before earlier : List (Event Call Result)) :
    Prop where
  returned : ∀ other told, (∃ writer, .responded writer other told ∈ before) →
    (other, told) ∈ commits (before ++ earlier)
  invoked : ∀ other told, (other, told) ∈ commits (before ++ earlier) →
    ∃ writer, .invoked writer other ∈ before ++ [.invoked thread call] ++ earlier
  least : ∀ counts : Call → Bool, before.countP (Event.isResponded counts) ≤
    (commits (before ++ earlier)).countP fun other => counts other.1
  most : ∀ counts : Call → Bool,
    ((commits (before ++ earlier)).countP fun other => counts other.1) ≤
    (before ++ [Event.invoked thread call] ++ earlier).countP (Event.isInvoked counts)

/-- A call that has returned happened at a moment between its invocation and its return, and
has the result that it has in its turn. -/
theorem Linearized.moment {perform : Call → State → State × Result} {start : State}
    {threads thread : Nat} {events before during : List (Event Call Result)} {call : Call}
    {result : Result} (linearized : Linearized perform start threads events)
    (spans : Spans events thread call result before during) :
    ∃ earlier later, during = earlier ++ later ∧
      result = (perform call (after perform start (commits (before ++ earlier)))).2 ∧
      Moment thread call before earlier := by
  obtain ⟨⟨stages, turns⟩, legal⟩ := linearized
  obtain ⟨⟨rest, split⟩, only⟩ := spans
  rw [split] at turns legal
  obtain ⟨_, toReturn⟩ := turns.of_append
  obtain ⟨_, earlier, later, isDuring⟩ := toReturn.committed_between only
  have order : commits (before ++ [.invoked thread call] ++ during ++
      [.responded thread call result] ++ rest) =
        commits (before ++ earlier) ++ (call, result) :: (commits (later ++ rest)) := by
    rw [isDuring]
    simp [commits]
  rw [order] at legal
  have regrouped : before ++ [.invoked thread call] ++ during ++
      [.responded thread call result] ++ rest =
        before ++ [.invoked thread call] ++ earlier ++
          ([.committed thread call result] ++ later ++ [.responded thread call result] ++
            rest) := by
    rw [isDuring]
    simp
  rw [regrouped] at turns
  obtain ⟨_, toMoment⟩ := turns.of_append
  obtain ⟨_, toInvocation⟩ := toMoment.of_append
  obtain ⟨_, beforeTurns⟩ := toInvocation.of_append
  have commitsTo : commits (before ++ [.invoked thread call] ++ earlier) =
      commits (before ++ earlier) := by
    simp [commits]
  refine ⟨earlier, [.committed thread call result] ++ later, ?_, ?_, ?_, ?_, ?_, ?_⟩
  · rw [isDuring, List.append_assoc]
  · exact (legal_append.mp legal).2.1.symm
  · rintro other told ⟨writer, responded⟩
    rw [commits_append]
    exact List.mem_append_left _
      (mem_commits.mpr ⟨writer, beforeTurns.committed_of_responded responded⟩)
  · intro other told member
    rw [← commitsTo] at member
    obtain ⟨writer, committed⟩ := mem_commits.mp member
    exact ⟨writer, toMoment.invoked_of_committed committed⟩
  · intro counts
    rw [commits_append, List.countP_append]
    exact Nat.le_add_right_of_le (beforeTurns.ordered counts).1
  · intro counts
    have most := (toMoment.ordered counts).2
    rwa [commitsTo] at most

/-! ### No call is stuck -/

def Action.isInvoke : Action Call → Bool
  | .invoke _ _ => true
  | _ => false

def Phase.isBusy {Place : Type} : Phase Place Call Result → Nat
  | .idle => 0
  | _ => 1

namespace Config

variable {config : Config object} {thread : Nat} {call : Call}

theorem act_acquire (free : config.holder = none)
    (found : config.threads[thread]? = some (.waiting call)) :
    config.act (.acquire thread) = some { config with
      holder := some thread
      threads := config.threads.set thread (.inside call (.inl (object.enter call))) } := by
  simp only [act, free, found]

theorem act_step {place : object.Place}
    (found : config.threads[thread]? = some (.inside call (.inl place))) :
    config.act (.step thread) = some { config with
      state := (object.step place config.state).1
      threads := config.threads.set thread (.inside call (object.step place config.state).2) } := by
  simp only [act, found]

theorem act_release {result : Result}
    (found : config.threads[thread]? = some (.inside call (.inr result))) :
    config.act (.release thread) = some { config with
      holder := none
      threads := config.threads.set thread (.leaving call result) } := by
  simp only [act, found]

theorem act_respond {result : Result}
    (found : config.threads[thread]? = some (.leaving call result)) :
    config.act (.respond thread) = some (config.set thread .idle) := by
  simp only [act, found]

theorem run_to_end {rest : object.Place ⊕ Result} {state last : State} {result : Result}
    (finishes : object.Finishes rest state last result)
    (found : config.threads[thread]? = some (.inside call rest)) (isState : config.state = state) :
    ∃ actions, (∀ action ∈ actions, action.isInvoke = false) ∧
      Transition.run act config actions = some { config with
        state := last
        threads := config.threads.set thread (.inside call (.inr result)) } := by
  induction finishes generalizing config with
  | done result state =>
      refine ⟨[], by simp, ?_⟩
      have same : config.threads.set thread (.inside call (.inr result)) = config.threads := by
        obtain ⟨inside, isThat⟩ := List.getElem?_eq_some_iff.mp found
        rw [← isThat]
        exact List.set_getElem_self inside
      rw [same, ← isState]
      rfl
  | @step place rest state middle last result taken _ ih =>
      have inside := (List.getElem?_eq_some_iff.mp found).choose
      obtain ⟨actions, quiet, ran⟩ := @ih
        { config with
          state := middle
          threads := config.threads.set thread (.inside call rest) }
        (List.getElem?_set_self inside) rfl
      refine ⟨.step thread :: actions, ?_, ?_⟩
      · intro action member
        rcases List.mem_cons.mp member with same | later
        · rw [same]
          rfl
        · exact quiet action later
      · rw [Transition.run, act_step found, isState, taken, Option.bind_some, ran, List.set_set]

theorem run_to_return (config : Config object) {rest : object.Place ⊕ Result} {last : State}
    {result : Result} (finishes : object.Finishes rest config.state last result)
    (found : config.threads[thread]? = some (.inside call rest)) :
    ∃ actions next, (∀ action ∈ actions, action.isInvoke = false) ∧
      Transition.run act config actions = some next ∧
      next.threads = config.threads.set thread .idle := by
  obtain ⟨actions, quiet, ran⟩ := run_to_end finishes found rfl
  have inside := (List.getElem?_eq_some_iff.mp found).choose
  have ended : (config.threads.set thread (.inside call (.inr result)))[thread]? =
      some (.inside call (.inr result)) := List.getElem?_set_self inside
  have left : ((config.threads.set thread (.inside call (.inr result))).set thread
      (.leaving call result))[thread]? = some (.leaving call result) :=
    List.getElem?_set_self (by rw [List.length_set]; exact inside)
  refine ⟨actions ++ [.release thread, .respond thread],
    ⟨last, none, config.threads.set thread .idle⟩, ?_, ?_, rfl⟩
  · intro action member
    rcases List.mem_append.mp member with early | late
    · exact quiet action early
    · rcases List.mem_pair.mp late with same | same
      · rw [same]
        rfl
      · rw [same]
        rfl
  · rw [Transition.run_append ran, Transition.run, act_release ended, Option.bind_some,
      Transition.run, act_respond left]
    simp [Transition.run, set]

end Config

theorem exists_busy {Place : Type} {threads : List (Phase Place Call Result)}
    (busy : ¬∀ phase ∈ threads, phase = Phase.idle) :
    ∃ (thread : Nat) (phase : Phase Place Call Result),
      threads[thread]? = some phase ∧ phase ≠ .idle := by
  obtain ⟨phase, notIdle⟩ := not_forall.mp busy
  obtain ⟨member, different⟩ := Classical.not_imp.mp notIdle
  obtain ⟨thread, inside, isThat⟩ := List.getElem_of_mem member
  exact ⟨thread, phase, List.getElem?_eq_some_iff.mpr ⟨inside, isThat⟩, different⟩

theorem busy_set_idle {Place : Type} {threads : List (Phase Place Call Result)} {thread : Nat}
    {phase : Phase Place Call Result} (found : threads[thread]? = some phase)
    (busy : phase.isBusy = 1) :
    Threads.total Phase.isBusy (threads.set thread .idle) <
      Threads.total Phase.isBusy threads := by
  have changed := Threads.total_set found Phase.isBusy .idle
  rw [busy, Phase.isBusy] at changed
  omega

section Progress

variable {perform : Call → State → State × Result} {start : State} {threads : Nat}

theorem Inv.run (implements : object.Implements perform) {seen : List (Event Call Result)}
    {config last : Config object} {actions : List (Action Call)}
    (inv : Inv perform start threads seen config)
    (ran : Transition.run Config.act config actions = some last) :
    Inv perform start threads (seen ++ events config actions) last :=
  Transition.invariant_of_observed (Inv perform start threads)
    (fun _ _ _ _ inv acted => inv.step implements acted) inv ran

theorem Inv.settled {seen : List (Event Call Result)} {config : Config object}
    (inv : Inv perform start threads seen config)
    (allIdle : ∀ phase ∈ config.threads, phase = Phase.idle) (counts : Call → Bool) :
    seen.countP (Event.isInvoked counts) =
        ((commits seen).countP fun call => counts call.1) ∧
      config.state = after perform start (commits seen) := by
  obtain ⟨invoked, _⟩ := inv.turns.counts counts
  have nobody : Threads.total (Stage.isCalled counts) (config.threads.map Phase.stage) = 0 := by
    apply Threads.total_eq_zero
    intro stage member
    obtain ⟨phase, inside, rfl⟩ := List.mem_map.mp member
    rw [allIdle phase inside]
    rfl
  have free : config.holder = none := by
    cases held : config.holder with
    | none => rfl
    | some thread =>
        have underway := inv.underway
        unfold Config.Underway at underway
        simp only [held] at underway
        obtain ⟨call, rest, inside, _⟩ := underway
        cases allIdle _ (List.mem_of_getElem? inside)
  rw [nobody, Nat.add_zero, countP_commits] at invoked
  exact ⟨invoked, inv.state_of_free free⟩

/-- Unless all threads are idle, one of those that are not can come to its return. -/
theorem Inv.one_returns (implements : object.Implements perform)
    {seen : List (Event Call Result)} {config : Config object}
    (inv : Inv perform start threads seen config)
    (busy : ¬∀ phase ∈ config.threads, phase = Phase.idle) :
    ∃ actions next, (∀ action ∈ actions, action.isInvoke = false) ∧
      Transition.run Config.act config actions = some next ∧
      Threads.total Phase.isBusy next.threads < Threads.total Phase.isBusy config.threads := by
  have underway := inv.underway
  unfold Config.Underway at underway
  cases held : config.holder with
  | some thread =>
      simp only [held] at underway
      obtain ⟨call, rest, found, finishes⟩ := underway
      obtain ⟨actions, next, quiet, ran, isNext⟩ := config.run_to_return finishes found
      refine ⟨actions, next, quiet, ran, ?_⟩
      rw [isNext]
      exact busy_set_idle found rfl
  | none =>
      obtain ⟨thread, phase, found, notIdle⟩ := exists_busy busy
      have inside := (List.getElem?_eq_some_iff.mp found).choose
      cases phase with
      | idle => exact absurd rfl notIdle
      | waiting call =>
          have entered : (config.threads.set thread
              (.inside call (.inl (object.enter call))))[thread]? =
                some (.inside call (.inl (object.enter call))) := List.getElem?_set_self inside
          let acquired : Config object := { config with
            holder := some thread
            threads := config.threads.set thread (.inside call (.inl (object.enter call))) }
          obtain ⟨actions, next, quiet, ran, isNext⟩ :=
            acquired.run_to_return (implements call config.state) entered
          refine ⟨.acquire thread :: actions, next, ?_, ?_, ?_⟩
          · intro action member
            rcases List.mem_cons.mp member with same | later
            · rw [same]
              rfl
            · exact quiet action later
          · rw [Transition.run, Config.act_acquire held found]
            exact ran
          · rw [isNext, List.set_set]
            exact busy_set_idle found rfl
      | inside call rest =>
          rw [inv.alone thread call rest found] at held
          cases held
      | leaving call result =>
          refine ⟨[.respond thread], config.set thread .idle, by simp [Action.isInvoke], ?_,
            busy_set_idle found rfl⟩
          rw [Transition.run, Config.act_respond found]
          rfl

/-- From every reachable configuration all calls under way can return. -/
theorem Inv.all_return (implements : object.Implements perform)
    {seen : List (Event Call Result)} {config : Config object}
    (inv : Inv perform start threads seen config) :
    ∃ actions last, (∀ action ∈ actions, action.isInvoke = false) ∧
      Transition.run Config.act config actions = some last ∧
      ∀ phase ∈ last.threads, phase = Phase.idle := by
  induction isCount : Threads.total Phase.isBusy config.threads using Nat.strongRecOn
    generalizing seen config with
  | ind count ih =>
      by_cases allIdle : ∀ phase ∈ config.threads, phase = Phase.idle
      · exact ⟨[], config, by simp, rfl, allIdle⟩
      · obtain ⟨actions, next, quiet, ran, fewer⟩ := inv.one_returns implements allIdle
        rw [isCount] at fewer
        obtain ⟨more, last, quietMore, ranMore, returned⟩ :=
          ih _ fewer (inv.run implements ran) rfl
        refine ⟨actions ++ more, last, ?_, ?_, returned⟩
        · intro action member
          exact (List.mem_append.mp member).elim (quiet action) (quietMore action)
        · rw [Transition.run_append ran, ranMore]

end Progress

end Locking
