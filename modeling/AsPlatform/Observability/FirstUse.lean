/-
The registry and the recorder of the process, created on first use.

`get_metrics_registry` and `get_trace_recorder` take no lock.  Each tests a variable of its
module, creates the object where there is none, and reads the variable again to return it; the
threads of the process may call it at any time, and their statements interleave.
-/

import AsPlatform.Library.Transition
import AsPlatform.Observability.Metrics
import AsPlatform.Observability.Tracing

namespace AsPlatform

/-- A function that returns the object of the process, creating it on first use. -/
structure OnFirstUse (Object : Type) where
  create : Object

def getMetricsRegistry : OnFirstUse MetricsRegistry where
  create := {}

def getTraceRecorder : OnFirstUse TraceRecorder where
  create := {}

inductive GetPhase where
  | testing
  | creating
  | reading
  | returned (shared : Option Nat)
  deriving DecidableEq

/-- `shared` is the variable of the module; it refers to one of the objects that have been
created.  `calls` are those that there ever were. -/
structure FirstUse (Object : Type) where
  objects : List Object := []
  shared : Option Nat := none
  calls : List GetPhase := []

inductive GetAction where
  | call
  | turn (index : Nat)
  deriving DecidableEq

namespace FirstUse

variable {Object : Type}

def begun (state : FirstUse Object) : FirstUse Object :=
  { state with calls := state.calls ++ [.testing] }

def put (index : Nat) (phase : GetPhase) (state : FirstUse Object) : FirstUse Object :=
  { state with calls := state.calls.set index phase }

def store (object : Object) (state : FirstUse Object) : FirstUse Object :=
  { state with
    objects := state.objects ++ [object]
    shared := some state.objects.length }

def At (state : FirstUse Object) (index : Nat) (phase : GetPhase) : Prop :=
  state.calls[index]? = some phase

theorem at_begun {state : FirstUse Object} {index : Nat} {phase : GetPhase}
    (found : state.begun.At index phase) (later : phase ≠ .testing) : state.At index phase := by
  change (state.calls ++ [.testing])[index]? = some phase at found
  by_cases bound : index < state.calls.length
  · rw [List.getElem?_append_left bound] at found
    exact found
  · rw [List.getElem?_append_right (Nat.le_of_not_lt bound)] at found
    exact absurd (List.mem_singleton.mp (List.mem_of_getElem? found)) later

theorem at_put {state : FirstUse Object} {index other : Nat} {phase found : GetPhase}
    (present : (state.put index phase).At other found) :
    found = phase ∨ state.At other found := by
  change (state.calls.set index phase)[other]? = some found at present
  rw [List.getElem?_set] at present
  split at present
  · split at present
    · cases present
      exact Or.inl rfl
    · cases present
  · exact Or.inr present

theorem at_put_self {state : FirstUse Object} {index : Nat} {before : GetPhase}
    (present : state.At index before) (phase : GetPhase) :
    (state.put index phase).At index phase := by
  obtain ⟨bound, _⟩ := List.getElem?_eq_some_iff.mp present
  exact List.getElem?_set_self bound

end FirstUse

namespace OnFirstUse

variable {Object : Type} (getter : OnFirstUse Object)

def advance (state : FirstUse Object) (index : Nat) : GetPhase → Option (FirstUse Object)
  | .testing => some (state.put index (if state.shared = none then .creating else .reading))
  -- nobody sees the object before it is stored
  | .creating => some ((state.store getter.create).put index .reading)
  | .reading => some (state.put index (.returned state.shared))
  | .returned _ => none

def step (state : FirstUse Object) : GetAction → Option (FirstUse Object)
  | .call => some state.begun
  | .turn index => state.calls[index]?.bind (getter.advance state index)

theorem step_turn {state : FirstUse Object} {index : Nat} {phase : GetPhase}
    (found : state.At index phase) :
    getter.step state (.turn index) = getter.advance state index phase := by
  change state.calls[index]?.bind _ = _
  rw [show state.calls[index]? = some phase from found]
  rfl

inductive Stepped (state : FirstUse Object) : FirstUse Object → Prop where
  | begins : Stepped state state.begun
  | misses (index : Nat) (testing : state.At index .testing) (absent : state.shared = none) :
      Stepped state (state.put index .creating)
  | finds (index : Nat) (testing : state.At index .testing) (present : state.shared ≠ none) :
      Stepped state (state.put index .reading)
  | creates (index : Nat) (creating : state.At index .creating) :
      Stepped state ((state.store getter.create).put index .reading)
  | returns (index : Nat) (reading : state.At index .reading) :
      Stepped state (state.put index (.returned state.shared))

theorem step_stepped {state next : FirstUse Object} {action : GetAction}
    (taken : getter.step state action = some next) : getter.Stepped state next := by
  cases action with
  | call =>
      cases taken
      exact .begins
  | turn index =>
      obtain ⟨phase, found, advanced⟩ := Option.bind_eq_some_iff.mp taken
      cases phase with
      | testing =>
          cases advanced
          by_cases absent : state.shared = none
          · rw [if_pos absent]
            exact .misses index found absent
          · rw [if_neg absent]
            exact .finds index found absent
      | creating =>
          cases advanced
          exact .creates index found
      | reading =>
          cases advanced
          exact .returns index found
      | returned shared => cases advanced

structure Sound (state : FirstUse Object) : Prop where
  shared : ∀ object, state.shared = some object → object < state.objects.length
  reading : ∀ index, state.At index .reading → state.shared ≠ none
  returned : ∀ index answer, state.At index (.returned answer) →
    ∃ object, answer = some object ∧ object < state.objects.length

theorem Sound.initial : Sound ({} : FirstUse Object) where
  shared _ isShared := by cases isShared
  reading _ found := by cases found
  returned _ _ found := by cases found

variable {getter} {state next : FirstUse Object}

theorem Sound.step (sound : Sound state) (stepped : getter.Stepped state next) : Sound next := by
  cases stepped with
  | begins =>
      refine ⟨sound.shared, fun index found => ?_, fun index answer found => ?_⟩
      · exact sound.reading index (FirstUse.at_begun found GetPhase.noConfusion)
      · exact sound.returned index answer (FirstUse.at_begun found GetPhase.noConfusion)
  | misses index testing absent =>
      refine ⟨sound.shared, fun other found => ?_, fun other answer found => ?_⟩
      · exact sound.reading other ((FirstUse.at_put found).resolve_left GetPhase.noConfusion)
      · exact sound.returned other answer
          ((FirstUse.at_put found).resolve_left GetPhase.noConfusion)
  | finds index testing present =>
      refine ⟨sound.shared, fun other _ => present, fun other answer found => ?_⟩
      exact sound.returned other answer ((FirstUse.at_put found).resolve_left GetPhase.noConfusion)
  | creates index creating =>
      have longer : (state.objects ++ [getter.create]).length = state.objects.length + 1 :=
        List.length_append
      refine ⟨fun object isShared => ?_, fun _ _ => Option.some_ne_none _,
        fun other answer found => ?_⟩
      · cases isShared
        exact longer ▸ Nat.lt_succ_self _
      · obtain ⟨object, isObject, bound⟩ :=
          sound.returned other answer ((FirstUse.at_put found).resolve_left GetPhase.noConfusion)
        exact ⟨object, isObject, longer ▸ Nat.lt_succ_of_lt bound⟩
  | returns index reading =>
      refine ⟨sound.shared, fun other found => ?_, fun other answer found => ?_⟩
      · exact sound.reading other ((FirstUse.at_put found).resolve_left GetPhase.noConfusion)
      · rcases FirstUse.at_put found with isAnswer | earlier
        · cases isAnswer
          obtain ⟨object, isShared⟩ := Option.ne_none_iff_exists'.mp (sound.reading index reading)
          exact ⟨object, isShared, sound.shared object isShared⟩
        · exact sound.returned other answer earlier

structure Settled (start : FirstUse Object) (object : Nat) (state : FirstUse Object) : Prop where
  shared : state.shared = some object
  creating : ∀ index, ¬state.At index .creating
  returned : ∀ index answer, state.At index (.returned answer) →
    start.At index (.returned answer) ∨ answer = some object

theorem Settled.step {start : FirstUse Object} {object : Nat} (settled : Settled start object state)
    (stepped : getter.Stepped state next) : Settled start object next := by
  cases stepped with
  | begins =>
      refine ⟨settled.shared, fun index found => ?_, fun index answer found => ?_⟩
      · exact settled.creating index (FirstUse.at_begun found GetPhase.noConfusion)
      · exact settled.returned index answer (FirstUse.at_begun found GetPhase.noConfusion)
  | misses index testing absent => cases settled.shared.symm.trans absent
  | finds index testing present =>
      refine ⟨settled.shared, fun other found => ?_, fun other answer found => ?_⟩
      · exact settled.creating other ((FirstUse.at_put found).resolve_left GetPhase.noConfusion)
      · exact settled.returned other answer
          ((FirstUse.at_put found).resolve_left GetPhase.noConfusion)
  | creates index creating => exact absurd creating (settled.creating index)
  | returns index reading =>
      refine ⟨settled.shared, fun other found => ?_, fun other answer found => ?_⟩
      · exact settled.creating other ((FirstUse.at_put found).resolve_left GetPhase.noConfusion)
      · rcases FirstUse.at_put found with isAnswer | earlier
        · cases isAnswer
          exact Or.inr settled.shared
        · exact settled.returned other answer earlier

/-- A call that has found no object replaces the one that there is by now. -/
theorem replaces (getter : OnFirstUse Object) {index : Nat} (creating : state.At index .creating) :
    ∃ last, Transition.run getter.step state [.turn index, .turn index] = some last ∧
      last.At index (.returned (some state.objects.length)) := by
  have stored : (state.store getter.create).At index .creating := creating
  have reading := FirstUse.at_put_self stored .reading
  refine ⟨_, ?_, FirstUse.at_put_self reading (.returned (some state.objects.length))⟩
  rw [Transition.run, getter.step_turn creating, advance, Option.bind_some, Transition.run,
    getter.step_turn reading]
  rfl

/-- Any number of threads call the function, and their statements interleave in any order.  Every
call that has returned has returned an object that there is.  Once there is one, whatever happens
from then on every call that returns returns this object, exactly if no call stands between its
test and its store. -/
theorem returns_shared_iff (getter : OnFirstUse Object) {actions : List GetAction}
    (ran : Transition.run getter.step {} actions = some state) :
    (∀ index answer, state.At index (.returned answer) →
      ∃ object, answer = some object ∧ object < state.objects.length) ∧
    ∀ object, state.shared = some object →
      ((∀ more last, Transition.run getter.step state more = some last →
        ∀ index answer, last.At index (.returned answer) →
          state.At index (.returned answer) ∨ answer = some object) ↔
        ∀ index, ¬state.At index .creating) := by
  have sound : Sound state := Transition.invariant_of_step Sound
    (fun _ _ _ holds taken => holds.step (getter.step_stepped taken)) Sound.initial ran
  refine ⟨sound.returned, fun object isShared => ⟨?_, ?_⟩⟩
  · intro only index creating
    obtain ⟨last, ranMore, returned⟩ := getter.replaces creating
    rcases only _ last ranMore index _ returned with already | same
    · cases creating.symm.trans already
    · cases same
      exact Nat.lt_irrefl _ (sound.shared _ isShared)
  · intro none more last ranMore
    have settled : Settled state object last := Transition.invariant_of_step (Settled state object)
      (fun _ _ _ holds taken => holds.step (getter.step_stepped taken))
      ⟨isShared, none, fun _ _ => Or.inl⟩ ranMore
    exact settled.returned

end OnFirstUse

def sampleOrderlyUse : List GetAction :=
  [.call, .turn 0, .turn 0, .turn 0, .call]

/-- Both calls have found no object, and the first has returned one. -/
def sampleRace : List GetAction :=
  [.call, .call, .turn 0, .turn 1, .turn 0, .turn 0]

theorem returns_shared_iff_race :
    ∃ orderly raced,
      Transition.run getMetricsRegistry.step {} sampleOrderlyUse = some orderly ∧
      (∀ more last, Transition.run getMetricsRegistry.step orderly more = some last →
        ∀ index answer, last.At index (.returned answer) →
          orderly.At index (.returned answer) ∨ answer = some 0) ∧
      Transition.run getMetricsRegistry.step {} sampleRace = some raced ∧
      ¬∀ more last, Transition.run getMetricsRegistry.step raced more = some last →
        ∀ index answer, last.At index (.returned answer) →
          raced.At index (.returned answer) ∨ answer = some 0 := by
  obtain ⟨orderly, ranOrderly, shared, calls⟩ : ∃ orderly,
      Transition.run getMetricsRegistry.step {} sampleOrderlyUse = some orderly ∧
      orderly.shared = some 0 ∧ orderly.calls = [.returned (some 0), .testing] :=
    ⟨_, rfl, rfl, rfl⟩
  obtain ⟨raced, ranRace, sharedRace, creating⟩ : ∃ raced,
      Transition.run getMetricsRegistry.step {} sampleRace = some raced ∧
      raced.shared = some 0 ∧ raced.At 1 .creating := ⟨_, rfl, rfl, rfl⟩
  refine ⟨orderly, raced, ranOrderly, ?_, ranRace, fun only => ?_⟩
  · refine ((getMetricsRegistry.returns_shared_iff ranOrderly).2 0 shared).mpr ?_
    intro index found
    have member := List.mem_of_getElem? found
    rw [calls] at member
    revert member
    decide
  · exact ((getMetricsRegistry.returns_shared_iff ranRace).2 0 sharedRace).mp only 1 creating

end AsPlatform
