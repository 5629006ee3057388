/-
Runs of a component whose handlers may be re-entered.

A configuration is the state of the component and the stack of the handlers that
are inside a call out.  The environment either enters the component once more or
lets the innermost call come back.  An exception that no handler stops unwinds
the whole stack and escapes to the environment's own loop.
-/

import AsPlatform.Library.Reentrant

namespace Reentrant

variable {State Request Error Label : Type}

structure Frame (State Request Error : Type) where
  request : Request
  resume : State → Except Error Unit → Prog State Request Error Unit

structure Config (State Request Error : Type) where
  state : State
  frames : List (Frame State Request Error)
  escaped : List Error

def Config.idle (config : Config State Request Error) : Bool :=
  config.frames.isEmpty

def Config.initial (state : State) : Config State Request Error :=
  { state := state
    frames := []
    escaped := [] }

/-- The component as its environment sees it: the program that entering by a
label starts, which may depend on whether some handler is suspended. -/
structure System (State Request Error Label : Type) where
  enter : Label → State → Bool → Option (Prog State Request Error Unit)

inductive Action (Label : Type) where
  | enter (label : Label)
  | comeBack
  deriving DecidableEq

/-- Take in where an activation stopped, with the suspended handlers under it. -/
def settle (escaped : List Error) :
    Prog State Request Error Unit → List (Frame State Request Error) →
      Config State Request Error
  | .call state request resume, frames =>
      { state := state
        frames := { request := request, resume := resume } :: frames
        escaped := escaped }
  | .ret state (.ok _), frames =>
      { state := state
        frames := frames
        escaped := escaped }
  | .ret state (.error error), [] =>
      { state := state
        frames := []
        escaped := escaped ++ [error] }
  | .ret state (.error error), frame :: frames =>
      settle escaped (frame.resume state (.error error)) frames
termination_by structural _ frames => frames

@[simp] theorem settle_call (escaped : List Error) (state : State) (request : Request)
    (resume : State → Except Error Unit → Prog State Request Error Unit)
    (frames : List (Frame State Request Error)) :
    settle escaped (.call state request resume) frames =
      { state := state
        frames := { request := request, resume := resume } :: frames
        escaped := escaped } := by
  cases frames <;> rfl

@[simp] theorem settle_ok (escaped : List Error) (state : State) (value : Unit)
    (frames : List (Frame State Request Error)) :
    settle escaped (.ret state (.ok value)) frames =
      { state := state, frames := frames, escaped := escaped } := by
  cases frames <;> rfl

namespace System

variable (system : System State Request Error Label)

def step (config : Config State Request Error) :
    Action Label → Option (Config State Request Error)
  | .enter label =>
      (system.enter label config.state config.idle).map
        (fun program => settle config.escaped program config.frames)
  | .comeBack =>
      match config.frames with
      | [] => none
      | frame :: frames =>
          some (settle config.escaped (frame.resume config.state (.ok ())) frames)

variable {system} in
theorem step_enter {config next : Config State Request Error} {label : Label} :
    system.step config (.enter label) = some next ↔
      ∃ program, system.enter label config.state config.idle = some program ∧
        settle config.escaped program config.frames = next :=
  Option.map_eq_some_iff

variable {system} in
theorem step_comeBack {config next : Config State Request Error} :
    system.step config .comeBack = some next ↔
      ∃ frame older, config.frames = frame :: older ∧
        settle config.escaped (frame.resume config.state (.ok ())) older = next := by
  unfold step
  cases config.frames with
  | nil => simp
  | cons frame older =>
      constructor
      · intro taken
        exact ⟨frame, older, rfl, Option.some.inj taken⟩
      · rintro ⟨innermost, rest, same, settled⟩
        cases same
        exact congrArg some settled

def run (config : Config State Request Error) :
    List (Action Label) → Option (Config State Request Error)
  | [] => some config
  | action :: rest => (system.step config action).bind (fun next => run next rest)

/-- `holds` at every step of the run that the actions describe. -/
def Along (holds : Config State Request Error → Action Label → Config State Request Error → Prop)
    (config : Config State Request Error) : List (Action Label) → Prop
  | [] => True
  | action :: rest =>
      ∀ next, system.step config action = some next →
        holds config action next ∧ Along holds next rest

instance decidableAlong
    (holds : Config State Request Error → Action Label → Config State Request Error → Prop)
    [∀ config action next, Decidable (holds config action next)] :
    ∀ (actions : List (Action Label)) (config : Config State Request Error),
      Decidable (system.Along holds config actions)
  | [], _ => isTrue trivial
  | action :: rest, config =>
      match taken : system.step config action with
      | none => isTrue (fun next stepped => by rw [taken] at stepped; cases stepped)
      | some next =>
          have := decidableAlong holds rest next
          decidable_of_iff (holds config action next ∧ system.Along holds next rest)
            ⟨fun both other stepped => by
              rw [taken] at stepped
              cases stepped
              exact both, fun along => along next taken⟩

/-- `may` holds at every step of the run before the first one that `releases`. -/
def AlongUntil (releases may : Config State Request Error → Action Label → Prop)
    (config : Config State Request Error) : List (Action Label) → Prop
  | [] => True
  | action :: rest =>
      ∀ next, system.step config action = some next →
        releases config action ∨ (may config action ∧ AlongUntil releases may next rest)

def Passes (start : Config State Request Error) (actions : List (Action Label))
    (config : Config State Request Error) : Prop :=
  ∃ earlier later, actions = earlier ++ later ∧ system.run start earlier = some config

inductive Reaches (may : Config State Request Error → Action Label → Prop)
    (start : Config State Request Error) : Config State Request Error → Prop where
  | refl : Reaches may start start
  | step {config next : Config State Request Error} {action : Action Label} :
      Reaches may start config → may config action →
        system.step config action = some next → Reaches may start next

variable {system}

theorem Along.mono
    {holds held : Config State Request Error → Action Label → Config State Request Error → Prop}
    {config : Config State Request Error} {actions : List (Action Label)}
    (weaker : ∀ config action next, holds config action next → held config action next)
    (along : system.Along holds config actions) : system.Along held config actions := by
  induction actions generalizing config with
  | nil => trivial
  | cons action rest ih =>
      intro next taken
      have both := along next taken
      exact ⟨weaker _ _ _ both.1, ih both.2⟩

theorem run_cons {config last : Config State Request Error} {action : Action Label}
    {rest : List (Action Label)} (ran : system.run config (action :: rest) = some last) :
    ∃ next, system.step config action = some next ∧ system.run next rest = some last :=
  Option.bind_eq_some_iff.mp ran

theorem run_append {config middle : Config State Request Error} {earlier : List (Action Label)}
    (ran : system.run config earlier = some middle) (later : List (Action Label)) :
    system.run config (earlier ++ later) = system.run middle later := by
  induction earlier generalizing config with
  | nil =>
      cases ran
      rfl
  | cons action rest ih =>
      obtain ⟨next, taken, onward⟩ := run_cons ran
      rw [List.cons_append, run, taken]
      exact ih onward

/-- What holds along a run and at one more step holds along the run with this step. -/
theorem along_concat
    {holds : Config State Request Error → Action Label → Config State Request Error → Prop}
    {config middle : Config State Request Error} {earlier : List (Action Label)}
    {action : Action Label} (along : system.Along holds config earlier)
    (ran : system.run config earlier = some middle)
    (now : ∀ next, system.step middle action = some next → holds middle action next) :
    system.Along holds config (earlier ++ [action]) := by
  induction earlier generalizing config with
  | nil =>
      cases ran
      exact fun next taken => ⟨now next taken, trivial⟩
  | cons first rest ih =>
      obtain ⟨next, taken, onward⟩ := run_cons ran
      intro other stepped
      rw [taken] at stepped
      cases stepped
      exact ⟨(along next taken).1, ih (along next taken).2 onward⟩

/-- A property of states holds along a run exactly if it holds of every configuration
the run goes through. -/
theorem along_iff_passes {holds : Config State Request Error → Prop}
    {start : Config State Request Error} (initially : holds start)
    (actions : List (Action Label)) :
    system.Along (fun _ _ next => holds next) start actions ↔
      ∀ config, system.Passes start actions config → holds config := by
  induction actions generalizing start with
  | nil =>
      refine iff_of_true trivial ?_
      rintro config ⟨earlier, later, split, ran⟩
      obtain ⟨rfl, rfl⟩ := List.nil_eq_append_iff.mp split
      cases ran
      exact initially
  | cons action rest ih =>
      constructor
      · rintro along config ⟨earlier, later, split, ran⟩
        cases earlier with
        | nil =>
            cases ran
            exact initially
        | cons first others =>
            obtain ⟨rfl, rfl⟩ := List.cons.inj split
            obtain ⟨next, taken, onward⟩ := run_cons ran
            have both := along next taken
            exact (ih both.1).mp both.2 config ⟨others, later, rfl, onward⟩
      · intro passed next taken
        have here : holds next :=
          passed next ⟨[action], rest, rfl, by simp [run, taken]⟩
        refine ⟨here, (ih here).mpr ?_⟩
        rintro config ⟨earlier, later, rfl, ran⟩
        exact passed config ⟨action :: earlier, later, rfl, by simp [run, taken, ran]⟩

theorem Reaches.trans
    {may : Config State Request Error → Action Label → Prop}
    {start middle config : Config State Request Error}
    (first : system.Reaches may start middle) (second : system.Reaches may middle config) :
    system.Reaches may start config := by
  induction second with
  | refl => exact first
  | step _ allowed taken ih => exact .step ih allowed taken

/-- The invariant rule: it holds at the start and every allowed step keeps it. -/
theorem Reaches.invariant
    {may : Config State Request Error → Action Label → Prop}
    {start config : Config State Request Error}
    (inv : Config State Request Error → Prop) (initially : inv start)
    (kept : ∀ config action next, inv config → may config action →
      system.step config action = some next → inv next)
    (reached : system.Reaches may start config) : inv config := by
  induction reached with
  | refl => exact initially
  | step _ allowed taken ih => exact kept _ _ _ ih allowed taken

theorem Reaches.of_run_along
    {may : Config State Request Error → Action Label → Prop}
    {start config : Config State Request Error} (actions : List (Action Label))
    (ran : system.run start actions = some config)
    (allowed : system.Along (fun config action _ => may config action) start actions) :
    system.Reaches may start config := by
  induction actions generalizing start with
  | nil =>
      cases ran
      exact .refl
  | cons action rest ih =>
      obtain ⟨next, taken, later⟩ := run_cons ran
      have both := allowed next taken
      exact Reaches.trans (.step .refl both.1 taken) (ih later both.2)

/-- What holds along a run holds at each of its steps. -/
theorem Along.at_step
    {holds : Config State Request Error → Action Label → Config State Request Error → Prop}
    {start config next : Config State Request Error} {earlier later : List (Action Label)}
    {action : Action Label} (along : system.Along holds start (earlier ++ action :: later))
    (ran : system.run start earlier = some config) (taken : system.step config action = some next) :
    holds config action next := by
  induction earlier generalizing start with
  | nil =>
      cases ran
      exact (along next taken).1
  | cons first rest ih =>
      obtain ⟨middle, stepped, onward⟩ := run_cons ran
      exact ih (along middle stepped).2 onward

/-- A run that does not satisfy a condition throughout has a first step that does not. -/
theorem exists_first_of_not_along {may : Config State Request Error → Action Label → Prop}
    {start : Config State Request Error} {actions : List (Action Label)}
    (broken : ¬system.Along (fun config action _ => may config action) start actions) :
    ∃ earlier action later config next, actions = earlier ++ action :: later ∧
      system.run start earlier = some config ∧ system.step config action = some next ∧
      system.Along (fun config action _ => may config action) start earlier ∧
      ¬may config action := by
  induction actions generalizing start with
  | nil => exact absurd trivial broken
  | cons action rest ih =>
      simp only [Along, not_forall] at broken
      obtain ⟨next, taken, broken⟩ := broken
      by_cases allowed : may start action
      · obtain ⟨earlier, other, later, config, last, split, ran, stepped, along, fails⟩ :=
          ih (fun along => broken ⟨allowed, along⟩)
        refine ⟨action :: earlier, other, later, config, last, ?_, ?_, stepped, ?_, fails⟩
        · rw [split, List.cons_append]
        · rw [run, taken]
          exact ran
        · intro middle taken'
          rw [taken] at taken'
          cases taken'
          exact ⟨allowed, along⟩
      · exact ⟨[], action, rest, start, next, rfl, rfl, taken, trivial, allowed⟩

theorem along_of_invariant
    {holds : Config State Request Error → Action Label → Config State Request Error → Prop}
    {start : Config State Request Error}
    (inv : Config State Request Error → Prop) (initially : inv start)
    (kept : ∀ config action next, inv config →
      system.step config action = some next → inv next ∧ holds config action next)
    (actions : List (Action Label)) : system.Along holds start actions := by
  induction actions generalizing start with
  | nil => trivial
  | cons action rest ih =>
      intro next taken
      have both := kept _ _ _ initially taken
      exact ⟨both.2, ih both.1⟩

theorem Reaches.of_run {start config : Config State Request Error}
    (actions : List (Action Label)) (ran : system.run start actions = some config) :
    system.Reaches (fun _ _ => True) start config :=
  Reaches.of_run_along actions ran
    (along_of_invariant (fun _ => True) trivial (fun _ _ _ _ _ => ⟨trivial, trivial⟩) actions)

/-- Where, under the invariant, a step satisfies the property exactly if it
satisfies the condition, a run has the property exactly if all its steps
satisfy the condition. -/
theorem along_iff_along
    {holds : Config State Request Error → Action Label → Config State Request Error → Prop}
    {may : Config State Request Error → Action Label → Prop}
    {start : Config State Request Error}
    (inv : Config State Request Error → Prop) (initially : inv start)
    (kept : ∀ config action next, inv config → may config action →
      system.step config action = some next → inv next)
    (exact_step : ∀ config action next, inv config →
      system.step config action = some next → (holds config action next ↔ may config action))
    (actions : List (Action Label)) :
    system.Along holds start actions ↔
      system.Along (fun config action _ => may config action) start actions := by
  induction actions generalizing start with
  | nil => exact Iff.rfl
  | cons action rest ih =>
      constructor
      · intro along next taken
        have both := along next taken
        have allowed := (exact_step _ _ _ initially taken).mp both.1
        exact ⟨allowed, (ih (kept _ _ _ initially allowed taken)).mp both.2⟩
      · intro along next taken
        have both := along next taken
        exact ⟨(exact_step _ _ _ initially taken).mpr both.1,
          (ih (kept _ _ _ initially both.1 taken)).mpr both.2⟩

/-- Where a step that releases makes the property safe for good, and any other satisfies it exactly
if it satisfies the condition, a run has the property exactly if its steps satisfy the condition
until one releases. -/
theorem along_iff_alongUntil
    {holds : Config State Request Error → Action Label → Config State Request Error → Prop}
    {releases may : Config State Request Error → Action Label → Prop}
    {start : Config State Request Error}
    (waiting released : Config State Request Error → Prop) (initially : waiting start)
    (frees : ∀ config action next, waiting config → releases config action →
      system.step config action = some next → released next ∧ holds config action next)
    (stays : ∀ config action next, released config →
      system.step config action = some next → released next ∧ holds config action next)
    (kept : ∀ config action next, waiting config → ¬releases config action →
      may config action → system.step config action = some next → waiting next)
    (exact_step : ∀ config action next, waiting config → ¬releases config action →
      system.step config action = some next → (holds config action next ↔ may config action))
    (actions : List (Action Label)) :
    system.Along holds start actions ↔ system.AlongUntil releases may start actions := by
  induction actions generalizing start with
  | nil => exact Iff.rfl
  | cons action rest ih =>
      refine forall_congr' fun next => forall_congr' fun taken => ?_
      by_cases frees_now : releases start action
      · obtain ⟨safe, now⟩ := frees start action next initially frees_now taken
        have later : system.Along holds next rest := along_of_invariant released safe stays rest
        exact iff_of_true ⟨now, later⟩ (Or.inl frees_now)
      · rw [or_iff_right frees_now, exact_step start action next initially frees_now taken]
        exact and_congr_right fun allowed =>
          ih (kept start action next initially frees_now allowed taken)

end System

/-- Once its call is back the handler neither calls out again nor raises an
exception of its own; `onReturn` and `onError` say what it does to the state. -/
structure Frame.Finishes (onReturn onError : State → State → Prop)
    (frame : Frame State Request Error) : Prop where
  returns : ∀ state, ∃ last,
    frame.resume state (.ok ()) = .ret last (.ok ()) ∧ onReturn state last
  raises : ∀ state error, ∃ last,
    frame.resume state (.error error) = .ret last (.error error) ∧ onError state last

end Reentrant
