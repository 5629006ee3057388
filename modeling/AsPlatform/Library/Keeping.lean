/-
Handlers that leave a view of the state as they found it.

A program keeps a view if it ends with the view it was entered with, by a return or by
an exception, as long as each of its calls out comes back with the view it was made
with.  Where all programs of a system keep a view, so does each activation of a run with
everything that is entered inside it, and what a call may rely on when it is made holds
whenever it is the innermost one.
-/

import AsPlatform.Library.EventSystem

namespace Reentrant

variable {State Request Error Label Value Result View : Type}

namespace Prog

/-- An exception that a call comes back with ends the program, after its clean-up. -/
def Passes (resume : State → Except Error Unit → Prog State Request Error Value) : Prop :=
  ∀ back error, ∃ last, resume back (.error error) = .ret last (.error error)

/-- Every call is permitted where it is made, and the view is put back in the end. -/
def Keeps (observe : State → View) (may : State → Request → Prop) (entry : View) :
    Prog State Request Error Value → Prop
  | ret state _ => observe state = entry
  | call state request resume =>
      may state request ∧ Passes resume ∧
        ∀ back result, observe back = observe state →
          (resume back result).Keeps observe may entry

variable {observe : State → View} {may : State → Request → Prop} {entry : View}

theorem Keeps.bind {program : Prog State Request Error Value}
    {next : State → Value → Prog State Request Error Result}
    (first : program.Keeps observe may entry)
    (second : ∀ state value, observe state = entry →
      (next state value).Keeps observe may entry) :
    (program.bind next).Keeps observe may entry := by
  induction program with
  | ret state result =>
      cases result with
      | error error => exact first
      | ok value => exact second state value first
  | call state request resume ih =>
      obtain ⟨allowed, passes, onward⟩ := first
      refine ⟨allowed, ?_, fun back result same => ih back result (onward back result same)⟩
      intro back error
      obtain ⟨last, ends⟩ := passes back error
      refine ⟨last, ?_⟩
      change (resume back (.error error)).bind next = .ret last (.error error)
      rw [ends, bind_error]

/-- What is changed before the program and put back by its clean-up is kept. -/
theorem Keeps.ensure {inside : View} {program : Prog State Request Error Value}
    {cleanup : State → State} (body : program.Keeps observe may inside)
    (restores : ∀ state, observe state = inside → observe (cleanup state) = entry) :
    (program.ensure cleanup).Keeps observe may entry := by
  induction program with
  | ret state result => exact restores state body
  | call state request resume ih =>
      obtain ⟨allowed, passes, onward⟩ := body
      refine ⟨allowed, ?_, fun back result same => ih back result (onward back result same)⟩
      intro back error
      obtain ⟨last, ends⟩ := passes back error
      refine ⟨cleanup last, ?_⟩
      change (resume back (.error error)).ensure cleanup = .ret (cleanup last) (.error error)
      rw [ends, ensure_ret]

/-- The program leaves the view alone all the time, whatever the calls do to it. -/
def Spares (observe : State → View) (entry : View) : Prog State Request Error Value → Prop
  | ret state _ => observe state = entry
  | call state _ resume =>
      observe state = entry ∧ ∀ back result, (resume back result).Spares observe (observe back)

theorem Spares.bind {program : Prog State Request Error Value}
    {next : State → Value → Prog State Request Error Result}
    (first : program.Spares observe entry)
    (second : ∀ state value, (next state value).Spares observe (observe state)) :
    (program.bind next).Spares observe entry := by
  induction program generalizing entry with
  | ret state result =>
      cases result with
      | error error => exact first
      | ok value =>
          have later := second state value
          rwa [show observe state = entry from first] at later
  | call state request resume ih =>
      exact ⟨first.1, fun back result => ih back result (first.2 back result)⟩

theorem Spares.ensure {program : Prog State Request Error Value} {cleanup : State → State}
    (body : program.Spares observe entry)
    (blind : ∀ state, observe (cleanup state) = observe state) :
    (program.ensure cleanup).Spares observe entry := by
  induction program generalizing entry with
  | ret state result => exact (blind state).trans body
  | call state request resume ih =>
      exact ⟨body.1, fun back result => ih back result (body.2 back result)⟩

/-- From where control comes in to where it is given away the view goes along the
relation. -/
def Moves (relates : View → View → Prop) (observe : State → View) (entry : View) :
    Prog State Request Error Value → Prop
  | ret state _ => relates entry (observe state)
  | call state _ resume => relates entry (observe state) ∧
      ∀ back result, (resume back result).Moves relates observe (observe back)

/-- The program goes along one relation up to its first call, and along another later. -/
def Opens (now later : View → View → Prop) (observe : State → View) (entry : View) :
    Prog State Request Error Value → Prop
  | ret state _ => now entry (observe state)
  | call state _ resume => now entry (observe state) ∧
      ∀ back result, (resume back result).Moves later observe (observe back)

variable {relates now later : View → View → Prop}

theorem Moves.mono {program : Prog State Request Error Value}
    (moves : program.Moves relates observe entry)
    (weaker : ∀ before after, relates before after → later before after) :
    program.Moves later observe entry := by
  induction program generalizing entry with
  | ret state result => exact weaker _ _ moves
  | call state request resume ih =>
      exact ⟨weaker _ _ moves.1, fun back result => ih back result (moves.2 back result)⟩

theorem Moves.bind {program : Prog State Request Error Value}
    {next : State → Value → Prog State Request Error Result}
    (trans : ∀ first second third, relates first second → relates second third →
      relates first third)
    (first : program.Moves relates observe entry)
    (second : ∀ state value, (next state value).Moves relates observe (observe state)) :
    (program.bind next).Moves relates observe entry := by
  induction program generalizing entry with
  | ret state result =>
      cases result with
      | error error => exact first
      | ok value =>
          have onward := second state value
          change (next state value).Moves relates observe entry
          cases ended : next state value with
          | ret last result =>
              rw [ended] at onward
              exact trans _ _ _ first onward
          | call last request resume =>
              rw [ended] at onward
              exact ⟨trans _ _ _ first onward.1, onward.2⟩
  | call state request resume ih =>
      exact ⟨first.1, fun back result => ih back result (first.2 back result)⟩

theorem Moves.ensure {program : Prog State Request Error Value} {cleanup : State → State}
    (body : program.Moves relates observe entry)
    (blind : ∀ state, observe (cleanup state) = observe state) :
    (program.ensure cleanup).Moves relates observe entry := by
  induction program generalizing entry with
  | ret state result =>
      change relates entry (observe (cleanup state))
      rw [blind]
      exact body
  | call state request resume ih =>
      exact ⟨body.1, fun back result => ih back result (body.2 back result)⟩

theorem Moves.spares {Part : Type} (part : View → Part) {program : Prog State Request Error Value}
    (moves : program.Moves relates observe entry)
    (same : ∀ before after, relates before after → part after = part before) :
    program.Spares (fun state => part (observe state)) (part entry) := by
  induction program generalizing entry with
  | ret state result => exact same _ _ moves
  | call state request resume ih =>
      exact ⟨same _ _ moves.1, fun back result => ih back result (moves.2 back result)⟩

theorem Moves.opens {program : Prog State Request Error Value}
    (moves : program.Moves relates observe entry) :
    program.Opens relates relates observe entry := by
  cases program with
  | ret state result => exact moves
  | call state request resume => exact moves

theorem Opens.mono {soon : View → View → Prop} {after : View → View → Prop}
    {program : Prog State Request Error Value} (opens : program.Opens now later observe entry)
    (nowWeaker : ∀ before reached, now before reached → soon before reached)
    (laterWeaker : ∀ before reached, later before reached → after before reached) :
    program.Opens soon after observe entry := by
  cases program with
  | ret state result => exact nowWeaker _ _ opens
  | call state request resume =>
      exact ⟨nowWeaker _ _ opens.1, fun back result => (opens.2 back result).mono laterWeaker⟩

end Prog

/-! ### The stack -/

/-- The view that each suspended handler finds when what is above it has ended. -/
def Stacked (observe : State → View) (permitted : View → Request → Prop) (base : View) :
    View → List (Frame State Request Error) → Prop
  | view, [] => view = base
  | view, frame :: frames =>
      permitted view frame.request ∧ Prog.Passes frame.resume ∧
        ∃ entry, (∀ back result, observe back = view →
          (frame.resume back result).Keeps observe
            (fun state request => permitted (observe state) request) entry) ∧
          Stacked observe permitted base entry frames

variable {observe : State → View} {permitted : View → Request → Prop} {base : View}

abbrev Prog.Fits (observe : State → View) (permitted : View → Request → Prop) (entry : View)
    (program : Prog State Request Error Value) : Prop :=
  program.Keeps observe (fun state request => permitted (observe state) request) entry

theorem settle_stacked (escaped : List Error) {entry : View}
    {program : Prog State Request Error Unit} (fits : program.Fits observe permitted entry)
    {frames : List (Frame State Request Error)}
    (stacked : Stacked observe permitted base entry frames) :
    Stacked observe permitted base (observe (settle escaped program frames).state)
      (settle escaped program frames).frames := by
  induction frames generalizing program entry with
  | nil =>
      cases program with
      | ret state result => cases result <;> exact fits.trans stacked
      | call state request resume => exact ⟨fits.1, fits.2.1, entry, fits.2.2, stacked⟩
  | cons frame frames ih =>
      cases program with
      | call state request resume =>
          rw [settle_call]
          exact ⟨fits.1, fits.2.1, entry, fits.2.2, stacked⟩
      | ret state result =>
          cases result with
          | ok value =>
              rw [settle_ok]
              change Stacked observe permitted base (observe state) (frame :: frames)
              rw [show observe state = entry from fits]
              exact stacked
          | error error =>
              obtain ⟨_, _, below, onward, rest⟩ := stacked
              exact ih (onward state (.error error) fits) rest

/-- An exception that nobody stops leaves no handler. -/
theorem settle_error_frames (escaped : List Error) (state : State) (error : Error)
    (frames : List (Frame State Request Error))
    (passes : ∀ frame, frame ∈ frames → Prog.Passes frame.resume) :
    (settle escaped (.ret state (.error error)) frames).frames = [] := by
  induction frames generalizing state with
  | nil => rfl
  | cons frame frames ih =>
      obtain ⟨last, ends⟩ := passes frame List.mem_cons_self state error
      rw [settle, ends]
      exact ih last (fun other member => passes other (List.mem_cons_of_mem frame member))

theorem Stacked.passes {view : View} {frames : List (Frame State Request Error)}
    (stacked : Stacked observe permitted base view frames) :
    ∀ frame, frame ∈ frames → Prog.Passes frame.resume := by
  induction frames generalizing view with
  | nil => exact fun frame member => absurd member List.not_mem_nil
  | cons first frames ih =>
      obtain ⟨_, passes, _, _, rest⟩ := stacked
      exact List.forall_mem_cons.mpr ⟨passes, ih rest⟩

/-- A program that ends inside an activation leaves the stack under it alone; one that
raises through it leaves fewer handlers than that. -/
theorem settle_above (escaped : List Error) {entry : View}
    {program : Prog State Request Error Unit} (fits : program.Fits observe permitted entry)
    {tops under : List (Frame State Request Error)}
    (stacked : Stacked observe permitted base entry tops)
    (passes : ∀ frame, frame ∈ under → Prog.Passes frame.resume) :
    (∃ left, (settle escaped program (tops ++ under)).frames = left ++ under ∧
      Stacked observe permitted base (observe (settle escaped program (tops ++ under)).state)
        left) ∨
      (settle escaped program (tops ++ under)).frames.length < under.length := by
  induction tops generalizing program entry with
  | nil =>
      rw [List.nil_append]
      cases program with
      | call state request resume =>
          rw [settle_call]
          exact Or.inl ⟨[_], rfl, fits.1, fits.2.1, entry, fits.2.2, stacked⟩
      | ret state result =>
          cases result with
          | ok value =>
              rw [settle_ok]
              exact Or.inl ⟨[], rfl, fits.trans stacked⟩
          | error error =>
              cases under with
              | nil => exact Or.inl ⟨[], rfl, fits.trans stacked⟩
              | cons frame under =>
                  rw [settle_error_frames escaped state error _ passes]
                  exact Or.inr (Nat.succ_pos _)
  | cons frame tops ih =>
      rw [List.cons_append]
      cases program with
      | call state request resume =>
          rw [settle_call]
          exact Or.inl ⟨_ :: frame :: tops, rfl, fits.1, fits.2.1, entry, fits.2.2, stacked⟩
      | ret state result =>
          cases result with
          | ok value =>
              rw [settle_ok]
              refine Or.inl ⟨frame :: tops, rfl, ?_⟩
              change Stacked observe permitted base (observe state) (frame :: tops)
              rw [show observe state = entry from fits]
              exact stacked
          | error error =>
              obtain ⟨_, _, below, onward, rest⟩ := stacked
              exact ih (onward state (.error error) fits) rest

/-! ### What is left alone -/

def Frame.Spares (observe : State → View) (frame : Frame State Request Error) : Prop :=
  ∀ back result, (frame.resume back result).Spares observe (observe back)

theorem settle_spares (escaped : List Error) {entry : View}
    {program : Prog State Request Error Unit} (spares : program.Spares observe entry)
    {frames : List (Frame State Request Error)}
    (rest : ∀ frame, frame ∈ frames → frame.Spares observe) :
    observe (settle escaped program frames).state = entry ∧
      ∀ frame, frame ∈ (settle escaped program frames).frames → frame.Spares observe := by
  induction frames generalizing program entry with
  | nil =>
      cases program with
      | ret state result =>
          cases result <;> exact ⟨spares, fun frame member => absurd member List.not_mem_nil⟩
      | call state request resume =>
          exact ⟨spares.1, List.forall_mem_cons.mpr ⟨spares.2, rest⟩⟩
  | cons frame frames ih =>
      obtain ⟨first, others⟩ := List.forall_mem_cons.mp rest
      cases program with
      | call state request resume =>
          rw [settle_call]
          exact ⟨spares.1, List.forall_mem_cons.mpr ⟨spares.2, rest⟩⟩
      | ret state result =>
          cases result with
          | ok value =>
              rw [settle_ok]
              exact ⟨spares, rest⟩
          | error error =>
              have later := first state (.error error)
              rw [show observe state = entry from spares] at later
              exact ih later others

def Frame.Moves (relates : View → View → Prop) (observe : State → View)
    (frame : Frame State Request Error) : Prop :=
  ∀ back result, (frame.resume back result).Moves relates observe (observe back)

theorem Frame.Moves.mono {relates weaker : View → View → Prop} {frame : Frame State Request Error}
    (moves : frame.Moves relates observe)
    (implies : ∀ before after, relates before after → weaker before after) :
    frame.Moves weaker observe :=
  fun back result => (moves back result).mono implies

/-- An activation goes along the one relation, and along that of the handlers under it where
an exception goes through them. -/
theorem settle_opens {now under later : View → View → Prop} (refl : ∀ view, under view view)
    (trans : ∀ first second third, under first second → under second third → under first third)
    (implies : ∀ before after, under before after → later before after)
    (escaped : List Error) {entry : View} {program : Prog State Request Error Unit}
    (opens : program.Opens now later observe entry) {frames : List (Frame State Request Error)}
    (rest : ∀ frame, frame ∈ frames → frame.Moves under observe) :
    (∃ middle, now entry middle ∧ under middle (observe (settle escaped program frames).state)) ∧
      ∀ frame, frame ∈ (settle escaped program frames).frames → frame.Moves later observe := by
  induction frames generalizing program entry now with
  | nil =>
      cases program with
      | ret state result =>
          cases result <;>
            exact ⟨⟨_, opens, refl _⟩, fun frame member => absurd member List.not_mem_nil⟩
      | call state request resume =>
          exact ⟨⟨_, opens.1, refl _⟩, List.forall_mem_singleton.mpr opens.2⟩
  | cons frame frames ih =>
      have restLater : ∀ other, other ∈ frame :: frames → other.Moves later observe :=
        fun other member => (rest other member).mono implies
      obtain ⟨first, others⟩ := List.forall_mem_cons.mp rest
      cases program with
      | call state request resume =>
          rw [settle_call]
          exact ⟨⟨_, opens.1, refl _⟩, List.forall_mem_cons.mpr ⟨opens.2, restLater⟩⟩
      | ret state result =>
          cases result with
          | ok value =>
              rw [settle_ok]
              exact ⟨⟨_, opens, refl _⟩, restLater⟩
          | error error =>
              obtain ⟨⟨middle, reached, onward⟩, kept⟩ := ih
                ((first state (.error error)).opens.mono (fun _ _ => id) implies) others
              exact ⟨⟨_, opens, trans _ _ _ reached onward⟩, kept⟩

/-! ### Runs -/

namespace System

variable (system : System State Request Error Label)

/-- A run that goes on inside an activation until it ends: all configurations but the
last have more than so many handlers suspended. -/
def Inside (depth : Nat) (config : Config State Request Error) :
    List (Action Label) → Config State Request Error → Prop
  | [], last => last = config
  | action :: rest, last =>
      depth < config.frames.length ∧
        ∃ next, system.step config action = some next ∧ Inside depth next rest last

def NestedKeep (observe : State → View) (permitted : View → Request → Prop) : Prop :=
  ∀ label state program, system.enter label state false = some program →
    program.Fits observe permitted (observe state)

variable {system}

/-- An activation that has ended, with all that was entered inside it, has put back the
view it was entered with. -/
theorem restored_of_inside (nested : system.NestedKeep observe permitted)
    {under tops : List (Frame State Request Error)}
    (passes : ∀ frame, frame ∈ under → Prog.Passes frame.resume)
    {config last : Config State Request Error} {actions : List (Action Label)}
    (split : config.frames = tops ++ under)
    (stacked : Stacked observe permitted base (observe config.state) tops)
    (inside : system.Inside under.length config actions last)
    (ended : last.frames.length = under.length) : observe last.state = base := by
  induction actions generalizing config tops with
  | nil =>
      rw [show last = config from inside, split, List.length_append] at ended
      have none : tops = [] := List.length_eq_zero_iff.mp (by omega)
      subst none
      rw [show last = config from inside]
      exact stacked
  | cons action rest ih =>
      obtain ⟨deep, next, taken, onward⟩ := inside
      -- the step is taken by a program on top of the activation
      have kept : (∃ left, next.frames = left ++ under ∧
          Stacked observe permitted base (observe next.state) left) ∨
            next.frames.length < under.length := by
        cases action with
        | enter label =>
            obtain ⟨program, entered, settled⟩ := step_enter.mp taken
            have busy : config.idle = false := by
              unfold Config.idle
              rw [List.isEmpty_eq_false_iff_exists_mem]
              exact List.exists_mem_of_length_pos (by omega)
            rw [busy] at entered
            rw [← settled, split]
            exact settle_above config.escaped (nested label config.state program entered)
              stacked passes
        | comeBack =>
            cases tops with
            | nil =>
                rw [split, List.nil_append] at deep
                exact absurd deep (Nat.lt_irrefl _)
            | cons frame tops =>
                obtain ⟨_, _, entry, resumes, below⟩ := stacked
                obtain ⟨innermost, older, suspended, rfl⟩ := step_comeBack.mp taken
                rw [split, List.cons_append] at suspended
                cases suspended
                exact settle_above config.escaped (resumes config.state (.ok ()) rfl) below passes
      rcases kept with ⟨left, nextSplit, nextStacked⟩ | fewer
      · exact ih nextSplit nextStacked onward
      · -- an exception has gone through the activation, and the run has not stopped there
        cases rest with
        | nil =>
            rw [show last = next from onward] at ended
            omega
        | cons second others => exact absurd onward.1 (by omega)

end System

end Reentrant
