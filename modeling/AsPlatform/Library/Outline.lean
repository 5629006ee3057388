/-
Outlines of re-entrant systems.

Invariants are about a view of the state, and a suspended handler matters only by
what it will still do to that view.  An outline keeps the view, what each suspended
handler has asked for and what is left of it, and how many exceptions escaped.
Every step of the system is followed by a step of its outline, so an invariant of
the outlines is an invariant of the system.
-/

import AsPlatform.Library.EventSystem
import Mathlib.Data.List.Forall2

namespace Reentrant

variable {State Request Error Label View Rest : Type}

/-- How an activation ended; `rest` is what is left of a handler that called out. -/
inductive Ending (Request Rest : Type) where
  | returned
  | raised
  | called (request : Request) (rest : Rest)
  deriving DecidableEq

structure Outline (View Request Rest : Type) where
  view : View
  suspended : List (Request × Rest)
  escaped : Nat

/-- Take in how an activation ended.  An exception unwinds every suspended handler. -/
def Outline.finish (outline : Outline View Request Rest) (view : View) :
    Ending Request Rest → Outline View Request Rest
  | .returned => { outline with view := view }
  | .raised => { view := view, suspended := [], escaped := outline.escaped + 1 }
  | .called request rest =>
      { view := view
        suspended := (request, rest) :: outline.suspended
        escaped := outline.escaped }

/-- How a system is seen: a view of its state, and what each kind of rest does to the
view when its call comes back. -/
structure Outlook (State View Rest : Type) where
  view : State → View
  after : Rest → View → View

namespace Outlook

variable (outlook : Outlook State View Rest)

structure Rests (request : Request) (rest : Rest)
    (frame : Frame State Request Error) : Prop where
  request : frame.request = request
  finishes : frame.Finishes
    (fun before after => outlook.view after = outlook.after rest (outlook.view before))
    (fun before after => outlook.view after = outlook.view before)

def EndsAs : Prog State Request Error Unit → Ending Request Rest → Prop
  | .ret _ (.ok _), .returned => True
  | .ret _ (.error _), .raised => True
  | .call _ request resume, .called expected rest =>
      outlook.Rests expected rest { request := request, resume := resume }
  | _, _ => False

structure Outcome (program : Prog State Request Error Unit) (view : View)
    (ending : Ending Request Rest) : Prop where
  view : outlook.view program.stop = view
  ends : outlook.EndsAs program ending

/-- Entering the system does only what the effect says. -/
def Describes (effect : View → Label → View → Ending Request Rest → Prop)
    (system : System State Request Error Label) : Prop :=
  ∀ label state idle program, system.enter label state idle = some program →
    ∃ view ending, effect (outlook.view state) label view ending ∧
      outlook.Outcome program view ending

structure Follows (config : Config State Request Error)
    (outline : Outline View Request Rest) : Prop where
  view : outlook.view config.state = outline.view
  frames : List.Forall₂ (fun frame suspended => outlook.Rests suspended.1 suspended.2 frame)
    config.frames outline.suspended
  escaped : config.escaped.length = outline.escaped

inductive Step (effect : View → Label → View → Ending Request Rest → Prop)
    (outline : Outline View Request Rest) :
    Action Label → Outline View Request Rest → Prop where
  | enter (label : Label) (view : View) (ending : Ending Request Rest)
      (happens : effect outline.view label view ending) :
      Step effect outline (.enter label) (outline.finish view ending)
  | comeBack (request : Request) (rest : Rest) (suspended : List (Request × Rest))
      (innermost : outline.suspended = (request, rest) :: suspended) :
      Step effect outline .comeBack
        { view := outlook.after rest outline.view
          suspended := suspended
          escaped := outline.escaped }

variable {outlook} {effect : View → Label → View → Ending Request Rest → Prop}

theorem follows_initial (state : State) :
    outlook.Follows (Config.initial state : Config State Request Error)
      { view := outlook.view state, suspended := [], escaped := 0 } :=
  { view := rfl
    frames := .nil
    escaped := rfl }

theorem Rests.comesBack {request : Request} {rest : Rest} {frame : Frame State Request Error}
    (rests : outlook.Rests request rest frame) (state : State) :
    ∃ last, frame.resume state (.ok ()) = .ret last (.ok ()) ∧
      outlook.view last = outlook.after rest (outlook.view state) :=
  rests.finishes.returns state

/-- An exception passes through all suspended handlers and leaves the view alone. -/
theorem settle_raised (escaped : List Error) (frames : List (Frame State Request Error))
    (suspended : List (Request × Rest))
    (left : List.Forall₂ (fun frame known => outlook.Rests known.1 known.2 frame)
      frames suspended) (state : State) (error : Error) :
    ∃ last, outlook.view last = outlook.view state ∧
      settle escaped (.ret state (.error error)) frames =
        { state := last, frames := [], escaped := escaped ++ [error] } := by
  induction left generalizing state with
  | nil => exact ⟨state, rfl, rfl⟩
  | cons rests _ ih =>
      obtain ⟨middle, resumed, same⟩ := rests.finishes.raises state error
      obtain ⟨last, still, settled⟩ := ih middle
      refine ⟨last, still.trans same, ?_⟩
      rw [settle, resumed]
      exact settled

theorem follows_settle {config : Config State Request Error}
    {outline : Outline View Request Rest} (follows : outlook.Follows config outline)
    {program : Prog State Request Error Unit} {view : View} {ending : Ending Request Rest}
    (outcome : outlook.Outcome program view ending) :
    outlook.Follows (settle config.escaped program config.frames)
      (outline.finish view ending) := by
  have ends := outcome.ends
  cases program with
  | call state request resume =>
      cases ending with
      | returned => exact absurd ends id
      | raised => exact absurd ends id
      | called expected rest =>
          rw [settle_call]
          exact ⟨outcome.view, .cons ends follows.frames, follows.escaped⟩
  | ret state result =>
      cases result with
      | ok value =>
          cases ending with
          | returned =>
              rw [settle_ok]
              exact ⟨outcome.view, follows.frames, follows.escaped⟩
          | raised => exact absurd ends id
          | called expected rest => exact absurd ends id
      | error error =>
          cases ending with
          | returned => exact absurd ends id
          | raised =>
              obtain ⟨last, same, settled⟩ := settle_raised config.escaped config.frames
                outline.suspended follows.frames state error
              rw [settled]
              refine ⟨same.trans outcome.view, .nil, ?_⟩
              rw [List.length_append, follows.escaped]
              rfl
          | called expected rest => exact absurd ends id

/-- Every step of the system is followed by a step of its outline. -/
theorem follows_step {system : System State Request Error Label}
    (describes : outlook.Describes effect system) {config next : Config State Request Error}
    {action : Action Label} {outline : Outline View Request Rest}
    (follows : outlook.Follows config outline)
    (taken : system.step config action = some next) :
    ∃ nextOutline, outlook.Step effect outline action nextOutline ∧
      outlook.Follows next nextOutline := by
  cases action with
  | enter label =>
      obtain ⟨program, entered, rfl⟩ := System.step_enter.mp taken
      obtain ⟨view, ending, happens, outcome⟩ := describes label _ _ program entered
      rw [follows.view] at happens
      exact ⟨_, .enter label view ending happens, follows_settle follows outcome⟩
  | comeBack =>
      obtain ⟨frame, older, suspended, rfl⟩ := System.step_comeBack.mp taken
      have frames := follows.frames
      rw [suspended] at frames
      cases known : outline.suspended with
      | nil =>
          rw [known] at frames
          cases frames
      | cons innermost rest =>
          rw [known] at frames
          cases frames with
          | cons rests others =>
              obtain ⟨last, resumed, viewed⟩ := rests.comesBack config.state
              rw [resumed, settle_ok]
              refine ⟨_, .comeBack innermost.1 innermost.2 rest known, ?_, others,
                follows.escaped⟩
              rw [viewed, follows.view]

def Keeps (outlook : Outlook State View Rest)
    (inv : Outline View Request Rest → Prop) (config : Config State Request Error) : Prop :=
  ∃ outline, outlook.Follows config outline ∧ inv outline

theorem keeps_step {system : System State Request Error Label}
    (describes : outlook.Describes effect system) {inv : Outline View Request Rest → Prop}
    {config next : Config State Request Error} {action : Action Label}
    (kept : ∀ outline nextOutline, outlook.Follows config outline → inv outline →
      outlook.Step effect outline action nextOutline → inv nextOutline)
    (before : outlook.Keeps inv config) (taken : system.step config action = some next) :
    outlook.Keeps inv next := by
  obtain ⟨outline, follows, holds⟩ := before
  obtain ⟨nextOutline, step, followed⟩ := follows_step describes follows taken
  exact ⟨nextOutline, followed, kept outline nextOutline follows holds step⟩

theorem keeps_reached {system : System State Request Error Label}
    (describes : outlook.Describes effect system) (inv : Outline View Request Rest → Prop)
    {may : Config State Request Error → Action Label → Prop} {state : State}
    {config : Config State Request Error}
    (initially : inv { view := outlook.view state, suspended := [], escaped := 0 })
    (kept : ∀ config action outline next, outlook.Follows config outline → inv outline →
      may config action → outlook.Step effect outline action next → inv next)
    (reached : system.Reaches may (Config.initial state) config) :
    outlook.Keeps inv config := by
  refine System.Reaches.invariant (outlook.Keeps inv) ⟨_, follows_initial state, initially⟩
    ?_ reached
  intro middle action next before allowed taken
  exact keeps_step describes (fun outline nextOutline follows holds step =>
    kept middle action outline nextOutline follows holds allowed step) before taken

/-- A step property that the outlines show holds along every run whose steps satisfy
the condition. -/
theorem along_of_along {system : System State Request Error Label}
    (describes : outlook.Describes effect system) (inv : Outline View Request Rest → Prop)
    {holds : Config State Request Error → Action Label → Config State Request Error → Prop}
    {may : Config State Request Error → Action Label → Prop}
    (shown : ∀ config action next outline nextOutline, outlook.Follows config outline →
      outlook.Follows next nextOutline → inv outline → may config action →
      system.step config action = some next → outlook.Step effect outline action nextOutline →
      inv nextOutline ∧ holds config action next)
    {start : Config State Request Error} (initially : outlook.Keeps inv start)
    (actions : List (Action Label))
    (allowed : system.Along (fun config action _ => may config action) start actions) :
    system.Along holds start actions := by
  induction actions generalizing start with
  | nil => trivial
  | cons action rest ih =>
      intro next taken
      obtain ⟨first, later⟩ := allowed next taken
      obtain ⟨outline, follows, before⟩ := initially
      obtain ⟨nextOutline, step, followed⟩ := follows_step describes follows taken
      have both := shown start action next outline nextOutline follows followed before first
        taken step
      exact ⟨both.2, ih ⟨nextOutline, followed, both.1⟩ later⟩

/-- Where the outlines show that a step satisfies the property exactly if it satisfies
the condition, a run has the property exactly if all its steps satisfy the condition. -/
theorem along_iff_along {system : System State Request Error Label}
    (describes : outlook.Describes effect system) (inv : Outline View Request Rest → Prop)
    {holds : Config State Request Error → Action Label → Config State Request Error → Prop}
    {may : Config State Request Error → Action Label → Prop} {state : State}
    (initially : inv { view := outlook.view state, suspended := [], escaped := 0 })
    (kept : ∀ config action outline next, outlook.Follows config outline → inv outline →
      may config action → outlook.Step effect outline action next → inv next)
    (exact_step : ∀ config action next outline nextOutline, outlook.Follows config outline →
      outlook.Follows next nextOutline → inv outline →
      system.step config action = some next → outlook.Step effect outline action nextOutline →
      (holds config action next ↔ may config action))
    (actions : List (Action Label)) :
    system.Along holds (Config.initial state) actions ↔
      system.Along (fun config action _ => may config action) (Config.initial state)
        actions := by
  refine System.along_iff_along (outlook.Keeps inv) ⟨_, follows_initial state, initially⟩
    ?_ ?_ actions
  · intro middle action next before allowed taken
    exact keeps_step describes (fun outline nextOutline follows inside step =>
      kept middle action outline nextOutline follows inside allowed step) before taken
  · intro middle action next before taken
    obtain ⟨outline, follows, inside⟩ := before
    obtain ⟨nextOutline, step, followed⟩ := follows_step describes follows taken
    exact exact_step middle action next outline nextOutline follows followed inside taken step

/-- The same where the condition is asked for only until some step releases. -/
theorem along_iff_alongUntil {system : System State Request Error Label}
    (describes : outlook.Describes effect system)
    (waiting released : Outline View Request Rest → Prop)
    {holds : Config State Request Error → Action Label → Config State Request Error → Prop}
    {releases may : Config State Request Error → Action Label → Prop} {state : State}
    (initially : waiting { view := outlook.view state, suspended := [], escaped := 0 })
    (frees : ∀ config action next outline nextOutline, outlook.Follows config outline →
      outlook.Follows next nextOutline → waiting outline → releases config action →
      outlook.Step effect outline action nextOutline →
      released nextOutline ∧ holds config action next)
    (stays : ∀ config action next outline nextOutline, outlook.Follows next nextOutline →
      released outline → outlook.Step effect outline action nextOutline →
      released nextOutline ∧ holds config action next)
    (kept : ∀ config action outline nextOutline, outlook.Follows config outline →
      waiting outline → ¬releases config action → may config action →
      outlook.Step effect outline action nextOutline → waiting nextOutline)
    (exact_step : ∀ config action next outline nextOutline, outlook.Follows config outline →
      outlook.Follows next nextOutline → waiting outline → ¬releases config action →
      outlook.Step effect outline action nextOutline →
      (holds config action next ↔ may config action))
    (actions : List (Action Label)) :
    system.Along holds (Config.initial state) actions ↔
      system.AlongUntil releases may (Config.initial state) actions := by
  refine System.along_iff_alongUntil (outlook.Keeps waiting) (outlook.Keeps released)
    ⟨_, follows_initial state, initially⟩ ?_ ?_ ?_ ?_ actions
  · rintro config action next ⟨outline, follows, inside⟩ frees_now taken
    obtain ⟨nextOutline, step, followed⟩ := follows_step describes follows taken
    have both := frees config action next outline nextOutline follows followed inside frees_now step
    exact ⟨⟨nextOutline, followed, both.1⟩, both.2⟩
  · rintro config action next ⟨outline, follows, inside⟩ taken
    obtain ⟨nextOutline, step, followed⟩ := follows_step describes follows taken
    have both := stays config action next outline nextOutline followed inside step
    exact ⟨⟨nextOutline, followed, both.1⟩, both.2⟩
  · intro config action next before waits allowed taken
    exact keeps_step describes (fun outline nextOutline follows inside step =>
      kept config action outline nextOutline follows inside waits allowed step) before taken
  · rintro config action next ⟨outline, follows, inside⟩ waits taken
    obtain ⟨nextOutline, step, followed⟩ := follows_step describes follows taken
    exact exact_step config action next outline nextOutline follows followed inside waits step

end Outlook

end Reentrant
