/-
Two runs side by side.

Two programs are alike if they stop in related states and in the same way, with the
same request, and go on alike from all related states the environment brings them back
in.  Two systems run in lockstep if they can take the same actions, and what is asked
of each pair of steps holds.
-/

import AsPlatform.Library.EventSystem
import Mathlib.Data.List.Forall2

namespace Reentrant

variable {State Request Error Label Value Result : Type}

inductive Prog.Alike (related : State → State → Prop) :
    Prog State Request Error Value → Prog State Request Error Value → Prop where
  | ret {left right : State} (states : related left right) (result : Except Error Value) :
      Alike related (.ret left result) (.ret right result)
  | call {left right : State} (states : related left right) (request : Request)
      {leftNext rightNext : State → Except Error Unit → Prog State Request Error Value}
      (onward : ∀ left right result, related left right →
        Alike related (leftNext left result) (rightNext right result)) :
      Alike related (.call left request leftNext) (.call right request rightNext)

namespace Prog.Alike

variable {related : State → State → Prop}

theorem bind {left right : Prog State Request Error Value}
    {leftNext rightNext : State → Value → Prog State Request Error Result}
    (first : Prog.Alike related left right)
    (second : ∀ left right value, related left right →
      Prog.Alike related (leftNext left value) (rightNext right value)) :
    Prog.Alike related (left.bind leftNext) (right.bind rightNext) := by
  induction first with
  | ret states result =>
      cases result with
      | error error => exact .ret states (.error error)
      | ok value => exact second _ _ value states
  | call states request onward ih => exact .call states request ih

theorem ensure {left right : Prog State Request Error Value}
    {leftCleanup rightCleanup : State → State} (body : Prog.Alike related left right)
    (cleanup : ∀ left right, related left right →
      related (leftCleanup left) (rightCleanup right)) :
    Prog.Alike related (left.ensure leftCleanup) (right.ensure rightCleanup) := by
  induction body with
  | ret states result => exact .ret (cleanup _ _ states) result
  | call states request onward ih => exact .call states request ih

end Prog.Alike

namespace Handler

def Alike (related : State → State → Prop) (left right : Handler State Request Error Value) :
    Prop :=
  ∀ leftState rightState, related leftState rightState →
    Prog.Alike related (left leftState) (right rightState)

variable {related : State → State → Prop}

theorem alike_pure (value : Value) :
    (pure value : Handler State Request Error Value).Alike related (pure value) :=
  fun _ _ states => .ret states (.ok value)

theorem alike_raise (error : Error) :
    (raise error : Handler State Request Error Value).Alike related (raise error) :=
  fun _ _ states => .ret states (.error error)

theorem alike_ofExcept (result : Except Error Value) :
    (ofExcept result : Handler State Request Error Value).Alike related (ofExcept result) :=
  fun _ _ states => .ret states result

theorem alike_modify {leftChange rightChange : State → State}
    (changes : ∀ left right, related left right →
      related (leftChange left) (rightChange right)) :
    (modify leftChange : Handler State Request Error Unit).Alike related
      (modify rightChange) :=
  fun left right states => .ret (changes left right states) (.ok ())

theorem alike_callOut (request : Request) :
    (callOut request : Handler State Request Error Unit).Alike related (callOut request) :=
  fun _ _ states => .call states request (fun _ _ result back => .ret back result)

theorem alike_bind {left right : Handler State Request Error Value}
    {leftNext rightNext : Value → Handler State Request Error Result}
    (first : left.Alike related right)
    (second : ∀ value, (leftNext value).Alike related (rightNext value)) :
    (left >>= leftNext).Alike related (right >>= rightNext) :=
  fun leftState rightState states =>
    (first leftState rightState states).bind
      (fun leftMiddle rightMiddle value middle => second value leftMiddle rightMiddle middle)

theorem alike_get {leftNext rightNext : State → Handler State Request Error Result}
    (second : ∀ left right, related left right →
      Prog.Alike related (leftNext left left) (rightNext right right)) :
    (get >>= leftNext).Alike related (get >>= rightNext) :=
  fun left right states => second left right states

end Handler

/-! ### Configurations -/

structure Frame.Alike (related : State → State → Prop)
    (left right : Frame State Request Error) : Prop where
  request : left.request = right.request
  resume : ∀ leftState rightState result, related leftState rightState →
    Prog.Alike related (left.resume leftState result) (right.resume rightState result)

structure Config.Alike (related : State → State → Prop)
    (left right : Config State Request Error) : Prop where
  state : related left.state right.state
  frames : List.Forall₂ (Frame.Alike related) left.frames right.frames
  escaped : left.escaped = right.escaped

theorem Config.Alike.requests {related : State → State → Prop}
    {left right : Config State Request Error} (alike : Config.Alike related left right) :
    left.frames.map Frame.request = right.frames.map Frame.request := by
  have same : List.Forall₂ Eq (left.frames.map Frame.request)
      (right.frames.map Frame.request) := by
    rw [List.forall₂_map_left_iff, List.forall₂_map_right_iff]
    exact alike.frames.imp (fun _ _ frame => frame.request)
  rwa [List.forall₂_eq_eq_eq] at same

theorem Config.Alike.idle {related : State → State → Prop}
    {left right : Config State Request Error} (alike : Config.Alike related left right) :
    left.idle = right.idle := by
  have length := alike.frames.length_eq
  unfold Config.idle
  rw [Bool.eq_iff_iff, List.isEmpty_iff_length_eq_zero, List.isEmpty_iff_length_eq_zero, length]

theorem settle_alike {related : State → State → Prop} (escaped : List Error)
    {left right : Prog State Request Error Unit} (programs : Prog.Alike related left right)
    {leftFrames rightFrames : List (Frame State Request Error)}
    (frames : List.Forall₂ (Frame.Alike related) leftFrames rightFrames) :
    Config.Alike related (settle escaped left leftFrames)
      (settle escaped right rightFrames) := by
  induction frames generalizing left right with
  | nil =>
      cases programs with
      | ret states result => cases result <;> exact ⟨states, .nil, rfl⟩
      | call states request onward =>
          exact ⟨states, .cons ⟨rfl, onward⟩ .nil, rfl⟩
  | cons first rest ih =>
      cases programs with
      | ret states result =>
          cases result with
          | ok value => exact ⟨states, .cons first rest, rfl⟩
          | error error => exact ih (first.resume _ _ (.error error) states)
      | call states request onward =>
          exact ⟨states, .cons ⟨rfl, onward⟩ (.cons first rest), rfl⟩

namespace System

variable (left right : System State Request Error Label)

/-- Both systems take the actions one by one. -/
def Lockstep
    (holds : Config State Request Error → Config State Request Error → Action Label →
      Config State Request Error → Config State Request Error → Prop)
    (leftConfig rightConfig : Config State Request Error) : List (Action Label) → Prop
  | [] => True
  | action :: rest =>
      match left.step leftConfig action, right.step rightConfig action with
      | none, none => True
      | some leftNext, some rightNext =>
          holds leftConfig rightConfig action leftNext rightNext ∧
            Lockstep holds leftNext rightNext rest
      | _, _ => False

instance decidableLockstep
    (holds : Config State Request Error → Config State Request Error → Action Label →
      Config State Request Error → Config State Request Error → Prop)
    [∀ leftConfig rightConfig action leftNext rightNext,
      Decidable (holds leftConfig rightConfig action leftNext rightNext)] :
    ∀ (actions : List (Action Label)) (leftConfig rightConfig : Config State Request Error),
      Decidable (left.Lockstep right holds leftConfig rightConfig actions)
  | [], _, _ => isTrue trivial
  | action :: rest, leftConfig, rightConfig =>
      match leftTaken : left.step leftConfig action,
        rightTaken : right.step rightConfig action with
      | none, none => isTrue (by simp [Lockstep, leftTaken, rightTaken])
      | some leftNext, some rightNext =>
          have := decidableLockstep holds rest leftNext rightNext
          decidable_of_iff
            (holds leftConfig rightConfig action leftNext rightNext ∧
              left.Lockstep right holds leftNext rightNext rest)
            (by simp [Lockstep, leftTaken, rightTaken])
      | none, some _ => isFalse (by simp [Lockstep, leftTaken, rightTaken])
      | some _, none => isFalse (by simp [Lockstep, leftTaken, rightTaken])

variable {left right}

theorem Lockstep.mono
    {holds held : Config State Request Error → Config State Request Error → Action Label →
      Config State Request Error → Config State Request Error → Prop}
    {leftConfig rightConfig : Config State Request Error} {actions : List (Action Label)}
    (weaker : ∀ leftConfig rightConfig action leftNext rightNext,
      holds leftConfig rightConfig action leftNext rightNext →
        held leftConfig rightConfig action leftNext rightNext)
    (lockstep : left.Lockstep right holds leftConfig rightConfig actions) :
    left.Lockstep right held leftConfig rightConfig actions := by
  induction actions generalizing leftConfig rightConfig with
  | nil => trivial
  | cons action rest ih =>
      unfold Lockstep at lockstep ⊢
      split at lockstep
      · trivial
      · exact ⟨weaker _ _ _ _ _ lockstep.1, ih lockstep.2⟩
      · exact lockstep

theorem alike_step {related : State → State → Prop}
    {leftConfig rightConfig leftNext : Config State Request Error} {action : Action Label}
    (alike : Config.Alike related leftConfig rightConfig)
    (enters : ∀ label, action = .enter label → ∀ leftProgram,
      left.enter label leftConfig.state leftConfig.idle = some leftProgram →
        ∃ rightProgram, right.enter label rightConfig.state leftConfig.idle = some rightProgram ∧
          Prog.Alike related leftProgram rightProgram)
    (taken : left.step leftConfig action = some leftNext) :
    ∃ rightNext, right.step rightConfig action = some rightNext ∧
      Config.Alike related leftNext rightNext := by
  cases action with
  | enter label =>
      obtain ⟨leftProgram, leftEntered, rfl⟩ := step_enter.mp taken
      obtain ⟨rightProgram, rightEntered, programs⟩ := enters label rfl leftProgram leftEntered
      rw [alike.idle] at rightEntered
      refine ⟨_, step_enter.mpr ⟨rightProgram, rightEntered, rfl⟩, ?_⟩
      rw [alike.escaped]
      exact settle_alike _ programs alike.frames
  | comeBack =>
      obtain ⟨leftFrame, leftOlder, leftFrames, rfl⟩ := step_comeBack.mp taken
      have frames := alike.frames
      rw [leftFrames] at frames
      cases rightFrames : rightConfig.frames with
      | nil =>
          rw [rightFrames] at frames
          cases frames
      | cons rightFrame rightOlder =>
          rw [rightFrames] at frames
          cases frames with
          | cons innermost older =>
              refine ⟨_, step_comeBack.mpr ⟨rightFrame, rightOlder, rightFrames, rfl⟩, ?_⟩
              rw [alike.escaped]
              exact settle_alike _ (innermost.resume _ _ (.ok ()) alike.state) older

/-- One system from two related configurations, where related states are entered alike. -/
theorem alike_run {system : System State Request Error Label} {related : State → State → Prop}
    (enters : ∀ label leftState rightState idle leftProgram, related leftState rightState →
      system.enter label leftState idle = some leftProgram →
        ∃ rightProgram, system.enter label rightState idle = some rightProgram ∧
          Prog.Alike related leftProgram rightProgram)
    {leftConfig rightConfig leftLast : Config State Request Error} {actions : List (Action Label)}
    (alike : Config.Alike related leftConfig rightConfig)
    (ran : system.run leftConfig actions = some leftLast) :
    ∃ rightLast, system.run rightConfig actions = some rightLast ∧
      Config.Alike related leftLast rightLast := by
  induction actions generalizing leftConfig rightConfig with
  | nil =>
      cases ran
      exact ⟨rightConfig, rfl, alike⟩
  | cons action rest ih =>
      obtain ⟨leftNext, leftTaken, onward⟩ := run_cons ran
      obtain ⟨rightNext, rightTaken, nextAlike⟩ := alike_step alike
        (fun label _ leftProgram entered =>
          enters label _ _ _ leftProgram alike.state entered) leftTaken
      obtain ⟨rightLast, rightRan, lastAlike⟩ := ih nextAlike onward
      refine ⟨rightLast, ?_, lastAlike⟩
      rw [run, rightTaken]
      exact rightRan

/-- Where, under an invariant of the pair, the systems can take the same actions, and a
pair of steps satisfies the property exactly if the first satisfies the condition, two
runs have the property exactly if all steps of the first satisfy the condition. -/
theorem lockstep_iff_along
    {holds : Config State Request Error → Config State Request Error → Action Label →
      Config State Request Error → Config State Request Error → Prop}
    {may : Config State Request Error → Action Label → Prop}
    (inv : Config State Request Error → Config State Request Error → Prop)
    (together : ∀ leftConfig rightConfig action, inv leftConfig rightConfig →
      (left.step leftConfig action).isSome = (right.step rightConfig action).isSome)
    (kept : ∀ leftConfig rightConfig action leftNext rightNext, inv leftConfig rightConfig →
      left.step leftConfig action = some leftNext →
      right.step rightConfig action = some rightNext → may leftConfig action →
      inv leftNext rightNext ∧ holds leftConfig rightConfig action leftNext rightNext)
    (needed : ∀ leftConfig rightConfig action leftNext rightNext, inv leftConfig rightConfig →
      left.step leftConfig action = some leftNext →
      right.step rightConfig action = some rightNext →
      holds leftConfig rightConfig action leftNext rightNext → may leftConfig action)
    {leftConfig rightConfig : Config State Request Error}
    (initially : inv leftConfig rightConfig) (actions : List (Action Label)) :
    left.Lockstep right holds leftConfig rightConfig actions ↔
      left.Along (fun config action _ => may config action) leftConfig actions := by
  induction actions generalizing leftConfig rightConfig with
  | nil => exact Iff.rfl
  | cons action rest ih =>
      have both := together leftConfig rightConfig action initially
      unfold Lockstep Along
      cases leftTaken : left.step leftConfig action with
      | none =>
          have absent : right.step rightConfig action = none := by
            simpa [leftTaken] using both
          rw [absent]
          exact iff_of_true trivial (fun _ taken => by cases taken)
      | some leftNext =>
          rw [leftTaken, Option.isSome_some] at both
          obtain ⟨rightNext, rightTaken⟩ := Option.isSome_iff_exists.mp both.symm
          rw [rightTaken]
          constructor
          · rintro ⟨here, onward⟩ next taken
            cases taken
            have allowed := needed _ _ _ _ _ initially leftTaken rightTaken here
            have later := kept _ _ _ _ _ initially leftTaken rightTaken allowed
            exact ⟨allowed, (ih later.1).mp onward⟩
          · intro along
            obtain ⟨allowed, onward⟩ := along leftNext rfl
            have later := kept _ _ _ _ _ initially leftTaken rightTaken allowed
            exact ⟨later.2, (ih later.1).mpr onward⟩

end System

end Reentrant
