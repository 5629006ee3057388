/-
A part of the state that goes its own way inside the whole.

A program on the whole mirrors one on a part if the two stop in states of which the one is
seen in the other, in the same way, and go on so from all states the environment brings them
back in.  So do the suspended handlers, and a step that they take.
-/

import AsPlatform.Library.Embedding

namespace Reentrant

variable {Whole Part Tagged Request Error Value : Type}

inductive Prog.Mirrors (sees : Whole → Part → Prop) (asks : Tagged → Request → Prop) :
    Prog Whole Tagged Error Value → Prog Part Request Error Value → Prop where
  | ret {whole : Whole} {part : Part} (states : sees whole part) (result : Except Error Value) :
      Mirrors sees asks (.ret whole result) (.ret part result)
  | call {whole : Whole} {part : Part} (states : sees whole part) {tagged : Tagged}
      {request : Request} (asked : asks tagged request)
      {wholeNext : Whole → Except Error Unit → Prog Whole Tagged Error Value}
      {partNext : Part → Except Error Unit → Prog Part Request Error Value}
      (onward : ∀ whole part result, sees whole part →
        Mirrors sees asks (wholeNext whole result) (partNext part result)) :
      Mirrors sees asks (.call whole tagged wholeNext) (.call part request partNext)

variable {sees : Whole → Part → Prop} {asks : Tagged → Request → Prop}

theorem Prog.Alike.mirrors {place : Place Whole Part Request Tagged} {has : Whole → Prop}
    {related : Part → Part → Prop}
    (gets : ∀ whole part, sees whole part → has whole ∧ related (place.get whole) part)
    (puts : ∀ whole left right, has whole → related left right →
      sees (place.put whole left) right)
    (tags : ∀ left right request, related left right → asks (place.tag left request) request)
    {left right : Prog Part Request Error Value} (alike : Prog.Alike related left right)
    {whole : Whole} (inside : has whole) :
    Prog.Mirrors sees asks (left.embed place whole) right := by
  induction alike generalizing whole with
  | ret parts result => exact .ret (puts _ _ _ inside parts) result
  | @call leftPart rightPart parts request leftNext rightNext onward ih =>
      refine .call (puts _ _ _ inside parts) (tags _ _ request parts) ?_
      intro back part result seen
      obtain ⟨still, same⟩ := gets back part seen
      exact ih _ _ result same still

/-! ### Whose calls they are -/

variable {State Label : Type}

def Prog.Asks (asks : Request → Prop) : Prog State Request Error Value → Prop
  | ret _ _ => True
  | call _ request resume => asks request ∧ ∀ back result, (resume back result).Asks asks

theorem Prog.asks_embed {place : Place Whole Part Request Tagged} {asks : Tagged → Prop}
    (tags : ∀ part request, asks (place.tag part request))
    (program : Prog Part Request Error Value) (whole : Whole) :
    (program.embed place whole).Asks asks := by
  induction program generalizing whole with
  | ret part result => trivial
  | call part request resume ih =>
      exact ⟨tags part request, fun back result => ih (place.get back) result back⟩

structure Frame.Asks (asks : Request → Prop) (frame : Frame State Request Error) : Prop where
  request : asks frame.request
  resume : ∀ back result, (frame.resume back result).Asks asks

theorem settle_asks {asks : Request → Prop} (escaped : List Error)
    {program : Prog State Request Error Unit} (programAsks : program.Asks asks)
    {frames : List (Frame State Request Error)} (rest : ∀ frame ∈ frames, frame.Asks asks) :
    ∀ frame ∈ (settle escaped program frames).frames, frame.Asks asks := by
  induction frames generalizing program with
  | nil =>
      cases program with
      | ret state result =>
          cases result <;> exact fun frame member => absurd member List.not_mem_nil
      | call state request resume =>
          exact List.forall_mem_singleton.mpr ⟨programAsks.1, programAsks.2⟩
  | cons frame frames ih =>
      obtain ⟨first, others⟩ := List.forall_mem_cons.mp rest
      cases program with
      | call state request resume =>
          rw [settle_call]
          exact List.forall_mem_cons.mpr ⟨⟨programAsks.1, programAsks.2⟩, rest⟩
      | ret state result =>
          cases result with
          | ok value =>
              rw [settle_ok]
              exact rest
          | error error => exact ih (first.resume state (.error error)) others

/-! ### Configurations -/

structure Frame.Mirrors (sees : Whole → Part → Prop) (asks : Tagged → Request → Prop)
    (whole : Frame Whole Tagged Error) (part : Frame Part Request Error) : Prop where
  asked : asks whole.request part.request
  resume : ∀ state partState result, sees state partState →
    Prog.Mirrors sees asks (whole.resume state result) (part.resume partState result)

structure Config.Mirrors (sees : Whole → Part → Prop) (asks : Tagged → Request → Prop)
    (whole : Config Whole Tagged Error) (part : Config Part Request Error) : Prop where
  state : sees whole.state part.state
  frames : List.Forall₂ (Frame.Mirrors sees asks) whole.frames part.frames

theorem Config.Mirrors.idle {whole : Config Whole Tagged Error} {part : Config Part Request Error}
    (mirrors : Config.Mirrors sees asks whole part) : whole.idle = part.idle := by
  have length := mirrors.frames.length_eq
  unfold Config.idle
  rw [Bool.eq_iff_iff, List.isEmpty_iff_length_eq_zero, List.isEmpty_iff_length_eq_zero, length]

theorem Config.Mirrors.of_mem {whole : Config Whole Tagged Error} {part : Config Part Request Error}
    (mirrors : Config.Mirrors sees asks whole part) {frame : Frame Whole Tagged Error}
    (member : frame ∈ whole.frames) :
    ∃ partFrame, partFrame ∈ part.frames ∧ Frame.Mirrors sees asks frame partFrame := by
  have frames := mirrors.frames
  generalize whole.frames = wholeFrames at frames member
  generalize part.frames = partFrames at frames
  induction frames with
  | nil => cases member
  | @cons first partFirst rest partRest innermost older ih =>
      rcases List.mem_cons.mp member with same | inRest
      · exact ⟨partFirst, List.mem_cons_self, same ▸ innermost⟩
      · obtain ⟨partFrame, inPart, mirrored⟩ := ih inRest
        exact ⟨partFrame, List.mem_cons_of_mem partFirst inPart, mirrored⟩

theorem settle_mirrors (escaped partEscaped : List Error)
    {whole : Prog Whole Tagged Error Unit} {part : Prog Part Request Error Unit}
    (programs : Prog.Mirrors sees asks whole part)
    {wholeFrames : List (Frame Whole Tagged Error)} {partFrames : List (Frame Part Request Error)}
    (frames : List.Forall₂ (Frame.Mirrors sees asks) wholeFrames partFrames) :
    Config.Mirrors sees asks (settle escaped whole wholeFrames)
      (settle partEscaped part partFrames) := by
  induction frames generalizing whole part with
  | nil =>
      cases programs with
      | ret states result => cases result <;> exact ⟨states, .nil⟩
      | call states asked onward => exact ⟨states, .cons ⟨asked, onward⟩ .nil⟩
  | cons first rest ih =>
      cases programs with
      | ret states result =>
          cases result with
          | ok value => exact ⟨states, .cons first rest⟩
          | error error => exact ih (first.resume _ _ (.error error) states)
      | call states asked onward => exact ⟨states, .cons ⟨asked, onward⟩ (.cons first rest)⟩

/-- The innermost call comes back on both sides. -/
theorem mirrors_comeBack {Label PartLabel : Type} {system : System Whole Tagged Error Label}
    (partSystem : System Part Request Error PartLabel) {whole next : Config Whole Tagged Error}
    {part : Config Part Request Error} (mirrors : Config.Mirrors sees asks whole part)
    (taken : system.step whole .comeBack = some next) :
    ∃ partNext, partSystem.step part .comeBack = some partNext ∧
      Config.Mirrors sees asks next partNext := by
  obtain ⟨frame, older, suspended, rfl⟩ := System.step_comeBack.mp taken
  have frames := mirrors.frames
  rw [suspended] at frames
  cases partSuspended : part.frames with
  | nil =>
      rw [partSuspended] at frames
      cases frames
  | cons partFrame partOlder =>
      rw [partSuspended] at frames
      cases frames with
      | cons innermost rest =>
          exact ⟨_, System.step_comeBack.mpr ⟨partFrame, partOlder, partSuspended, rfl⟩,
            settle_mirrors _ _ (innermost.resume _ _ (.ok ()) mirrors.state) rest⟩

end Reentrant
