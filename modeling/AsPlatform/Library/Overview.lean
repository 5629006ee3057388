/-
What is seen of the whole while its parts are at work.

An outlook on the parts gives one on the whole.  A handler of a part does to the view of the
whole what it does to the view of its part, and what is left of it when it is suspended is
what is left of it for that part, whichever parts the other suspended handlers belong to.
-/

import AsPlatform.Library.Embedding
import AsPlatform.Library.Outline

namespace Reentrant

variable {Whole Part Request Tagged Error Index PartView Total Rest : Type}

inductive Ending.Tags (tags : Request → Tagged → Prop) (index : Index) :
    Ending Request Rest → Ending Tagged (Index × Rest) → Prop where
  | returned : Tags tags index .returned .returned
  | raised : Tags tags index .raised .raised
  | called (request : Request) (tagged : Tagged) (rest : Rest) (same : tags request tagged) :
      Tags tags index (.called request rest) (.called tagged (index, rest))

structure Overview (place : Index → Place Whole Part Request Tagged)
    (inner : Part → PartView) (Total : Type) where
  view : Whole → Total
  part : Index → Total → PartView
  put : Index → Total → PartView → Total
  gets : ∀ index whole, inner ((place index).get whole) = part index (view whole)
  puts : ∀ index whole part,
    view ((place index).put whole part) = put index (view whole) (inner part)
  unchanged : ∀ index total, put index total (part index total) = total

namespace Overview

variable {place : Index → Place Whole Part Request Tagged} {inner : Outlook Part PartView Rest}

def outlook (overview : Overview place inner.view Total) :
    Outlook Whole Total (Index × Rest) where
  view := overview.view
  after rest total :=
    overview.put rest.1 total (inner.after rest.2 (overview.part rest.1 total))

theorem rests (overview : Overview place inner.view Total) {request : Request} {rest : Rest}
    {frame : Frame Part Request Error} (partRests : inner.Rests request rest frame)
    (index : Index) (tagged : Tagged) :
    overview.outlook.Rests tagged (index, rest)
      { request := tagged
        resume := fun back result =>
          (frame.resume ((place index).get back) result).embed (place index) back } where
  request := rfl
  finishes := by
    constructor
    · intro whole
      obtain ⟨last, resumed, viewed⟩ := partRests.finishes.returns ((place index).get whole)
      refine ⟨(place index).put whole last, ?_, ?_⟩
      · change (frame.resume ((place index).get whole) (.ok ())).embed (place index) whole = _
        rw [resumed, Prog.embed_ret]
      · change overview.view _ = overview.put index (overview.view whole)
          (inner.after rest (overview.part index (overview.view whole)))
        rw [overview.puts, viewed, overview.gets]
    · intro whole error
      obtain ⟨last, resumed, viewed⟩ := partRests.finishes.raises ((place index).get whole) error
      refine ⟨(place index).put whole last, ?_, ?_⟩
      · change (frame.resume ((place index).get whole) (.error error)).embed (place index) whole = _
        rw [resumed, Prog.embed_ret]
      · change overview.view _ = overview.view whole
        rw [overview.puts, viewed, overview.gets, overview.unchanged]

theorem outcome (overview : Overview place inner.view Total) (tags : Request → Tagged → Prop)
    (tagged : ∀ index part request, tags request ((place index).tag part request))
    {program : Prog Part Request Error Unit} {view : PartView} {ending : Ending Request Rest}
    (reached : inner.Outcome program view ending) (index : Index) (whole : Whole) :
    ∃ wholeEnding, Ending.Tags tags index ending wholeEnding ∧
      overview.outlook.Outcome (program.embed (place index) whole)
        (overview.put index (overview.view whole) view) wholeEnding := by
  have viewed : overview.view (program.embed (place index) whole).stop =
      overview.put index (overview.view whole) view := by
    rw [Prog.stop_embed, overview.puts, reached.view]
  have ends := reached.ends
  cases program with
  | ret state result =>
      cases ending with
      | called request rest => cases result <;> exact ends.elim
      | returned =>
          cases result with
          | ok value => exact ⟨.returned, .returned, viewed, trivial⟩
          | error error => exact ends.elim
      | raised =>
          cases result with
          | ok value => exact ends.elim
          | error error => exact ⟨.raised, .raised, viewed, trivial⟩
  | call state request resume =>
      cases ending with
      | returned => exact ends.elim
      | raised => exact ends.elim
      | called expected rest =>
          have same : request = expected := ends.request
          refine ⟨.called ((place index).tag state request) (index, rest),
            .called expected _ rest (same ▸ tagged index state request), viewed, ?_⟩
          exact overview.rests ends index ((place index).tag state request)

end Overview

end Reentrant
