/-
Handlers of a part of the state, run on the whole.

While a call out of a part is out, the environment may change all of the whole, so the
part is read again when the call comes back.  What is known of the programs of the part
is known of the embedded ones.
-/

import AsPlatform.Library.Keeping
import AsPlatform.Library.Lockstep

namespace Reentrant

variable {Whole Part Request Tagged Error Value PartView View : Type}

/-- Where a part is found in the whole, and how its calls are told apart from those of
other parts. -/
structure Place (Whole Part Request Tagged : Type) where
  get : Whole → Part
  put : Whole → Part → Whole
  tag : Part → Request → Tagged

namespace Prog

def embed (place : Place Whole Part Request Tagged) (whole : Whole) :
    Prog Part Request Error Value → Prog Whole Tagged Error Value
  | ret part result => ret (place.put whole part) result
  | call part request resume =>
      call (place.put whole part) (place.tag part request)
        (fun back result => (resume (place.get back) result).embed place back)

variable (place : Place Whole Part Request Tagged)

@[simp] theorem embed_ret (whole : Whole) (part : Part) (result : Except Error Value) :
    (ret part result : Prog Part Request Error Value).embed place whole =
      ret (place.put whole part) result := rfl

theorem stop_embed (whole : Whole) (program : Prog Part Request Error Value) :
    (program.embed place whole).stop = place.put whole program.stop := by
  cases program <;> rfl

variable {place}

/-- A program that keeps a view of its part keeps the view of the whole that has it.
`raised` puts the view of the part into a view of the whole that has a place for it. -/
theorem Keeps.embed {inner : Part → PartView} {outer : Whole → View}
    {may : Part → Request → Prop} {permitted : View → Tagged → Prop}
    (has : View → Prop) (raised : View → PartView → View) (lowered : View → PartView)
    (puts : ∀ whole part, outer (place.put whole part) = raised (outer whole) (inner part))
    (gets : ∀ whole, inner (place.get whole) = lowered (outer whole))
    (back : ∀ view part, has view → lowered (raised view part) = part)
    (still : ∀ view part, has view → has (raised view part))
    (twice : ∀ view first second, raised (raised view first) second = raised view second)
    (permits : ∀ whole part request, has (outer whole) → may part request →
      permitted (outer (place.put whole part)) (place.tag part request))
    {entry : PartView} {program : Prog Part Request Error Value}
    (keeps : program.Keeps inner may entry) (whole : Whole) (inside : has (outer whole)) :
    (program.embed place whole).Fits outer permitted (raised (outer whole) entry) := by
  induction program generalizing whole with
  | ret part result =>
      change outer (place.put whole part) = raised (outer whole) entry
      rw [puts, show inner part = entry from keeps]
  | call part request resume ih =>
      obtain ⟨allowed, passes, onward⟩ := keeps
      refine ⟨permits whole part request inside allowed, ?_, ?_⟩
      · intro found error
        obtain ⟨last, ends⟩ := passes (place.get found) error
        refine ⟨place.put found last, ?_⟩
        change (resume (place.get found) (.error error)).embed place found =
          .ret (place.put found last) (.error error)
        rw [ends, embed_ret]
      · intro found result same
        rw [puts] at same
        have partSame : inner (place.get found) = inner part := by
          rw [gets, same, back _ _ inside]
        have later := ih (place.get found) result (onward _ result partSame) found (by
          rw [same]
          exact still _ _ inside)
        rw [same, twice] at later
        exact later

/-- A program that spares a view of its part once it has changed it spares the view of the
whole that has it. -/
theorem Spares.embed_entry {inner : Part → PartView} {outer : Whole → View}
    (raised : View → PartView → View)
    (puts : ∀ whole part, outer (place.put whole part) = raised (outer whole) (inner part))
    (unchanged : ∀ whole, raised (outer whole) (inner (place.get whole)) = outer whole)
    {entry : PartView} {program : Prog Part Request Error Value} (whole : Whole)
    (spares : program.Spares inner entry) :
    (program.embed place whole).Spares outer (raised (outer whole) entry) := by
  have reached : ∀ whole part, inner part = entry →
      outer (place.put whole part) = raised (outer whole) entry := by
    intro whole part found
    rw [puts, found]
  induction program generalizing whole entry with
  | ret part result => exact reached whole part spares
  | call part request resume ih =>
      obtain ⟨here, onward⟩ := spares
      refine ⟨reached whole part here, ?_⟩
      intro found result
      have later := ih (place.get found) result found (onward _ result)
        (fun other part same => by rw [puts, same])
      rw [unchanged] at later
      exact later

/-- A program that spares a view of its part spares the view of the whole that has it. -/
theorem Spares.embed {inner : Part → PartView} {outer : Whole → View}
    (raised : View → PartView → View)
    (puts : ∀ whole part, outer (place.put whole part) = raised (outer whole) (inner part))
    (unchanged : ∀ whole, raised (outer whole) (inner (place.get whole)) = outer whole)
    {program : Prog Part Request Error Value} (whole : Whole)
    (spares : program.Spares inner (inner (place.get whole))) :
    (program.embed place whole).Spares outer (outer whole) := by
  have embedded := Spares.embed_entry raised puts unchanged whole spares
  rw [unchanged] at embedded
  exact embedded

/-- Programs that are alike on the part are alike on the whole. -/
theorem Alike.embed {below : Part → Part → Prop} {above : Whole → Whole → Prop}
    (gets : ∀ left right, above left right → below (place.get left) (place.get right))
    (puts : ∀ left right leftPart rightPart, above left right → below leftPart rightPart →
      above (place.put left leftPart) (place.put right rightPart))
    (tags : ∀ leftPart rightPart request, below leftPart rightPart →
      place.tag leftPart request = place.tag rightPart request)
    {left right : Prog Part Request Error Value} (alike : Prog.Alike below left right)
    {leftWhole rightWhole : Whole} (wholes : above leftWhole rightWhole) :
    Prog.Alike above (left.embed place leftWhole) (right.embed place rightWhole) := by
  induction alike generalizing leftWhole rightWhole with
  | ret parts result => exact .ret (puts _ _ _ _ wholes parts) result
  | @call leftPart rightPart parts request leftNext rightNext onward ih =>
      change Prog.Alike above (.call _ (place.tag leftPart request) _)
        (.call _ (place.tag rightPart request) _)
      rw [tags leftPart rightPart request parts]
      refine .call (puts _ _ _ _ wholes parts) _ ?_
      intro leftBack rightBack result backs
      exact ih _ _ result (gets _ _ backs) backs

end Prog

def Handler.within (place : Place Whole Part Request Tagged)
    (body : Handler Part Request Error Value) : Handler Whole Tagged Error Value :=
  fun whole => (body (place.get whole)).embed place whole

end Reentrant
