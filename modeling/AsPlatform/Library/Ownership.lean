/-
Things that are taken and released, and the places that refer to them.

A thing is known by the number of its taking.  It is released through a place that refers
to it, so one that no place refers to any more stays for ever.  Therefore nothing is left
behind exactly as long as no thing is taken for a place that still refers to another one.
-/

import Mathlib.Logic.Function.Basic

namespace Ownership

/-- A place refers to nothing or to a thing that has not been released, and to another one
than the other places do. -/
structure Holdings (Place Thing : Type) where
  things : List Thing
  released : List Nat
  place : Place → Option Nat
  past : ∀ thing, thing ∈ released → thing < things.length
  inside : ∀ slot thing, place slot = some thing → thing < things.length
  unreleased : ∀ slot thing, place slot = some thing → thing ∉ released
  apart : ∀ slot other thing, place slot = some thing → place other = some thing → slot = other

namespace Holdings

variable {Place Thing : Type}

def empty : Holdings Place Thing where
  things := []
  released := []
  place := fun _ => none
  past := nofun
  inside := nofun
  unreleased := nofun
  apart := nofun

def Held (holdings : Holdings Place Thing) (thing : Nat) : Prop :=
  thing < holdings.things.length ∧ thing ∉ holdings.released

instance (holdings : Holdings Place Thing) (thing : Nat) : Decidable (holdings.Held thing) := by
  unfold Held
  infer_instance

/-- The thing is not held without a place that refers to it. -/
def Traced (holdings : Holdings Place Thing) (thing : Nat) : Prop :=
  holdings.Held thing → ∃ slot, holdings.place slot = some thing

def Owned (holdings : Holdings Place Thing) : Prop :=
  ∀ thing, holdings.Traced thing

theorem held_of_place {holdings : Holdings Place Thing} {slot : Place} {thing : Nat}
    (refers : holdings.place slot = some thing) : holdings.Held thing :=
  ⟨holdings.inside slot thing refers, holdings.unreleased slot thing refers⟩

theorem owned_empty : (empty : Holdings Place Thing).Owned :=
  fun thing held => absurd held.1 (Nat.not_lt_zero thing)

theorem traced_iff_of_vacant {holdings : Holdings Place Thing}
    (vacant : ∀ slot, holdings.place slot = none) (thing : Nat) :
    holdings.Traced thing ↔ ¬holdings.Held thing := by
  constructor
  · intro traced held
    obtain ⟨slot, refers⟩ := traced held
    rw [vacant slot] at refers
    cases refers
  · exact fun nothing held => absurd held nothing

structure Released (before after : Holdings Place Thing) : Prop where
  things : after.things = before.things
  held : ∀ index, after.Held index → before.Held index
  place : ∀ slot, after.place slot = before.place slot ∨ after.place slot = none
  traced : ∀ index, after.Traced index ↔ before.Traced index

theorem Released.refl (holdings : Holdings Place Thing) : Released holdings holdings :=
  ⟨rfl, fun _ => id, fun _ => Or.inl rfl, fun _ => Iff.rfl⟩

theorem Released.owned {before after : Holdings Place Thing} (released : Released before after) :
    after.Owned ↔ before.Owned :=
  forall_congr' released.traced

theorem Released.vacant {before after : Holdings Place Thing} (released : Released before after)
    {slot : Place} (vacant : before.place slot = none) : after.place slot = none :=
  (released.place slot).elim (fun same => same.trans vacant) id

def Fits (home : Thing → Place) (holdings : Holdings Place Thing) : Prop :=
  ∀ slot index thing, holdings.place slot = some index →
    holdings.things[index]? = some thing → home thing = slot

theorem fits_empty {home : Thing → Place} : (empty : Holdings Place Thing).Fits home := nofun

theorem Fits.place_of_held {home : Thing → Place} {holdings : Holdings Place Thing}
    (fits : holdings.Fits home) (owned : holdings.Owned) {index : Nat} {thing : Thing}
    (held : holdings.Held index) (isThing : holdings.things[index]? = some thing) :
    holdings.place (home thing) = some index := by
  obtain ⟨slot, refers⟩ := owned index held
  rw [fits slot index thing refers isThing]
  exact refers

theorem Fits.released {home : Thing → Place} {before after : Holdings Place Thing}
    (fits : before.Fits home) (released : Released before after) : after.Fits home := by
  intro slot index thing refers isThing
  rw [released.things] at isThing
  rcases released.place slot with same | vacant
  · rw [same] at refers
    exact fits slot index thing refers isThing
  · rw [vacant] at refers
    cases refers

section Places

variable [DecidableEq Place]

def take (slot : Place) (thing : Thing) (holdings : Holdings Place Thing) :
    Holdings Place Thing where
  things := holdings.things ++ [thing]
  released := holdings.released
  place := Function.update holdings.place slot (some holdings.things.length)
  past other member := by
    have earlier := holdings.past other member
    rw [List.length_append, List.length_singleton]
    omega
  inside other index refers := by
    rw [List.length_append, List.length_singleton]
    by_cases same : other = slot
    · rw [same, Function.update_self, Option.some.injEq] at refers
      omega
    · rw [Function.update_of_ne same] at refers
      have earlier := holdings.inside other index refers
      omega
  unreleased other index refers member := by
    by_cases same : other = slot
    · rw [same, Function.update_self, Option.some.injEq] at refers
      have earlier := holdings.past index member
      omega
    · rw [Function.update_of_ne same] at refers
      exact holdings.unreleased other index refers member
  apart first second index refers refersToo := by
    have older : ∀ other, other ≠ slot →
        Function.update holdings.place slot (some holdings.things.length) other = some index →
          holdings.place other = some index ∧ index < holdings.things.length := by
      intro other different refersOther
      rw [Function.update_of_ne different] at refersOther
      exact ⟨refersOther, holdings.inside other index refersOther⟩
    have newer : Function.update holdings.place slot (some holdings.things.length) slot =
        some index → index = holdings.things.length := by
      intro refersSlot
      rw [Function.update_self, Option.some.injEq] at refersSlot
      exact refersSlot.symm
    by_cases isFirst : first = slot
    · by_cases isSecond : second = slot
      · rw [isFirst, isSecond]
      · rw [isFirst] at refers
        exact absurd (newer refers) (Nat.ne_of_lt (older second isSecond refersToo).2)
    · by_cases isSecond : second = slot
      · rw [isSecond] at refersToo
        exact absurd (newer refersToo) (Nat.ne_of_lt (older first isFirst refers).2)
      · exact holdings.apart first second index (older first isFirst refers).1
          (older second isSecond refersToo).1

def release (slot : Place) (holdings : Holdings Place Thing) : Holdings Place Thing where
  things := holdings.things
  released := holdings.released ++ (holdings.place slot).toList
  place := Function.update holdings.place slot none
  past thing member := by
    rcases List.mem_append.mp member with earlier | now
    · exact holdings.past thing earlier
    · exact holdings.inside slot thing (Option.mem_toList.mp now)
  inside other thing refers := by
    by_cases same : other = slot
    · rw [same, Function.update_self] at refers
      cases refers
    · rw [Function.update_of_ne same] at refers
      exact holdings.inside other thing refers
  unreleased other thing refers member := by
    by_cases same : other = slot
    · rw [same, Function.update_self] at refers
      cases refers
    · rw [Function.update_of_ne same] at refers
      rcases List.mem_append.mp member with earlier | now
      · exact holdings.unreleased other thing refers earlier
      · exact same (holdings.apart other slot thing refers (Option.mem_toList.mp now))
  apart first second thing refers refersToo := by
    by_cases isFirst : first = slot
    · rw [isFirst, Function.update_self] at refers
      cases refers
    · by_cases isSecond : second = slot
      · rw [isSecond, Function.update_self] at refersToo
        cases refersToo
      · rw [Function.update_of_ne isFirst] at refers
        rw [Function.update_of_ne isSecond] at refersToo
        exact holdings.apart first second thing refers refersToo

def replace (slot : Place) (thing : Thing) (holdings : Holdings Place Thing) :
    Holdings Place Thing :=
  (holdings.release slot).take slot thing

variable {holdings : Holdings Place Thing} {slot : Place}

@[simp] theorem things_take (thing : Thing) :
    (holdings.take slot thing).things = holdings.things ++ [thing] := rfl

@[simp] theorem released_take (thing : Thing) :
    (holdings.take slot thing).released = holdings.released := rfl

@[simp] theorem place_take (thing : Thing) :
    (holdings.take slot thing).place =
      Function.update holdings.place slot (some holdings.things.length) := rfl

@[simp] theorem things_release : (holdings.release slot).things = holdings.things := rfl

@[simp] theorem place_release :
    (holdings.release slot).place = Function.update holdings.place slot none := rfl

theorem place_release_of_ne {other : Place} (different : other ≠ slot) :
    (holdings.release slot).place other = holdings.place other := by
  rw [place_release, Function.update_of_ne different]

theorem held_take {thing : Thing} {index : Nat} :
    (holdings.take slot thing).Held index ↔
      holdings.Held index ∨ index = holdings.things.length := by
  unfold Held
  rw [things_take, released_take, List.length_append, List.length_singleton]
  constructor
  · rintro ⟨within, kept⟩
    by_cases newest : index = holdings.things.length
    · exact Or.inr newest
    · exact Or.inl ⟨by omega, kept⟩
  · rintro (⟨within, kept⟩ | rfl)
    · exact ⟨by omega, kept⟩
    · exact ⟨Nat.lt_succ_self _, fun member => Nat.lt_irrefl _ (holdings.past _ member)⟩

theorem held_release {index : Nat} :
    (holdings.release slot).Held index ↔
      holdings.Held index ∧ holdings.place slot ≠ some index := by
  unfold Held release
  rw [List.mem_append, Option.mem_toList, not_or, and_assoc]

theorem fits_take {home : Thing → Place} (thing : Thing) (fits : holdings.Fits home) :
    (holdings.take (home thing) thing).Fits home := by
  intro slot index other refers isOther
  rw [place_take] at refers
  rw [things_take] at isOther
  by_cases same : slot = home thing
  · rw [same, Function.update_self, Option.some.injEq] at refers
    rw [← refers, List.getElem?_concat_length, Option.some.injEq] at isOther
    rw [same, isOther]
  · rw [Function.update_of_ne same] at refers
    rw [List.getElem?_append_left (holdings.inside slot index refers)] at isOther
    exact fits slot index other refers isOther

/-- By taking nothing is left behind but what the place referred to. -/
theorem traced_take {thing : Thing} {index : Nat} :
    (holdings.take slot thing).Traced index ↔
      holdings.Traced index ∧ holdings.place slot ≠ some index := by
  constructor
  · intro traced
    have elsewhere : holdings.Held index →
        ∃ other, other ≠ slot ∧ holdings.place other = some index := by
      intro held
      obtain ⟨other, refers⟩ := traced (held_take.mpr (Or.inl held))
      rw [place_take] at refers
      by_cases same : other = slot
      · rw [same, Function.update_self, Option.some.injEq] at refers
        have within := held.1
        omega
      · rw [Function.update_of_ne same] at refers
        exact ⟨other, same, refers⟩
    refine ⟨fun held => ?_, fun referred => ?_⟩
    · obtain ⟨other, _, refers⟩ := elsewhere held
      exact ⟨other, refers⟩
    · obtain ⟨other, different, refers⟩ := elsewhere (held_of_place referred)
      exact different (holdings.apart other slot index refers referred)
  · rintro ⟨traced, unreferred⟩ held
    rw [place_take]
    rcases held_take.mp held with older | newest
    · obtain ⟨other, refers⟩ := traced older
      have different : other ≠ slot := by
        rintro rfl
        exact unreferred refers
      exact ⟨other, by rw [Function.update_of_ne different, refers]⟩
    · exact ⟨slot, by rw [Function.update_self, newest]⟩

theorem traced_release {index : Nat} :
    (holdings.release slot).Traced index ↔ holdings.Traced index := by
  constructor
  · intro traced held
    by_cases referred : holdings.place slot = some index
    · exact ⟨slot, referred⟩
    · obtain ⟨other, refers⟩ := traced (held_release.mpr ⟨held, referred⟩)
      rw [place_release] at refers
      by_cases same : other = slot
      · rw [same, Function.update_self] at refers
        cases refers
      · rw [Function.update_of_ne same] at refers
        exact ⟨other, refers⟩
  · intro traced held
    obtain ⟨before, unreferred⟩ := held_release.mp held
    obtain ⟨other, refers⟩ := traced before
    refine ⟨other, ?_⟩
    have different : other ≠ slot := by
      rintro rfl
      exact unreferred refers
    rw [place_release, Function.update_of_ne different, refers]

theorem Owned.replace (owned : holdings.Owned) (slot : Place) (thing : Thing) :
    (holdings.replace slot thing).Owned := by
  refine fun index => traced_take.mpr ⟨traced_release.mpr (owned index), ?_⟩
  rw [place_release, Function.update_self]
  exact fun same => Option.some_ne_none index same.symm

theorem Released.release {before after : Holdings Place Thing} (released : Released before after)
    (slot : Place) : Released before (after.release slot) where
  things := released.things
  held index isHeld := released.held index (held_release.mp isHeld).1
  place other := by
    rw [place_release]
    by_cases same : other = slot
    · rw [same, Function.update_self]
      exact Or.inr rfl
    · rw [Function.update_of_ne same]
      exact released.place other
  traced index := traced_release.trans (released.traced index)

end Places

end Holdings

end Ownership
