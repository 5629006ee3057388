/-
Programs whose calls out are answered at once.

Where nothing else can happen while a call is out, what the call comes back with is all
that matters of it.  What is kept is what every call out found the state to be.  The rules
are those of preconditions and postconditions, with one more condition for the calls out
and one for exceptions.
-/

import AsPlatform.Library.Embedding

namespace Reentrant

variable {State Request Error Value Result : Type}

/-- What comes of a program: its calls out, each with the state it was made in, the state
that is left, and how it ended. -/
structure Played (State Request Error Value : Type) where
  calls : List (Request × State)
  state : State
  result : Except Error Value

namespace Prog

/-- `answer` says which calls out raise. -/
def play (answer : Request → Except Error Unit) :
    Prog State Request Error Value → Played State Request Error Value
  | ret state result =>
      { calls := []
        state := state
        result := result }
  | call state request resume =>
      let onward := (resume state (answer request)).play answer
      { onward with calls := (request, state) :: onward.calls }

variable (answer : Request → Except Error Unit)

@[simp] theorem play_ret (state : State) (result : Except Error Value) :
    (ret state result : Prog State Request Error Value).play answer =
      { calls := []
        state := state
        result := result } := rfl

@[simp] theorem play_call (state : State) (request : Request)
    (resume : State → Except Error Unit → Prog State Request Error Value) :
    (call state request resume).play answer =
      { (resume state (answer request)).play answer with
        calls := (request, state) :: ((resume state (answer request)).play answer).calls } := rfl

/-- What comes of a program that another one follows. -/
theorem play_bind (program : Prog State Request Error Value)
    (next : State → Value → Prog State Request Error Result) :
    (program.bind next).play answer =
      match (program.play answer).result with
      | .ok value =>
          let second := (next (program.play answer).state value).play answer
          { second with calls := (program.play answer).calls ++ second.calls }
      | .error error =>
          { calls := (program.play answer).calls
            state := (program.play answer).state
            result := .error error } := by
  induction program with
  | ret state result => cases result <;> rfl
  | call state request resume ih =>
      rw [bind_call, play_call, ih, play_call]
      dsimp only
      cases ((resume state (answer request)).play answer).result <;> rfl

end Prog

/-- A program of a part, whose calls out are told apart by what they ask only, comes on the
whole to what it comes to on the part. -/
theorem Prog.play_embed {Whole Part Tagged : Type} {place : Place Whole Part Request Tagged}
    {tag : Request → Tagged} (tags : ∀ part request, place.tag part request = tag request)
    (gets : ∀ whole part, place.get (place.put whole part) = part)
    (puts : ∀ whole part other, place.put (place.put whole part) other = place.put whole other)
    (answer : Tagged → Except Error Unit) (program : Prog Part Request Error Value)
    (whole : Whole) :
    (program.embed place whole).play answer =
      let played := program.play (fun request => answer (tag request))
      { calls := played.calls.map fun call => (tag call.1, place.put whole call.2)
        state := place.put whole played.state
        result := played.result } := by
  induction program generalizing whole with
  | ret part result => rfl
  | call part request resume ih =>
      change (Prog.call (place.put whole part) (place.tag part request) _).play answer = _
      rw [Prog.play_call, tags, gets, ih, Prog.play_call]
      simp only [puts, List.map_cons]

/-! ### Contracts -/

structure Contract (State Request Error Value : Type) where
  asks : Request → State → Prop
  returns : Value → State → Prop
  raises : Error → State → Prop

structure Played.Meets (played : Played State Request Error Value)
    (contract : Contract State Request Error Value) : Prop where
  asks : ∀ request state, (request, state) ∈ played.calls → contract.asks request state
  returns : ∀ value, played.result = .ok value → contract.returns value played.state
  raises : ∀ error, played.result = .error error → contract.raises error played.state

namespace Handler

variable {answer : Request → Except Error Unit} {before : State → Prop}
  {asks : Request → State → Prop} {raises : Error → State → Prop}

def Meets (answer : Request → Except Error Unit) (before : State → Prop)
    (handler : Handler State Request Error Value)
    (contract : Contract State Request Error Value) : Prop :=
  ∀ state, before state → ((handler state).play answer).Meets contract

theorem meets_play (handler : Handler State Request Error Value) (state : State) :
    Meets answer (Eq state) handler
      ⟨fun request found => (request, found) ∈ ((handler state).play answer).calls,
        fun value found => ((handler state).play answer).result = .ok value ∧
          found = ((handler state).play answer).state,
        fun error found => ((handler state).play answer).result = .error error ∧
          found = ((handler state).play answer).state⟩ := by
  rintro _ rfl
  exact ⟨fun _ _ member => member, fun _ ended => ⟨ended, rfl⟩, fun _ ended => ⟨ended, rfl⟩⟩

theorem meets_pure {value : Value} {returns : Value → State → Prop}
    (keeps : ∀ state, before state → returns value state) :
    Meets answer before (pure value) ⟨asks, returns, raises⟩ := by
  intro state holds
  rw [run_pure, Prog.play_ret]
  refine ⟨fun _ _ member => (List.not_mem_nil member).elim, ?_, nofun⟩
  rintro _ ⟨⟩
  exact keeps state holds

theorem meets_get {returns : State → State → Prop}
    (keeps : ∀ state, before state → returns state state) :
    Meets answer before get ⟨asks, returns, raises⟩ := by
  intro state holds
  rw [run_get, Prog.play_ret]
  refine ⟨fun _ _ member => (List.not_mem_nil member).elim, ?_, nofun⟩
  rintro _ ⟨⟩
  exact keeps state holds

theorem meets_modify {change : State → State} {returns : Unit → State → Prop}
    (changes : ∀ state, before state → returns () (change state)) :
    Meets answer before (modify change) ⟨asks, returns, raises⟩ := by
  intro state holds
  rw [run_modify, Prog.play_ret]
  refine ⟨fun _ _ member => (List.not_mem_nil member).elim, ?_, nofun⟩
  rintro _ ⟨⟩
  exact changes state holds

theorem meets_ofExcept {result : Except Error Value} {returns : Value → State → Prop}
    (good : ∀ value state, before state → result = .ok value → returns value state)
    (bad : ∀ error state, before state → result = .error error → raises error state) :
    Meets answer before (ofExcept result) ⟨asks, returns, raises⟩ := by
  intro state holds
  rw [run_ofExcept, Prog.play_ret]
  exact ⟨fun _ _ member => (List.not_mem_nil member).elim,
    fun value ended => good value state holds ended,
    fun error ended => bad error state holds ended⟩

theorem meets_callOut {request : Request} {returns : Unit → State → Prop}
    (out : ∀ state, before state → asks request state)
    (good : ∀ state, before state → answer request = .ok () → returns () state)
    (bad : ∀ error state, before state → answer request = .error error → raises error state) :
    Meets answer before (callOut request) ⟨asks, returns, raises⟩ := by
  intro state holds
  rw [run_callOut, Prog.play_call, Prog.play_ret]
  refine ⟨?_, fun value ended => good state holds ended,
    fun error ended => bad error state holds ended⟩
  intro other found member
  cases List.mem_singleton.mp member
  exact out state holds

theorem meets_raise {error : Error} {returns : Value → State → Prop}
    (fails : ∀ state, before state → raises error state) :
    Meets answer before (raise error) ⟨asks, returns, raises⟩ := by
  intro state holds
  rw [run_raise, Prog.play_ret]
  refine ⟨fun _ _ member => (List.not_mem_nil member).elim, nofun, ?_⟩
  rintro _ ⟨⟩
  exact fails state holds

theorem meets_bind {first : Handler State Request Error Value}
    {next : Value → Handler State Request Error Result} {returns : Result → State → Prop}
    (middle : Value → State → Prop)
    (firstMeets : Meets answer before first ⟨asks, middle, raises⟩)
    (nextMeets : ∀ value, Meets answer (middle value) (next value) ⟨asks, returns, raises⟩) :
    Meets answer before (first >>= next) ⟨asks, returns, raises⟩ := by
  intro state holds
  have one := firstMeets state holds
  rw [run_bind, Prog.play_bind]
  cases ended : ((first state).play answer).result with
  | error error =>
      refine ⟨one.asks, nofun, ?_⟩
      rintro _ ⟨⟩
      exact one.raises error ended
  | ok value =>
      have two := nextMeets value _ (one.returns value ended)
      refine ⟨?_, two.returns, two.raises⟩
      intro request found member
      rcases List.mem_append.mp member with early | late
      · exact one.asks request found early
      · exact two.asks request found late

theorem Meets.mono {handler : Handler State Request Error Value}
    {contract weaker : Contract State Request Error Value}
    (meets : Meets answer before handler contract)
    (asks : ∀ request state, contract.asks request state → weaker.asks request state)
    (returns : ∀ value state, contract.returns value state → weaker.returns value state)
    (raises : ∀ error state, contract.raises error state → weaker.raises error state) :
    Meets answer before handler weaker := by
  intro state holds
  have met := meets state holds
  exact ⟨fun request found member => asks _ _ (met.asks request found member),
    fun value ended => returns _ _ (met.returns value ended),
    fun error ended => raises _ _ (met.raises error ended)⟩

theorem meets_within {Whole Part Tagged : Type} {place : Place Whole Part Request Tagged}
    (tag : Request → Tagged) (tags : ∀ part request, place.tag part request = tag request)
    (gets : ∀ whole part, place.get (place.put whole part) = part)
    (puts : ∀ whole part other, place.put (place.put whole part) other = place.put whole other)
    {answer : Tagged → Except Error Unit} {body : Handler Part Request Error Value}
    {entered : Part → Prop} {inner : Contract Part Request Error Value}
    {before : Whole → Prop} {outer : Contract Whole Tagged Error Value}
    (meets : Meets (fun request => answer (tag request)) entered body inner)
    (enters : ∀ whole, before whole → entered (place.get whole))
    (asks : ∀ whole request part, before whole → inner.asks request part →
      outer.asks (tag request) (place.put whole part))
    (returns : ∀ whole value part, before whole → inner.returns value part →
      outer.returns value (place.put whole part))
    (raises : ∀ whole error part, before whole → inner.raises error part →
      outer.raises error (place.put whole part)) :
    Meets answer before (within place body) outer := by
  intro whole holds
  have met := meets _ (enters whole holds)
  unfold within
  rw [Prog.play_embed tags gets puts]
  refine ⟨?_, fun value ended => returns whole value _ holds (met.returns value ended),
    fun error ended => raises whole error _ holds (met.raises error ended)⟩
  intro request found member
  obtain ⟨call, called, same⟩ := List.mem_map.mp member
  cases same
  exact asks whole _ _ holds (met.asks _ _ called)

/-- A handler may be looked at in each state by itself. -/
theorem meets_of_entered {handler : Handler State Request Error Value}
    {contract : Contract State Request Error Value}
    (meets : ∀ state, before state → Meets answer (Eq state) handler contract) :
    Meets answer before handler contract :=
  fun state holds => meets state holds state rfl

/-- What holds wherever a handler ends holds of what it leaves. -/
theorem Meets.leaves {handler : Handler State Request Error Value}
    {contract : Contract State Request Error Value} {after : State → Prop}
    (meets : Meets answer before handler contract)
    (returned : ∀ value state, contract.returns value state → after state)
    (raised : ∀ error state, contract.raises error state → after state) {state : State}
    (holds : before state) : after ((handler state).play answer).state := by
  have met := meets state holds
  cases ended : ((handler state).play answer).result with
  | ok value => exact returned value _ (met.returns value ended)
  | error error => exact raised error _ (met.raises error ended)

theorem Meets.left {handler : Handler State Request Error Value} {after : State → Prop}
    (meets : Meets answer before handler ⟨asks, fun _ => after, fun _ => after⟩) {state : State}
    (holds : before state) : after ((handler state).play answer).state :=
  meets.leaves (fun _ _ => id) (fun _ _ => id) holds

end Handler

end Reentrant
