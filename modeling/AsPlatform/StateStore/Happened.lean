/-
Operations of the Redis store that return have happened.

An item is in one place at a time: not yet enqueued, in the queue, with one worker, or
done.  What its worker has exchanged with Redis leads to what is left of its work, and
once it is done nobody works on it any more.  A call that goes on only when its item is
done therefore returns what its own commands came to.
-/

import AsPlatform.StateStore.Worker

namespace AsPlatform

variable {Record Text Error : Type}

/-! ### The property -/

def Moment.exchange? (id : Nat) :
    Moment Record Text Error → Option (RedisExchange Text Error)
  | .asked other exchange _ _ => if other = id then some exchange else none
  | _ => none

def exchangesOf (id : Nat) (log : List (Moment Record Text Error)) :
    List (RedisExchange Text Error) :=
  (log.filterMap (Moment.exchange? id)).reverse

/-- A reply tells what Redis held, and a value that was set is held. -/
def Truthful (before after : Held Text) : RedisExchange Text Error → Prop
  | ⟨.get key, .ok raw⟩ => raw = before key
  | ⟨.set key text, .ok _⟩ => after key = some text
  | _ => True

def CarriedOut (codec : Codec Record Text Error) (value : Record)
    (exchanges : List (RedisExchange Text Error)) : WorkItem Text → Prop
  | .read key => ∃ raw, exchanges = [⟨.get key, .ok raw⟩] ∧
      match raw with
      | some text => codec.loads text = .ok value ∧ value ≠ codec.none
      | none => value = codec.none
  | .write key text => exchanges = [⟨.set key text, .ok ()⟩]
  | .trim pre limit => (work codec (.trim pre limit)).Follows exchanges (.done (.ok value))

/-- The log, the latest moment first: what is done for a call is done between the call and
its return, and a call that returns has been carried out by then. -/
def Happened (codec : Codec Record Text Error) : List (Moment Record Text Error) → Prop
  | [] => True
  | .called _ _ :: earlier => Happened codec earlier
  | .asked id exchange before after :: earlier =>
      (∃ work, .called id work ∈ earlier) ∧ (∀ value, .returned id value ∉ earlier) ∧
        Truthful before after exchange ∧ Happened codec earlier
  | .returned id value :: earlier =>
      (∃ work, .called id work ∈ earlier ∧
        CarriedOut codec value (exchangesOf id earlier) work) ∧ Happened codec earlier
  | .raised _ :: earlier => Happened codec earlier

/-! ### The condition -/

/-- No wait ends by its time bound before the worker is done with the item, and no `get`
finds a text that is read as `None`. -/
def InTime (codec : Codec Record Text Error) (system : StoreSystem Record Text Error) :
    StoreAction Text Error → Prop
  | .timeOut id => ∀ call, system.calls id = some call → call.item.event = true
  | .command worker (.normal _ _) =>
      ∀ id key resume text, system.workers worker = .working id (.ask (.get key) resume) →
        system.client = true → system.held key = some text →
          codec.loads text ≠ .ok codec.none
  | _ => True

/-! ### Exchanges -/

theorem exchangesOf_cons_none {id : Nat} {moment : Moment Record Text Error}
    (silent : moment.exchange? id = none) (log : List (Moment Record Text Error)) :
    exchangesOf id (moment :: log) = exchangesOf id log := by
  rw [exchangesOf, List.filterMap_cons_none silent]
  rfl

theorem exchangesOf_asked (id : Nat) (exchange : RedisExchange Text Error)
    (before after : Held Text) (log : List (Moment Record Text Error)) :
    exchangesOf id (.asked id exchange before after :: log) =
      exchangesOf id log ++ [exchange] := by
  have own : (Moment.asked id exchange before after : Moment Record Text Error).exchange? id =
      some exchange := if_pos rfl
  rw [exchangesOf, List.filterMap_cons_some own, List.reverse_cons]
  rfl

theorem exchangesOf_asked_other {id other : Nat} (different : other ≠ id)
    (exchange : RedisExchange Text Error) (before after : Held Text)
    (log : List (Moment Record Text Error)) :
    exchangesOf id (.asked other exchange before after :: log) = exchangesOf id log := by
  apply exchangesOf_cons_none
  exact if_neg different

/-- A command that is answered tells the truth. -/
theorem truthful_answered (clientGone : Error) (client : Bool) (held : Held Text)
    (command : RedisCommand Text) (answer : Answer Error) :
    Truthful held (command.answered clientGone client held answer).2
      ⟨command, (command.answered clientGone client held answer).1⟩ := by
  unfold RedisCommand.answered
  cases client with
  | false => cases command <;> trivial
  | true =>
      cases answer with
      | failed error applied => cases command <;> trivial
      | normal scanned idle =>
          cases command with
          | get key => rfl
          | set key value => exact Function.update_self _ _ _
          | scanIter pattern => trivial
          | objectIdletime key => trivial
          | delete key => trivial

/-! ### The invariant -/

structure Item.Fresh (codec : Codec Record Text Error) (item : Item Record Text Error) :
    Prop where
  event : item.event = false
  result : item.result = codec.none
  error : item.error = none

def Item.Settled (codec : Codec Record Text Error) (item : Item Record Text Error)
    (exchanges : List (RedisExchange Text Error)) : Prop :=
  ∃ outcome, (AsPlatform.work codec item.work).Follows exchanges (.done outcome) ∧
    (∀ value, outcome = .ok value → item.result = value) ∧
    (∀ error, outcome = .error error → item.error = some error)

def WorkerPhase.Holds (id : Nat) : WorkerPhase Record Text Error → Prop
  | .working other _ => other = id
  | .finishing other => other = id
  | _ => False

structure CallSound (codec : Codec Record Text Error) (log : List (Moment Record Text Error))
    (id : Nat) (call : StoreCall Record Text Error) : Prop where
  called : .called id call.item.work ∈ log
  created : call.phase = .created → call.item.Fresh codec ∧ exchangesOf id log = []
  done : call.item.event = true → call.item.Settled codec (exchangesOf id log)
  passed : call.phase ≠ .created → call.phase ≠ .waiting → call.item.event = true
  checked : call.phase = .checked → call.item.error = none
  returned : ∀ value, .returned id value ∈ log → call.phase = .returned

/-- The item of the call is with a worker, and this is what the worker knows of it. -/
def With (calls : Nat → Option (StoreCall Record Text Error)) (id : Nat)
    (known : Item Record Text Error → Prop) : Prop :=
  ∃ call, calls id = some call ∧ call.phase ≠ .created ∧ known call.item

structure Sound (codec : Codec Record Text Error) (queue : List Nat)
    (calls : Nat → Option (StoreCall Record Text Error))
    (workers : Nat → WorkerPhase Record Text Error) (log : List (Moment Record Text Error)) :
    Prop where
  call : ∀ id call, calls id = some call → CallSound codec log id call
  unknown : ∀ id, calls id = none →
    exchangesOf id log = [] ∧ ∀ value, .returned id value ∉ log
  queued : ∀ id, id ∈ queue →
    With calls id (fun item => item.Fresh codec ∧ exchangesOf id log = []) ∧
      ∀ worker, ¬(workers worker).Holds id
  distinct : queue.Nodup
  single : ∀ first second id, (workers first).Holds id → (workers second).Holds id →
    first = second
  working : ∀ worker id rest, workers worker = .working id rest →
    With calls id (fun item => item.Fresh codec ∧
      (work codec item.work).Follows (exchangesOf id log) rest)
  finishing : ∀ worker id, workers worker = .finishing id →
    With calls id (fun item => item.event = false ∧
      item.Settled codec (exchangesOf id log))
  happened : Happened codec log

variable {codec : Codec Record Text Error} {queue : List Nat}
  {calls : Nat → Option (StoreCall Record Text Error)}
  {workers : Nat → WorkerPhase Record Text Error} {log : List (Moment Record Text Error)}

theorem Sound.held_not_done (sound : Sound codec queue calls workers log) {worker id : Nat}
    (holds : (workers worker).Holds id) :
    ∃ call, calls id = some call ∧ call.phase ≠ .created ∧ call.item.event = false := by
  cases phase : workers worker with
  | working other rest =>
      rw [phase] at holds
      cases holds
      obtain ⟨call, isCall, sent, fresh, _⟩ := sound.working worker id rest phase
      exact ⟨call, isCall, sent, fresh.event⟩
  | finishing other =>
      rw [phase] at holds
      cases holds
      obtain ⟨call, isCall, sent, unset, _⟩ := sound.finishing worker id phase
      exact ⟨call, isCall, sent, unset⟩
  | _ =>
      rw [phase] at holds
      cases holds

/-! ### One worker, or one call, changes -/

theorem holds_update {worker other id : Nat} {phase : WorkerPhase Record Text Error}
    (holds : (Function.update workers worker phase other).Holds id) :
    (other = worker ∧ phase.Holds id) ∨ (other ≠ worker ∧ (workers other).Holds id) := by
  by_cases same : other = worker
  · rw [same, Function.update_self] at holds
    exact Or.inl ⟨same, holds⟩
  · rw [Function.update_of_ne same] at holds
    exact Or.inr ⟨same, holds⟩

theorem call_update {id other : Nat} {changed found : StoreCall Record Text Error}
    (isFound : Function.update calls id (some changed) other = some found) :
    (other = id ∧ found = changed) ∨ calls other = some found := by
  by_cases same : other = id
  · rw [same, Function.update_self] at isFound
    exact Or.inl ⟨same, (Option.some.inj isFound).symm⟩
  · rw [Function.update_of_ne same] at isFound
    exact Or.inr isFound

theorem absent_update {id other : Nat} {changed : StoreCall Record Text Error}
    (absent : Function.update calls id (some changed) other = none) : calls other = none := by
  by_cases same : other = id
  · rw [same, Function.update_self] at absent
    cases absent
  · rwa [Function.update_of_ne same] at absent

/-! ### Steps of a worker that has no item -/

theorem Sound.idle (sound : Sound codec queue calls workers log) {worker : Nat}
    {phase : WorkerPhase Record Text Error}
    (released : ∀ id, ¬phase.Holds id) :
    Sound codec queue calls (Function.update workers worker phase) log := by
  have held : ∀ {other id : Nat}, (Function.update workers worker phase other).Holds id →
      (workers other).Holds id := by
    intro other id holds
    rcases holds_update holds with ⟨_, taken⟩ | ⟨_, before⟩
    · exact absurd taken (released id)
    · exact before
  have kept : ∀ {other : Nat} {next : WorkerPhase Record Text Error} (id : Nat), next.Holds id →
      Function.update workers worker phase other = next → workers other = next := by
    intro other next id holds isNext
    by_cases same : other = worker
    · rw [same, Function.update_self] at isNext
      rw [← isNext] at holds
      exact absurd holds (released id)
    · rwa [Function.update_of_ne same] at isNext
  refine ⟨sound.call, sound.unknown, ?_, sound.distinct, ?_, ?_, ?_, sound.happened⟩
  · intro id member
    obtain ⟨known, free⟩ := sound.queued id member
    exact ⟨known, fun other holds => free other (held holds)⟩
  · intro first second id firstHolds secondHolds
    exact sound.single first second id (held firstHolds) (held secondHolds)
  · intro other id rest isWorking
    exact sound.working other id rest (kept id rfl isWorking)
  · intro other id isFinishing
    exact sound.finishing other id (kept id rfl isFinishing)

/-! ### Steps of a call -/

theorem With.of_other {id other : Nat} {known : Item Record Text Error → Prop}
    (there : With calls other known) (different : other ≠ id)
    (changed : StoreCall Record Text Error) :
    With (Function.update calls id (some changed)) other known := by
  obtain ⟨call, isCall, sent, knows⟩ := there
  exact ⟨call, by rw [Function.update_of_ne different]; exact isCall, sent, knows⟩

theorem With.of_phase {id other : Nat} {known : Item Record Text Error → Prop}
    (there : With calls other known) {call : StoreCall Record Text Error}
    (isCall : calls id = some call) {phase : CallPhase} (sent : phase ≠ .created) :
    With (Function.update calls id (some { call with phase := phase })) other known := by
  by_cases same : other = id
  · obtain ⟨found, isFound, _, knows⟩ := there
    rw [same, isCall] at isFound
    cases isFound
    rw [same]
    exact ⟨{ call with phase := phase }, Function.update_self _ _ _, sent, knows⟩
  · exact there.of_other same _

theorem Sound.phase (sound : Sound codec queue calls workers log) {id : Nat}
    {call : StoreCall Record Text Error} (isCall : calls id = some call) {phase : CallPhase}
    (sent : phase ≠ .created) (changed : CallSound codec log id { call with phase := phase }) :
    Sound codec queue (Function.update calls id (some { call with phase := phase })) workers
      log := by
  refine ⟨?_, ?_, ?_, sound.distinct, sound.single, ?_, ?_, sound.happened⟩
  · intro other found isFound
    rcases call_update isFound with ⟨rfl, rfl⟩ | before
    · exact changed
    · exact sound.call other found before
  · intro other absent
    exact sound.unknown other (absent_update absent)
  · intro other member
    obtain ⟨known, free⟩ := sound.queued other member
    exact ⟨known.of_phase isCall sent, free⟩
  · intro worker other rest isWorking
    exact (sound.working worker other rest isWorking).of_phase isCall sent
  · intro worker other isFinishing
    exact (sound.finishing worker other isFinishing).of_phase isCall sent

/-- The caller goes on to a later phase, past its wait only if its item is done, and past
its check only if the item has no error. -/
theorem Sound.advance (sound : Sound codec queue calls workers log) {id : Nat}
    {call : StoreCall Record Text Error} (isCall : calls id = some call)
    (active : call.phase ≠ .returned) {phase : CallPhase} (sent : phase ≠ .created)
    (event : phase ≠ .waiting → call.item.event = true)
    (checked : phase = .checked → call.item.error = none) :
    Sound codec queue (Function.update calls id (some { call with phase := phase })) workers
      log := by
  have known := sound.call id call isCall
  apply sound.phase isCall sent
  refine ⟨known.called, ?_, known.done, fun _ => event, checked, ?_⟩
  · intro created
    exact absurd created sent
  · intro value member
    exact absurd (known.returned value member) active

theorem Sound.note (sound : Sound codec queue calls workers log)
    {moment : Moment Record Text Error} (silent : ∀ id, moment.exchange? id = none)
    (returns : ∀ id value, moment = .returned id value →
      ∃ call, calls id = some call ∧ call.phase = .returned)
    (happened : Happened codec (moment :: log)) :
    Sound codec queue calls workers (moment :: log) := by
  have same := fun id => exchangesOf_cons_none (silent id) log
  refine ⟨?_, ?_, ?_, sound.distinct, sound.single, ?_, ?_, happened⟩
  · intro id call isCall
    have known := sound.call id call isCall
    refine ⟨List.mem_cons_of_mem _ known.called, ?_, ?_, known.passed, known.checked, ?_⟩
    · rw [same]
      exact known.created
    · rw [same]
      exact known.done
    · intro value member
      rcases List.mem_cons.mp member with latest | earlier
      · obtain ⟨found, isFound, isReturned⟩ := returns id value latest.symm
        rw [isCall] at isFound
        cases isFound
        exact isReturned
      · exact known.returned value earlier
  · intro id absent
    obtain ⟨noExchange, noReturn⟩ := sound.unknown id absent
    rw [same]
    refine ⟨noExchange, ?_⟩
    intro value member
    rcases List.mem_cons.mp member with latest | earlier
    · obtain ⟨found, isFound, _⟩ := returns id value latest.symm
      rw [absent] at isFound
      cases isFound
    · exact noReturn value earlier
  · intro id member
    rw [same]
    exact sound.queued id member
  · intro worker id rest isWorking
    rw [same]
    exact sound.working worker id rest isWorking
  · intro worker id isFinishing
    rw [same]
    exact sound.finishing worker id isFinishing

theorem Sound.admit (sound : Sound codec queue calls workers log) {id : Nat}
    {work : WorkItem Text} (absent : calls id = none) (called : .called id work ∈ log) :
    Sound codec queue
      (Function.update calls id
        (some { item := { work := work, result := codec.none }, phase := .created }))
      workers log := by
  have known : ∀ {other : Nat} {knows : Item Record Text Error → Prop},
      With calls other knows → other ≠ id := by
    rintro other knows ⟨call, isCall, _⟩ same
    rw [same, absent] at isCall
    cases isCall
  obtain ⟨noExchange, noReturn⟩ := sound.unknown id absent
  refine ⟨?_, ?_, ?_, sound.distinct, sound.single, ?_, ?_, sound.happened⟩
  · intro other found isFound
    rcases call_update isFound with ⟨rfl, rfl⟩ | before
    · refine ⟨called, fun _ => ⟨⟨rfl, rfl, rfl⟩, noExchange⟩, ?_, ?_, ?_, ?_⟩
      · intro impossible
        cases impossible
      · intro impossible
        exact absurd rfl impossible
      · intro impossible
        cases impossible
      · intro value member
        exact absurd member (noReturn value)
    · exact sound.call other found before
  · intro other stillAbsent
    exact sound.unknown other (absent_update stillAbsent)
  · intro other member
    obtain ⟨there, free⟩ := sound.queued other member
    exact ⟨there.of_other (known there) _, free⟩
  · intro worker other rest isWorking
    have there := sound.working worker other rest isWorking
    exact there.of_other (known there) _
  · intro worker other isFinishing
    have there := sound.finishing worker other isFinishing
    exact there.of_other (known there) _

/-- A call enqueues its item, which is nowhere else. -/
theorem Sound.put (sound : Sound codec queue calls workers log) {id : Nat}
    {call : StoreCall Record Text Error} (isCall : calls id = some call)
    (created : call.phase = .created) :
    Sound codec (queue ++ [id])
      (Function.update calls id (some { call with phase := .waiting })) workers log := by
  have known := sound.call id call isCall
  obtain ⟨fresh, noExchange⟩ := known.created created
  have sent : CallPhase.waiting ≠ .created := by decide
  have elsewhere : ∀ knows : Item Record Text Error → Prop, ¬With calls id knows := by
    rintro knows ⟨found, isFound, notCreated, _⟩
    rw [isCall] at isFound
    cases isFound
    exact notCreated created
  have changed : Sound codec queue
      (Function.update calls id (some { call with phase := .waiting })) workers log :=
    sound.advance isCall (by rw [created]; decide) sent (fun away => absurd rfl away)
      (fun impossible => by cases impossible)
  refine ⟨changed.call, changed.unknown, ?_, ?_, changed.single, changed.working,
    changed.finishing, changed.happened⟩
  · intro other member
    rcases List.mem_append.mp member with earlier | last
    · exact changed.queued other earlier
    · rw [List.mem_singleton.mp last]
      refine ⟨⟨_, Function.update_self _ _ _, sent, fresh, noExchange⟩, ?_⟩
      intro worker holds
      obtain ⟨found, isFound, notCreated, _⟩ := sound.held_not_done holds
      exact elsewhere (fun _ => True) ⟨found, isFound, notCreated, trivial⟩
  · rw [List.nodup_append]
    refine ⟨sound.distinct, List.nodup_singleton id, ?_⟩
    intro other member last isLast same
    rw [List.mem_singleton.mp isLast] at same
    rw [same] at member
    exact elsewhere _ (sound.queued id member).1

/-! ### Steps of a worker with its item -/

theorem Sound.not_queued (sound : Sound codec queue calls workers log) {worker id : Nat}
    (holds : (workers worker).Holds id) : ∀ other, other ∈ queue → other ≠ id := by
  intro other member same
  rw [same] at member
  exact (sound.queued id member).2 worker holds

/-- No two workers hold one item. -/
theorem Sound.apart (sound : Sound codec queue calls workers log) {worker other id any : Nat}
    (holds : (workers worker).Holds id) (different : other ≠ worker)
    (holdsAny : (workers other).Holds any) : any ≠ id := by
  intro isId
  rw [isId] at holdsAny
  exact different (sound.single other worker id holdsAny holds)

theorem Sound.not_returned (sound : Sound codec queue calls workers log) {worker id : Nat}
    (holds : (workers worker).Holds id) : ∀ value, .returned id value ∉ log := by
  intro value member
  obtain ⟨call, isCall, sent, unset⟩ := sound.held_not_done holds
  have known := sound.call id call isCall
  have isReturned : call.phase = .returned := known.returned value member
  have event : call.item.event = true := known.passed sent (by rw [isReturned]; decide)
  rw [unset] at event
  cases event

theorem Sound.take {id : Nat} (sound : Sound codec (id :: queue) calls workers log)
    {worker : Nat} {call : StoreCall Record Text Error} (isCall : calls id = some call) :
    Sound codec queue calls
      (Function.update workers worker (.working id (work codec call.item.work))) log := by
  obtain ⟨⟨found, isFound, sent, fresh, noExchange⟩, free⟩ := sound.queued id List.mem_cons_self
  rw [isCall] at isFound
  cases isFound
  obtain ⟨notLater, distinct⟩ := List.nodup_cons.mp sound.distinct
  refine ⟨sound.call, sound.unknown, ?_, distinct, ?_, ?_, ?_, sound.happened⟩
  · intro other member
    obtain ⟨known, otherFree⟩ := sound.queued other (List.mem_cons_of_mem _ member)
    refine ⟨known, ?_⟩
    intro any holds
    rcases holds_update holds with ⟨_, isId⟩ | ⟨_, before⟩
    · cases isId
      exact notLater member
    · exact otherFree any before
  · intro first second any firstHolds secondHolds
    rcases holds_update firstHolds with ⟨isFirst, isId⟩ | ⟨_, firstBefore⟩
    · rcases holds_update secondHolds with ⟨isSecond, _⟩ | ⟨_, secondBefore⟩
      · rw [isFirst, isSecond]
      · cases isId
        exact absurd secondBefore (free second)
    · rcases holds_update secondHolds with ⟨_, isId⟩ | ⟨_, secondBefore⟩
      · cases isId
        exact absurd firstBefore (free first)
      · exact sound.single first second any firstBefore secondBefore
  · intro other any rest isWorking
    by_cases same : other = worker
    · rw [same, Function.update_self] at isWorking
      cases isWorking
      refine ⟨call, isCall, sent, fresh, ?_⟩
      rw [noExchange]
      exact Asking.Follows.here _
    · rw [Function.update_of_ne same] at isWorking
      exact sound.working other any rest isWorking
  · intro other any isFinishing
    by_cases same : other = worker
    · rw [same, Function.update_self] at isFinishing
      cases isFinishing
    · rw [Function.update_of_ne same] at isFinishing
      exact sound.finishing other any isFinishing

theorem returned_of_asked_cons {id other : Nat} {value : Record}
    {exchange : RedisExchange Text Error} {before after : Held Text}
    (member : .returned id value ∈ Moment.asked other exchange before after :: log) :
    .returned id value ∈ log := by
  rcases List.mem_cons.mp member with impossible | earlier
  · cases impossible
  · exact earlier

theorem CallSound.asked {id other : Nat} {call : StoreCall Record Text Error}
    (known : CallSound codec log id call) (different : other ≠ id)
    (exchange : RedisExchange Text Error) (before after : Held Text) :
    CallSound codec (.asked other exchange before after :: log) id call := by
  have same := exchangesOf_asked_other different exchange before after log
  refine ⟨List.mem_cons_of_mem _ known.called, ?_, ?_, known.passed, known.checked, ?_⟩
  · rw [same]
    exact known.created
  · rw [same]
    exact known.done
  · intro value member
    exact known.returned value (returned_of_asked_cons member)

theorem Sound.command (sound : Sound codec queue calls workers log) {worker id : Nat}
    {command : RedisCommand Text}
    {resume : Except Error command.Reply → RedisProgram Text Error Record}
    (isWorking : workers worker = .working id (.ask command resume))
    (reply : Except Error command.Reply) {before after : Held Text}
    (truthful : Truthful before after ⟨command, reply⟩) :
    Sound codec queue calls (Function.update workers worker (.working id (resume reply)))
      (.asked id ⟨command, reply⟩ before after :: log) := by
  have holds : (workers worker).Holds id := by
    rw [isWorking]
    rfl
  obtain ⟨call, isCall, sent, fresh, follows⟩ := sound.working worker id _ isWorking
  have known := sound.call id call isCall
  have noReturn := sound.not_returned holds
  have others : ∀ {other : Nat}, other ≠ id →
      exchangesOf other (.asked id ⟨command, reply⟩ before after :: log) =
        exchangesOf other log :=
    fun different => exchangesOf_asked_other (Ne.symm different) _ _ _ _
  have held : ∀ {other any : Nat},
      (Function.update workers worker (.working id (resume reply)) other).Holds any →
        (workers other).Holds any := by
    intro other any after
    rcases holds_update after with ⟨same, isId⟩ | ⟨_, still⟩
    · cases isId
      rw [same]
      exact holds
    · exact still
  refine ⟨?_, ?_, ?_, sound.distinct, ?_, ?_, ?_, ?_⟩
  · intro other found isFound
    by_cases same : other = id
    · rw [same, isCall] at isFound
      cases isFound
      rw [same]
      refine ⟨List.mem_cons_of_mem _ known.called, ?_, ?_, known.passed, known.checked, ?_⟩
      · intro created
        exact absurd created sent
      · intro event
        rw [fresh.event] at event
        cases event
      · intro value member
        exact absurd (returned_of_asked_cons member) (noReturn value)
    · exact (sound.call other found isFound).asked (Ne.symm same) _ _ _
  · intro other absent
    have different : other ≠ id := by
      intro same
      rw [same, isCall] at absent
      cases absent
    obtain ⟨noExchange, neverReturned⟩ := sound.unknown other absent
    rw [others different]
    exact ⟨noExchange, fun value member => neverReturned value (returned_of_asked_cons member)⟩
  · intro other member
    rw [others (sound.not_queued holds other member)]
    obtain ⟨there, free⟩ := sound.queued other member
    exact ⟨there, fun any stillHolds => free any (held stillHolds)⟩
  · intro first second any firstHolds secondHolds
    exact sound.single first second any (held firstHolds) (held secondHolds)
  · intro other any rest isWorkingOther
    by_cases same : other = worker
    · rw [same, Function.update_self] at isWorkingOther
      cases isWorkingOther
      refine ⟨call, isCall, sent, fresh, ?_⟩
      rw [exchangesOf_asked]
      exact follows.snoc reply
    · rw [Function.update_of_ne same] at isWorkingOther
      rw [others (sound.apart holds same (by rw [isWorkingOther]; rfl))]
      exact sound.working other any rest isWorkingOther
  · intro other any isFinishing
    by_cases same : other = worker
    · rw [same, Function.update_self] at isFinishing
      cases isFinishing
    · rw [Function.update_of_ne same] at isFinishing
      rw [others (sound.apart holds same (by rw [isFinishing]; rfl))]
      exact sound.finishing other any isFinishing
  · exact ⟨⟨_, known.called⟩, noReturn, truthful, sound.happened⟩

/-- A worker changes the item it holds, and keeps or releases it. -/
theorem Sound.turn (sound : Sound codec queue calls workers log) {worker id : Nat}
    (holds : (workers worker).Holds id) {call : StoreCall Record Text Error}
    {item : Item Record Text Error}
    (changed : CallSound codec log id { call with item := item })
    {next : WorkerPhase Record Text Error} (notWorking : ∀ any rest, next ≠ .working any rest)
    (finishing : ∀ any, next = .finishing any → any = id ∧ call.phase ≠ .created ∧
      item.event = false ∧ item.Settled codec (exchangesOf id log)) :
    Sound codec queue (Function.update calls id (some { call with item := item }))
      (Function.update workers worker next) log := by
  have held : ∀ {other any : Nat}, (Function.update workers worker next other).Holds any →
      (workers other).Holds any := by
    intro other any after
    rcases holds_update after with ⟨same, holdsNext⟩ | ⟨_, still⟩
    · rw [same]
      cases isNext : next with
      | working known rest => exact absurd isNext (notWorking known rest)
      | finishing known =>
          rw [isNext] at holdsNext
          cases holdsNext
          rw [(finishing any isNext).1]
          exact holds
      | _ =>
          rw [isNext] at holdsNext
          cases holdsNext
    · exact still
  refine ⟨?_, ?_, ?_, sound.distinct, ?_, ?_, ?_, sound.happened⟩
  · intro other found isFound
    rcases call_update isFound with ⟨rfl, rfl⟩ | before
    · exact changed
    · exact sound.call other found before
  · intro other absent
    exact sound.unknown other (absent_update absent)
  · intro other member
    obtain ⟨there, free⟩ := sound.queued other member
    exact ⟨there.of_other (sound.not_queued holds other member) _,
      fun any after => free any (held after)⟩
  · intro first second any firstHolds secondHolds
    exact sound.single first second any (held firstHolds) (held secondHolds)
  · intro other any rest isWorking
    by_cases same : other = worker
    · rw [same, Function.update_self] at isWorking
      exact absurd isWorking (notWorking any rest)
    · rw [Function.update_of_ne same] at isWorking
      refine (sound.working other any rest isWorking).of_other (sound.apart holds same ?_) _
      rw [isWorking]
      rfl
  · intro other any isFinishing
    by_cases same : other = worker
    · rw [same, Function.update_self] at isFinishing
      obtain ⟨isId, sent, knows⟩ := finishing any isFinishing
      rw [isId]
      exact ⟨_, Function.update_self _ _ _, sent, knows⟩
    · rw [Function.update_of_ne same] at isFinishing
      refine (sound.finishing other any isFinishing).of_other (sound.apart holds same ?_) _
      rw [isFinishing]
      rfl

theorem settle_work (item : Item Record Text Error) (outcome : Except Error Record) :
    (StoreSystem.settle item outcome).work = item.work ∧
      (StoreSystem.settle item outcome).event = item.event := by
  cases outcome <;> exact ⟨rfl, rfl⟩

theorem Sound.conclude (sound : Sound codec queue calls workers log) {worker id : Nat}
    {outcome : Except Error Record} (isWorking : workers worker = .working id (.done outcome))
    {call : StoreCall Record Text Error} (isCall : calls id = some call) :
    Sound codec queue
      (Function.update calls id
        (some { call with item := StoreSystem.settle call.item outcome }))
      (Function.update workers worker (.finishing id)) log := by
  obtain ⟨found, isFound, sent, fresh, follows⟩ := sound.working worker id _ isWorking
  rw [isCall] at isFound
  cases isFound
  have known := sound.call id call isCall
  obtain ⟨sameWork, sameEvent⟩ := settle_work call.item outcome
  have unset : (StoreSystem.settle call.item outcome).event = false := sameEvent.trans fresh.event
  have notYet : call.item.event ≠ true := by
    rw [fresh.event]
    exact Bool.false_ne_true
  apply sound.turn (by rw [isWorking]; rfl)
  · refine ⟨?_, ?_, ?_, ?_, ?_, known.returned⟩
    · rw [sameWork]
      exact known.called
    · intro created
      exact absurd created sent
    · intro event
      rw [unset] at event
      cases event
    · intro first second
      exact absurd (known.passed first second) notYet
    · intro checked
      refine absurd (known.passed sent ?_) notYet
      intro waiting
      have impossible := checked.symm.trans waiting
      cases impossible
  · intro any rest impossible
    cases impossible
  · intro any isAny
    cases isAny
    refine ⟨rfl, sent, unset, outcome, ?_, ?_, ?_⟩
    · rw [sameWork]
      exact follows
    · intro value isValue
      rw [isValue]
      rfl
    · intro error isError
      rw [isError]
      rfl

theorem Sound.done (sound : Sound codec queue calls workers log) {worker id : Nat}
    (isFinishing : workers worker = .finishing id)
    {call : StoreCall Record Text Error} (isCall : calls id = some call) :
    Sound codec queue
      (Function.update calls id (some { call with item := { call.item with event := true } }))
      (Function.update workers worker .testing) log := by
  obtain ⟨found, isFound, sent, _, settled⟩ := sound.finishing worker id isFinishing
  rw [isCall] at isFound
  cases isFound
  have known := sound.call id call isCall
  apply sound.turn (by rw [isFinishing]; rfl)
  · refine ⟨known.called, ?_, fun _ => settled, fun _ _ => rfl, known.checked, known.returned⟩
    intro created
    exact absurd created sent
  · intro any rest impossible
    cases impossible
  · intro any impossible
    cases impossible

/-! ### What a call returns -/

def NoNull (codec : Codec Record Text Error) (log : List (Moment Record Text Error)) : Prop :=
  ∀ id key text before after, .asked id ⟨.get key, .ok (some text)⟩ before after ∈ log →
    codec.loads text ≠ .ok codec.none

theorem NoNull.note (noNull : NoNull codec log) {moment : Moment Record Text Error}
    (silent : ∀ id, moment.exchange? id = none) : NoNull codec (moment :: log) := by
  intro id key text before after member
  rcases List.mem_cons.mp member with latest | earlier
  · have impossible := silent id
    rw [← latest, Moment.exchange?, if_pos rfl] at impossible
    cases impossible
  · exact noNull id key text before after earlier

theorem asked_of_mem_exchangesOf {id : Nat} {exchange : RedisExchange Text Error}
    (member : exchange ∈ exchangesOf id log) :
    ∃ before after, .asked id exchange before after ∈ log := by
  rw [exchangesOf, List.mem_reverse, List.mem_filterMap] at member
  obtain ⟨moment, inside, isExchange⟩ := member
  cases moment with
  | asked other found before after =>
      change (if other = id then some found else none) = some exchange at isExchange
      split at isExchange
      · rename_i same
        cases isExchange
        exact ⟨before, after, by rw [← same]; exact inside⟩
      · cases isExchange
  | called other work => cases isExchange
  | returned other value => cases isExchange
  | raised other => cases isExchange

/-- Work that has come to a value has been carried out. -/
theorem carriedOut_of_follows {value : Record} {item : WorkItem Text}
    {exchanges : List (RedisExchange Text Error)}
    (follows : (work codec item).Follows exchanges (.done (.ok value)))
    (noNull : ∀ key text, (⟨.get key, .ok (some text)⟩ : RedisExchange Text Error) ∈ exchanges →
      codec.loads text ≠ .ok codec.none) : CarriedOut codec value exchanges item := by
  cases item with
  | read key =>
      generalize isWork : work codec (.read key) = program at follows
      cases follows with
      | here => cases isWork
      | exchange reply onward =>
          cases isWork
          cases reply with
          | error error => cases onward
          | ok raw =>
              cases raw with
              | none =>
                  cases onward
                  exact ⟨none, rfl, rfl⟩
              | some text =>
                  change Asking.Follows (.done (codec.loads text)) _ _ at onward
                  cases isLoaded : codec.loads text with
                  | error error =>
                      rw [isLoaded] at onward
                      cases onward
                  | ok loaded =>
                      rw [isLoaded] at onward
                      cases onward
                      refine ⟨some text, rfl, isLoaded, ?_⟩
                      intro isNone
                      exact noNull key text List.mem_cons_self (isNone ▸ isLoaded)
  | write key text =>
      generalize isWork : work codec (.write key text) = program at follows
      cases follows with
      | here => cases isWork
      | exchange reply onward =>
          cases isWork
          cases reply with
          | error error => cases onward
          | ok done =>
              cases onward
              rfl
  | trim pre limit => exact follows

/-- A call whose item is done and has no error takes the result. -/
theorem Sound.takeResult (sound : Sound codec queue calls workers log)
    (noNull : NoNull codec log) {id : Nat} {call : StoreCall Record Text Error}
    (isCall : calls id = some call) (checked : call.phase = .checked) :
    Sound codec queue (Function.update calls id (some { call with phase := .returned })) workers
      (.returned id call.item.result :: log) := by
  have known := sound.call id call isCall
  have event : call.item.event = true :=
    known.passed (by rw [checked]; decide) (by rw [checked]; decide)
  have carried : CarriedOut codec call.item.result (exchangesOf id log) call.item.work := by
    obtain ⟨outcome, follows, isValue, isError⟩ := known.done event
    cases outcome with
    | error error =>
        have impossible := (known.checked checked).symm.trans (isError error rfl)
        cases impossible
    | ok value =>
        rw [isValue value rfl]
        refine carriedOut_of_follows follows ?_
        intro key text member
        obtain ⟨before, after, asked⟩ := asked_of_mem_exchangesOf member
        exact noNull id key text before after asked
  have moved : Sound codec queue
      (Function.update calls id (some { call with phase := .returned })) workers log :=
    sound.advance isCall (by rw [checked]; decide) (by decide) (fun _ => event)
      (fun impossible => by cases impossible)
  refine moved.note (fun _ => rfl) ?_ ?_
  · intro other value same
    cases same
    exact ⟨_, Function.update_self _ _ _, rfl⟩
  · exact ⟨⟨_, known.called, carried⟩, sound.happened⟩

/-! ### Every step -/

namespace StoreSystem

variable (codec) (clientGone : Error)

def Good (system : StoreSystem Record Text Error) : Prop :=
  Sound codec system.queue system.calls system.workers system.log ∧ NoNull codec system.log

variable {codec clientGone} {system next : StoreSystem Record Text Error}

theorem good_callStep (good : Good codec system) {id : Nat}
    {call : StoreCall Record Text Error} (isCall : system.calls id = some call)
    {action : StoreAction Text Error}
    (inTime : ∀ other, action = .timeOut other → call.item.event = true)
    (taken : system.callStep id call action = some next) : Good codec next := by
  obtain ⟨sound, noNull⟩ := good
  -- the caller goes on after its wait, and the item is done
  have woken : call.phase = .waiting → call.item.event = true →
      Good codec (system.setCall id { call with phase := .woken }) := by
    intro waiting event
    refine ⟨sound.advance isCall ?_ (by decide) (fun _ => event) ?_, noNull⟩
    · rw [waiting]
      decide
    · intro impossible
      cases impossible
  cases action with
  | put other =>
      obtain ⟨created, same⟩ := Option.ite_none_right_eq_some.mp taken
      cases same
      exact ⟨sound.put isCall created, noNull⟩
  | wake other =>
      obtain ⟨⟨waiting, event⟩, same⟩ := Option.ite_none_right_eq_some.mp taken
      cases same
      exact woken waiting event
  | timeOut other =>
      obtain ⟨waiting, same⟩ := Option.ite_none_right_eq_some.mp taken
      cases same
      exact woken waiting (inTime other rfl)
  | checkError other =>
      obtain ⟨isWoken, onward⟩ := Option.ite_none_right_eq_some.mp taken
      have event : call.item.event = true :=
        (sound.call id call isCall).passed (by rw [isWoken]; decide) (by rw [isWoken]; decide)
      have active : call.phase ≠ .returned := by
        rw [isWoken]
        decide
      cases isError : call.item.error with
      | some error =>
          rw [isError] at onward
          cases onward
          have raised : Sound codec system.queue
              (Function.update system.calls id (some { call with phase := .raised }))
              system.workers system.log :=
            sound.advance isCall active (by decide) (fun _ => event)
              (fun impossible => by cases impossible)
          refine ⟨raised.note (fun _ => rfl) ?_ sound.happened, noNull.note (fun _ => rfl)⟩
          intro _ _ impossible
          cases impossible
      | none =>
          rw [isError] at onward
          cases onward
          exact ⟨sound.advance isCall active (by decide) (fun _ => event) (fun _ => isError),
            noNull⟩
  | takeResult other =>
      obtain ⟨checked, same⟩ := Option.ite_none_right_eq_some.mp taken
      cases same
      exact ⟨sound.takeResult noNull isCall checked, noNull.note (fun _ => rfl)⟩
  | _ => cases taken

theorem noNull_command (noNull : NoNull codec system.log) {worker id : Nat}
    {command : RedisCommand Text}
    {resume : Except Error command.Reply → RedisProgram Text Error Record}
    (isWorking : system.workers worker = .working id (.ask command resume))
    {answer : Answer Error} (inTime : InTime codec system (.command worker answer)) :
    NoNull codec
      (.asked id
        ⟨command, (command.answered clientGone system.client system.held answer).1⟩
        system.held (command.answered clientGone system.client system.held answer).2 ::
          system.log) := by
  intro any key text before after member
  rcases List.mem_cons.mp member with latest | earlier
  · cases command with
    | get found =>
        cases isClient : system.client with
        | false =>
            rw [isClient] at latest
            cases latest
        | true =>
            cases answer with
            | failed error applied =>
                rw [isClient] at latest
                cases latest
            | normal scanned idle =>
                rw [isClient] at latest
                have isHeld : some text = system.held found := by
                  have same := latest
                  injection same with _ sameExchange
                  injection sameExchange with sameCommand sameReply
                  cases sameCommand
                  exact Except.ok.inj sameReply
                exact inTime id found resume text isWorking isClient isHeld.symm
    | _ => cases latest
  · exact noNull any key text before after earlier

theorem not_holds_ite {condition : Prop} [Decidable condition]
    {first second : WorkerPhase Record Text Error} (ofFirst : ∀ id, ¬first.Holds id)
    (ofSecond : ∀ id, ¬second.Holds id) (id : Nat) :
    ¬(if condition then first else second).Holds id := by
  split
  · exact ofFirst id
  · exact ofSecond id

theorem good_workerStep (good : Good codec system) {worker : Nat}
    {phase : WorkerPhase Record Text Error} (isPhase : system.workers worker = phase)
    {action : StoreAction Text Error}
    (inTime : ∀ answer, action = .command worker answer → InTime codec system action)
    (same : ∀ other answer, action = .command other answer → other = worker)
    (taken : system.workerStep codec clientGone worker phase action = some next) :
    Good codec next := by
  obtain ⟨sound, noNull⟩ := good
  unfold workerStep at taken
  split at taken
  · cases taken
    exact ⟨sound.idle (fun _ => id), noNull⟩
  · cases taken
    exact ⟨sound.idle (not_holds_ite (fun _ => id) (fun _ => id)), noNull⟩
  · cases taken
    exact ⟨sound.idle (not_holds_ite (fun _ => id) (fun _ => id)), noNull⟩
  · cases taken
    exact ⟨sound.idle (not_holds_ite (fun _ => id) (fun _ => id)), noNull⟩
  · obtain ⟨_, isNext⟩ := Option.ite_none_right_eq_some.mp taken
    cases isNext
    exact ⟨sound.idle (fun _ => id), noNull⟩
  · cases isQueue : system.queue with
    | nil =>
        rw [isQueue] at taken
        cases taken
    | cons id queue =>
        rw [isQueue] at taken sound
        obtain ⟨call, isCall, isNext⟩ := Option.map_eq_some_iff.mp taken
        cases isNext
        exact ⟨sound.take isCall, noNull⟩
  · rename_i id command resume other answer
    cases same other answer rfl
    cases taken
    exact ⟨sound.command isPhase _ (truthful_answered _ _ _ _ _),
      noNull_command noNull isPhase (inTime answer rfl)⟩
  · obtain ⟨call, isCall, isNext⟩ := Option.map_eq_some_iff.mp taken
    cases isNext
    exact ⟨sound.conclude isPhase isCall, noNull⟩
  · obtain ⟨call, isCall, isNext⟩ := Option.map_eq_some_iff.mp taken
    cases isNext
    exact ⟨sound.done isPhase isCall, noNull⟩
  · cases taken

theorem good_step (good : Good codec system) {action : StoreAction Text Error}
    (inTime : InTime codec system action)
    (taken : system.step codec clientGone action = some next) : Good codec next := by
  have worked : ∀ worker, (∀ other answer, action ≠ .command other answer) →
      system.workerStep codec clientGone worker (system.workers worker) action = some next →
        Good codec next := by
    intro worker silent taken
    exact good_workerStep good rfl (fun answer same => absurd same (silent worker answer))
      (fun other answer same => absurd same (silent other answer)) taken
  have called : ∀ id, (∀ other, action = .timeOut other → other = id) →
      ((system.calls id).bind fun call => system.callStep id call action) = some next →
        Good codec next := by
    intro id own taken
    obtain ⟨call, isCall, moved⟩ := Option.bind_eq_some_iff.mp taken
    refine good_callStep good isCall ?_ moved
    intro other isTimeOut
    cases own other isTimeOut
    subst isTimeOut
    exact inTime call isCall
  cases action with
  | call id work =>
      obtain ⟨absent, isNext⟩ := Option.ite_none_right_eq_some.mp taken
      cases isNext
      obtain ⟨sound, noNull⟩ := good
      refine ⟨?_, noNull.note (fun _ => rfl)⟩
      have noted : Sound codec system.queue system.calls system.workers
          (.called id work :: system.log) :=
        sound.note (fun _ => rfl) (fun _ _ impossible => by cases impossible) sound.happened
      exact noted.admit (Option.isNone_iff_eq_none.mp absent) List.mem_cons_self
  | connect =>
      cases taken
      exact good
  | setRunning =>
      cases taken
      exact good
  | clearRunning =>
      cases taken
      exact good
  | dropClient =>
      cases taken
      exact good
  | others held =>
      cases taken
      exact good
  | put id => exact called id (fun _ impossible => by cases impossible) taken
  | wake id => exact called id (fun _ impossible => by cases impossible) taken
  | checkError id => exact called id (fun _ impossible => by cases impossible) taken
  | takeResult id => exact called id (fun _ impossible => by cases impossible) taken
  | timeOut id => exact called id (fun _ isTimeOut => by cases isTimeOut; rfl) taken
  | command worker answer =>
      exact good_workerStep good rfl (fun _ _ => inTime)
        (fun _ _ isCommand => by cases isCommand; rfl) taken
  | spawn worker =>
      exact worked worker (fun _ _ impossible => by cases impossible) taken
  | begin worker =>
      exact worked worker (fun _ _ impossible => by cases impossible) taken
  | testRunning worker =>
      exact worked worker (fun _ _ impossible => by cases impossible) taken
  | testEmpty worker =>
      exact worked worker (fun _ _ impossible => by cases impossible) taken
  | take worker =>
      exact worked worker (fun _ _ impossible => by cases impossible) taken
  | takeNothing worker =>
      exact worked worker (fun _ _ impossible => by cases impossible) taken
  | conclude worker =>
      exact worked worker (fun _ _ impossible => by cases impossible) taken
  | done worker =>
      exact worked worker (fun _ _ impossible => by cases impossible) taken

theorem good_initial (held : Held Text) :
    Good codec ({ held := held } : StoreSystem Record Text Error) := by
  refine ⟨⟨?_, fun _ _ => ⟨rfl, fun _ => List.not_mem_nil⟩, ?_, List.nodup_nil, ?_, ?_, ?_,
    trivial⟩, ?_⟩
  · intro id call impossible
    cases impossible
  · intro id member
    cases member
  · intro first second id impossible
    cases impossible
  · intro worker id rest impossible
    cases impossible
  · intro worker id impossible
    cases impossible
  · intro id key text before after member
    cases member

end StoreSystem

/-- In every run in which no wait ends before the worker is done with the item, and no
`get` finds a text that is read as `None`, what returned has happened. -/
theorem happened_of_inTime (codec : Codec Record Text Error) (clientGone : Error)
    (held : Held Text) (actions : List (StoreAction Text Error))
    (last : StoreSystem Record Text Error)
    (inTime : Transition.Along (StoreSystem.step codec clientGone)
      (fun system action _ => InTime codec system action) { held := held } actions)
    (ran : Transition.run (StoreSystem.step codec clientGone) { held := held } actions =
      some last) : Happened codec last.log :=
  (Transition.invariant_of_along (StoreSystem.Good codec)
    (fun _ _ _ good allowed taken => StoreSystem.good_step good allowed taken)
    (StoreSystem.good_initial held) inTime ran).1.happened

/-! ### Runs -/

/-- Records that are their own text; the text of `None` is 0. -/
def plainCodec : Codec Nat Nat PyError :=
  { none := 0
    dumps := .ok
    loads := .ok }

def earlyWrite : List (StoreAction Nat PyError) :=
  [.call 0 (.write "k" 7), .put 0, .connect, .setRunning, .spawn 0, .begin 0, .testRunning 0,
    .take 0, .command 0 (.normal [] none), .conclude 0, .done 0, .wake 0, .checkError 0,
    .takeResult 0]

theorem happened_of_inTime_earlyWrite :
    ∃ last, Transition.run (StoreSystem.step plainCodec .assertionError)
        { held := fun _ => none } earlyWrite = some last ∧
      last.log.length = 3 ∧ Happened plainCodec last.log := by
  refine ⟨_, rfl, rfl, happened_of_inTime plainCodec .assertionError _ earlyWrite _ ?_ rfl⟩
  repeat (refine fun next stepped => ?_; cases stepped; refine ⟨trivial, ?_⟩)
  refine fun next stepped => ?_
  cases stepped
  constructor
  · intro id key resume text isWorking
    cases isWorking
  · repeat (refine fun next stepped => ?_; cases stepped; refine ⟨trivial, ?_⟩)
    trivial

/-- A read that is called before the store is started gives up after its time bound, and
returns `None` for a key that holds a value. -/
def hastyRead : List (StoreAction Nat PyError) :=
  [.call 0 (.read "k"), .put 0, .timeOut 0, .checkError 0, .takeResult 0]

theorem not_happened :
    ∃ last, Transition.run (StoreSystem.step plainCodec .assertionError)
        { held := fun _ => some 7 } hastyRead = some last ∧
      .returned 0 0 ∈ last.log ∧ ¬Happened plainCodec last.log := by
  refine ⟨_, rfl, List.mem_cons_self, ?_⟩
  rintro ⟨⟨work, called, carried⟩, _⟩
  rcases List.mem_cons.mp called with isRead | impossible
  · cases isRead
    obtain ⟨raw, none, _⟩ := carried
    cases none
  · cases impossible

end AsPlatform
