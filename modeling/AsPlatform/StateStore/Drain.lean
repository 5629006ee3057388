/-
The worker loop of the Redis store, whatever fails.

A worker goes on by itself, whatever its client answers: it works off what it holds and
what is in the queue, and leaves its loop only when it finds `_running` cleared and the
queue empty.
-/

import AsPlatform.StateStore.Tended

namespace AsPlatform

variable {Record Text Error : Type}

/-! ### The property -/

/-- The items are taken in the order in which they were put, nobody puts an item twice, a
worker is done once with each item it took, but for the one it holds, and an item that is
done has its own result or its own error. -/
structure StoreSystem.Served (codec : Codec Record Text Error) (seen : List QueueEvent)
    (system : StoreSystem Record Text Error) : Prop where
  fifo : puts seen = (takes seen).map Prod.snd ++ system.queue
  distinct : (puts seen).Nodup
  turns : ∀ worker, ofWorker worker (takes seen) =
    ofWorker worker (dones seen) ++ (system.workers worker).held.toList
  once : ((dones seen).map Prod.snd).Nodup
  own : ∀ worker id, (worker, id) ∈ dones seen → ∃ call, system.calls id = some call ∧
    call.item.event = true ∧ call.item.Own codec (exchangesOf id system.log)

/-- In a step an item is changed only by the worker that holds it, and a worker leaves its
loop only when it found `_running` cleared and finds the queue empty; or it has not come
to its loop, for want of a client. -/
structure StoreSystem.Orderly (system : StoreSystem Record Text Error)
    (action : StoreAction Text Error) (next : StoreSystem Record Text Error) : Prop where
  items : ∀ id call, system.calls id = some call → ∃ after, next.calls id = some after ∧
    (after.item = call.item ∨
      ∃ worker, action.worker? = some worker ∧ (system.workers worker).held = some id)
  leaves : ∀ worker, next.workers worker = .exited → system.workers worker = .exited ∨
    (system.workers worker = .starting ∧ system.client = false) ∨
    (system.workers worker = .draining ∧ system.queue = [])
  drains : ∀ worker, next.workers worker = .draining → system.workers worker = .draining ∨
    system.running = false

def StoreAction.OwnedBy (worker : Nat) (choose : StoreSystem Record Text Error → Answer Error)
    (system : StoreSystem Record Text Error) (action : StoreAction Text Error) : Prop :=
  action.worker? = some worker ∧
    ∀ answer, action = .command worker answer → answer = choose system

def StoreSystem.WorksOff (codec : Codec Record Text Error) (clientGone : Error) (worker : Nat)
    (choose : StoreSystem Record Text Error → Answer Error)
    (system : StoreSystem Record Text Error) (items : List Nat)
    (last : StoreSystem Record Text Error) : Prop :=
  ∃ actions, Transition.run (StoreSystem.step codec clientGone) system actions = some last ∧
    Transition.Along (StoreSystem.step codec clientGone)
      (fun state action _ => action.OwnedBy worker choose state) system actions ∧
    dones (Transition.observed (StoreSystem.step codec clientGone) StoreSystem.observe system
      actions) = items.map fun id => (worker, id)

def WorkerPhase.InLoop : WorkerPhase Record Text Error → Prop
  | .absent => False
  | .starting => False
  | .exited => False
  | _ => True

namespace StoreSystem

variable {codec : Codec Record Text Error} {clientGone : Error} {seen : List QueueEvent}
  {system next last : StoreSystem Record Text Error} {action : StoreAction Text Error}

/-! ### Every step is orderly -/

theorem orderly_of_calls {worker : Nat} {phase : WorkerPhase Record Text Error}
    (isWorkers : next.workers = Function.update system.workers worker phase)
    (notExited : phase ≠ .exited) (notDraining : phase ≠ .draining)
    (items : ∀ id call, system.calls id = some call → ∃ after, next.calls id = some after ∧
      (after.item = call.item ∨
        ∃ worker, action.worker? = some worker ∧ (system.workers worker).held = some id)) :
    system.Orderly action next := by
  refine ⟨items, ?_, ?_⟩
  · intro other isExited
    rw [isWorkers] at isExited
    by_cases same : other = worker
    · rw [same, Function.update_self] at isExited
      exact absurd isExited notExited
    · rw [Function.update_of_ne same] at isExited
      exact Or.inl isExited
  · intro other isDraining
    rw [isWorkers] at isDraining
    by_cases same : other = worker
    · rw [same, Function.update_self] at isDraining
      exact absurd isDraining notDraining
    · rw [Function.update_of_ne same] at isDraining
      exact Or.inl isDraining

/-- A call is changed, and its item is not, or by the worker that holds it. -/
theorem items_update {id : Nat} {call changed : StoreCall Record Text Error}
    (isCall : system.calls id = some call)
    (isNext : next.calls = Function.update system.calls id (some changed))
    (item : changed.item = call.item ∨
      ∃ worker, action.worker? = some worker ∧ (system.workers worker).held = some id) :
    ∀ other found, system.calls other = some found → ∃ after, next.calls other = some after ∧
      (after.item = found.item ∨
        ∃ worker, action.worker? = some worker ∧ (system.workers worker).held = some other) := by
  intro other found isFound
  rw [isNext]
  by_cases same : other = id
  · rw [same, isCall] at isFound
    cases isFound
    rw [same, Function.update_self]
    exact ⟨changed, rfl, item⟩
  · rw [Function.update_of_ne same]
    exact ⟨found, isFound, Or.inl rfl⟩

theorem orderly_does (does : system.Does codec clientGone action next) :
    system.Orderly action next := by
  have untouched : ∀ id call, system.calls id = some call →
      ∃ after, system.calls id = some after ∧ (after.item = call.item ∨
        ∃ worker, action.worker? = some worker ∧ (system.workers worker).held = some id) := by
    intro id call isCall
    exact ⟨call, isCall, Or.inl rfl⟩
  cases does with
  | @calls id work absent =>
      refine ⟨?_, fun _ => Or.inl, fun _ => Or.inl⟩
      intro other call isCall
      have different : other ≠ id := by
        intro same
        rw [same, absent] at isCall
        cases isCall
      exact ⟨call, (Function.update_of_ne different _ _).trans isCall, Or.inl rfl⟩
  | @puts id call isCall created =>
      exact ⟨items_update isCall rfl (Or.inl rfl), fun _ => Or.inl, fun _ => Or.inl⟩
  | @goesOn action id call phase moments unseen isCall sent stillSent silent =>
      exact ⟨items_update isCall rfl (Or.inl rfl), fun _ => Or.inl, fun _ => Or.inl⟩
  | outside client running held unseen =>
      exact ⟨untouched, fun _ => Or.inl, fun _ => Or.inl⟩
  | @idles action worker phase unseen idle =>
      refine ⟨untouched, ?_, ?_⟩
      · intro other isExited
        by_cases same : other = worker
        · rw [same, workers_setWorker_self] at isExited
          rw [same]
          exact Or.inr (idle.exited isExited)
        · rw [system.workers_setWorker_other same] at isExited
          exact Or.inl isExited
      · intro other isDraining
        by_cases same : other = worker
        · rw [same, workers_setWorker_self] at isDraining
          exact Or.inr (idle.draining isDraining)
        · rw [system.workers_setWorker_other same] at isDraining
          exact Or.inl isDraining
  | takes isGetting isQueue isCall =>
      exact orderly_of_calls rfl nofun nofun untouched
  | asks isWorking => exact orderly_of_calls rfl nofun nofun untouched
  | concludes isWorking isCall =>
      exact orderly_of_calls rfl nofun nofun
        (items_update isCall rfl (Or.inr ⟨_, rfl, held_of_working isWorking⟩))
  | finishes isFinishing isCall =>
      exact orderly_of_calls rfl nofun nofun
        (items_update isCall rfl (Or.inr ⟨_, rfl, held_of_finishing isFinishing⟩))

/-! ### A worker by itself -/

variable {worker : Nat} {choose : StoreSystem Record Text Error → Answer Error}

theorem WorksOff.here : system.WorksOff codec clientGone worker choose [] system :=
  ⟨[], rfl, trivial, rfl⟩

theorem WorksOff.trans {first second : List Nat}
    (before : system.WorksOff codec clientGone worker choose first next)
    (after : next.WorksOff codec clientGone worker choose second last) :
    system.WorksOff codec clientGone worker choose (first ++ second) last := by
  obtain ⟨actions, ran, owned, isDone⟩ := before
  obtain ⟨more, ranOn, ownedOn, isDoneOn⟩ := after
  refine ⟨actions ++ more, ?_, Transition.along_append ran owned ownedOn, ?_⟩
  · rw [Transition.run_append ran, ranOn]
  · rw [Transition.observed_append ran, dones_append, isDone, isDoneOn, List.map_append]

theorem WorksOff.step (action : StoreAction Text Error) (own : action.worker? = some worker)
    (chosen : ∀ answer, action = .command worker answer → answer = choose system)
    (taken : system.step codec clientGone action = some next) {items : List Nat}
    (isDone : dones (system.observe action).toList = items.map fun id => (worker, id)) :
    system.WorksOff codec clientGone worker choose items next := by
  refine ⟨[action], ?_, ?_, ?_⟩
  · rw [Transition.run, taken]
    rfl
  · intro other stepped
    exact ⟨⟨own, chosen⟩, trivial⟩
  · rw [Transition.observed, taken]
    refine Eq.trans ?_ isDone
    exact congrArg dones (List.append_nil _)

theorem WorksOff.tended {items : List Nat}
    (works : system.WorksOff codec clientGone worker choose items next)
    (before : Tended codec seen system) : ∃ history, Tended codec history next := by
  obtain ⟨actions, ran, _, _⟩ := works
  exact ⟨_, Transition.invariant_of_observed (Tended codec)
    (fun _ _ _ _ tended taken => tended_does tended (does_step taken)) before ran⟩

theorem call_of_working (tended : Tended codec seen system) {id : Nat}
    {rest : RedisProgram Text Error Record}
    (isWorking : system.workers worker = .working id rest) :
    ∃ call, system.calls id = some call := by
  obtain ⟨item, isKnown, _⟩ := tended.working worker id rest isWorking
  obtain ⟨call, isCall, _⟩ := Option.map_eq_some_iff.mp isKnown
  exact ⟨call, isCall⟩

theorem call_of_finishing (tended : Tended codec seen system) {id : Nat}
    (isFinishing : system.workers worker = .finishing id) :
    ∃ call, system.calls id = some call := by
  obtain ⟨item, isKnown, _⟩ := tended.finishing worker id isFinishing
  obtain ⟨call, isCall, _⟩ := Option.map_eq_some_iff.mp isKnown
  exact ⟨call, isCall⟩

theorem call_of_queue (tended : Tended codec seen system) {id : Nat} {rest : List Nat}
    (isQueue : system.queue = id :: rest) : ∃ call, system.calls id = some call := by
  have put : id ∈ puts seen := by
    rw [tended.fifo, isQueue]
    exact List.mem_append_right _ List.mem_cons_self
  obtain ⟨item, isKnown⟩ := (tended.sent id).mp put
  obtain ⟨call, isCall, _⟩ := Option.map_eq_some_iff.mp isKnown
  exact ⟨call, isCall⟩

structure BackAt (system : StoreSystem Record Text Error) (worker : Nat) (queue : List Nat)
    (next : StoreSystem Record Text Error) : Prop where
  phase : next.workers worker = .testing
  queue : next.queue = queue
  running : next.running = system.running

theorem worksOff_finishing (tended : Tended codec seen system) {id : Nat}
    (isFinishing : system.workers worker = .finishing id) :
    ∃ next, system.WorksOff codec clientGone worker choose [id] next ∧
      system.BackAt worker system.queue next := by
  obtain ⟨call, isCall⟩ := call_of_finishing tended isFinishing
  have taken : system.step codec clientGone (.done worker) =
      some ((system.setCall id { call with item := { call.item with event := true } }).setWorker
        worker .testing) := by
    rw [StoreSystem.step, isFinishing, workerStep, isCall]
    rfl
  refine ⟨_, WorksOff.step (.done worker) rfl nofun taken ?_, workers_setWorker_self _ _ _, rfl,
    rfl⟩
  rw [observe, isFinishing]
  rfl

/-- Whatever the client answers, the work comes to an end, and the item is done.  The
induction is on what is left of the work. -/
theorem worksOff_working (program : RedisProgram Text Error Record) {id : Nat} :
    ∀ {seen : List QueueEvent} {system : StoreSystem Record Text Error},
      Tended codec seen system → system.workers worker = .working id program →
      ∃ next, system.WorksOff codec clientGone worker choose [id] next ∧
        system.BackAt worker system.queue next := by
  induction program with
  | done outcome =>
      intro seen system tended isWorking
      obtain ⟨call, isCall⟩ := call_of_working tended isWorking
      have concluded : system.step codec clientGone (.conclude worker) =
          some ((system.setCall id { call with item := settle call.item outcome }).setWorker worker
            (.finishing id)) := by
        rw [StoreSystem.step, isWorking, workerStep, isCall]
        rfl
      have first : system.WorksOff codec clientGone worker choose [] _ :=
        WorksOff.step (.conclude worker) rfl nofun concluded rfl
      obtain ⟨history, still⟩ := first.tended tended
      obtain ⟨next, second, back⟩ := worksOff_finishing still (workers_setWorker_self _ _ _)
      exact ⟨next, first.trans second, back.phase, back.queue, back.running⟩
  | ask command resume ih =>
      intro seen system tended isWorking
      have asked : system.step codec clientGone (.command worker (choose system)) =
          system.workerStep codec clientGone worker (.working id (.ask command resume))
            (.command worker (choose system)) := by
        rw [StoreSystem.step, isWorking]
      have first : system.WorksOff codec clientGone worker choose [] _ :=
        WorksOff.step (.command worker (choose system)) rfl
          (fun _ same => by cases same; rfl) (asked.trans rfl) rfl
      obtain ⟨history, still⟩ := first.tended tended
      obtain ⟨next, second, back⟩ := ih _ still (workers_setWorker_self _ _ _)
      exact ⟨next, first.trans second, back.phase, back.queue, back.running⟩

theorem worksOff_getting (tended : Tended codec seen system) {id : Nat} {queue : List Nat}
    (isGetting : system.workers worker = .getting) (isQueue : system.queue = id :: queue) :
    ∃ next, system.WorksOff codec clientGone worker choose [id] next ∧
      system.BackAt worker queue next := by
  obtain ⟨call, isCall⟩ := call_of_queue tended isQueue
  have taken : system.step codec clientGone (.take worker) =
      some { system.setWorker worker (.working id (work codec call.item.work)) with
        queue := queue } := by
    rw [StoreSystem.step, isGetting, workerStep, isQueue]
    simp only [isCall, Option.map_some]
  have first : system.WorksOff codec clientGone worker choose [] _ :=
    WorksOff.step (.take worker) rfl nofun taken (by rw [observe, isQueue]; rfl)
  obtain ⟨history, still⟩ := first.tended tended
  obtain ⟨next, second, back⟩ := worksOff_working _ still (workers_setWorker_self _ _ _)
  exact ⟨next, first.trans second, back.phase, back.queue, back.running⟩

/-- As long as there is an item in the queue, the worker goes on to get it. -/
theorem worksOff_draining {id : Nat} {queue : List Nat}
    (isDraining : system.workers worker = .draining) (isQueue : system.queue = id :: queue) :
    system.WorksOff codec clientGone worker choose [] (system.setWorker worker .getting) := by
  refine WorksOff.step (.testEmpty worker) rfl nofun ?_ rfl
  rw [StoreSystem.step, isDraining, workerStep, isQueue]
  rfl

theorem worksOff_testing (isTesting : system.workers worker = .testing) :
    system.WorksOff codec clientGone worker choose []
      (system.setWorker worker (if system.running then .getting else .draining)) := by
  refine WorksOff.step (.testRunning worker) rfl nofun ?_ rfl
  rw [StoreSystem.step, isTesting, workerStep]

/-- The next item is processed, whether or not `_running` is set. -/
theorem worksOff_turn (tended : Tended codec seen system) {id : Nat} {queue : List Nat}
    (isTesting : system.workers worker = .testing) (isQueue : system.queue = id :: queue) :
    ∃ next, system.WorksOff codec clientGone worker choose [id] next ∧
      system.BackAt worker queue next := by
  have first : system.WorksOff codec clientGone worker choose [] _ := worksOff_testing isTesting
  obtain ⟨history, still⟩ := first.tended tended
  cases isRunning : system.running with
  | true =>
      rw [isRunning] at first still
      obtain ⟨next, second, back⟩ := worksOff_getting still (workers_setWorker_self _ _ _) isQueue
      exact ⟨next, first.trans second, back.phase, back.queue, back.running⟩
  | false =>
      rw [isRunning] at first still
      have second : (system.setWorker worker .draining).WorksOff codec clientGone worker choose []
          _ := worksOff_draining (workers_setWorker_self _ _ _) isQueue
      obtain ⟨later, alsoThen⟩ := second.tended still
      obtain ⟨next, third, back⟩ := worksOff_getting alsoThen (workers_setWorker_self _ _ _) isQueue
      exact ⟨next, first.trans (second.trans third), back.phase, back.queue, back.running⟩

structure Drained (system : StoreSystem Record Text Error) (worker : Nat)
    (last : StoreSystem Record Text Error) : Prop where
  queue : last.queue = []
  phase : last.workers worker = .testing ∨ last.workers worker = .exited
  cleared : system.running = false → last.workers worker = .exited

theorem worksOff_empty (isDraining : system.workers worker = .draining)
    (isQueue : system.queue = []) :
    ∃ last, system.WorksOff codec clientGone worker choose [] last ∧
      system.Drained worker last := by
  refine ⟨system.setWorker worker .exited, WorksOff.step (.testEmpty worker) rfl nofun ?_ rfl,
    isQueue, Or.inr (workers_setWorker_self _ _ _), fun _ => workers_setWorker_self _ _ _⟩
  rw [StoreSystem.step, isDraining, workerStep, isQueue]
  rfl

/-- The whole queue is worked off.  The induction is on the queue. -/
theorem worksOff_queue {items : List Nat} :
    ∀ {seen : List QueueEvent} {system : StoreSystem Record Text Error},
      Tended codec seen system → system.workers worker = .testing → system.queue = items →
      ∃ last, system.WorksOff codec clientGone worker choose items last ∧
        system.Drained worker last := by
  induction items with
  | nil =>
      intro seen system tended isTesting isQueue
      cases isRunning : system.running with
      | true =>
          refine ⟨system, WorksOff.here, isQueue, Or.inl isTesting, ?_⟩
          intro cleared
          rw [isRunning] at cleared
          cases cleared
      | false =>
          have first : system.WorksOff codec clientGone worker choose [] _ :=
            worksOff_testing isTesting
          rw [isRunning] at first
          obtain ⟨last, second, drained⟩ :=
            worksOff_empty (workers_setWorker_self system worker .draining) isQueue
          exact ⟨last, first.trans second, drained.queue, drained.phase, fun _ =>
            drained.cleared isRunning⟩
  | cons id items ih =>
      intro seen system tended isTesting isQueue
      obtain ⟨next, first, back⟩ := worksOff_turn tended isTesting isQueue
      obtain ⟨history, still⟩ := first.tended tended
      obtain ⟨last, second, drained⟩ := ih still back.phase back.queue
      refine ⟨last, first.trans second, drained.queue, drained.phase, ?_⟩
      intro cleared
      exact drained.cleared (back.running.trans cleared)

theorem WorksOff.queue {items queue : List Nat}
    (first : system.WorksOff codec clientGone worker choose items next)
    (tended : Tended codec seen system) (back : system.BackAt worker queue next) :
    ∃ last, system.WorksOff codec clientGone worker choose (items ++ queue) last ∧
      system.Drained worker last := by
  obtain ⟨history, still⟩ := first.tended tended
  obtain ⟨last, second, drained⟩ := worksOff_queue still back.phase back.queue
  refine ⟨last, first.trans second, drained.queue, drained.phase, ?_⟩
  intro cleared
  exact drained.cleared (back.running.trans cleared)

/-- Wherever a worker is in its loop, it works off what it holds and then the queue. -/
theorem worksOff_inLoop (tended : Tended codec seen system)
    (inLoop : (system.workers worker).InLoop) :
    ∃ last, system.WorksOff codec clientGone worker choose
      ((system.workers worker).held.toList ++ system.queue) last ∧ system.Drained worker last := by
  cases isPhase : system.workers worker with
  | absent =>
      rw [isPhase] at inLoop
      cases inLoop
  | starting =>
      rw [isPhase] at inLoop
      cases inLoop
  | exited =>
      rw [isPhase] at inLoop
      cases inLoop
  | testing => exact worksOff_queue tended isPhase rfl
  | draining =>
      cases isQueue : system.queue with
      | nil => exact worksOff_empty isPhase isQueue
      | cons id queue =>
          have first : system.WorksOff codec clientGone worker choose [] _ :=
            worksOff_draining isPhase isQueue
          obtain ⟨history, still⟩ := first.tended tended
          obtain ⟨next, second, back⟩ :=
            worksOff_getting still (workers_setWorker_self _ _ _) isQueue
          exact (first.trans second).queue tended ⟨back.phase, back.queue, back.running⟩
  | getting =>
      cases isQueue : system.queue with
      | nil =>
          have first : system.WorksOff codec clientGone worker choose []
              (system.setWorker worker .testing) := by
            refine WorksOff.step (.takeNothing worker) rfl nofun ?_ rfl
            rw [StoreSystem.step, isPhase, workerStep, isQueue]
            rfl
          exact first.queue tended ⟨workers_setWorker_self _ _ _, isQueue, rfl⟩
      | cons id queue =>
          obtain ⟨next, first, back⟩ := worksOff_getting tended isPhase isQueue
          exact first.queue tended back
  | working id program =>
      obtain ⟨next, first, back⟩ := worksOff_working program tended isPhase
      exact first.queue tended back
  | finishing id =>
      obtain ⟨next, first, back⟩ := worksOff_finishing tended isPhase
      exact first.queue tended back

/-! ### Every run -/

theorem count_ofWorker (worker id : Nat) (items : List (Nat × Nat)) :
    (ofWorker worker items).count id = items.count (worker, id) := by
  induction items with
  | nil => rfl
  | cons item rest ih =>
      rcases item with ⟨other, any⟩
      rw [← List.singleton_append, ofWorker_append, List.count_append, List.count_append, ih]
      by_cases same : other = worker
      · rw [same, ofWorker_self, List.count_singleton, List.count_singleton]
        simp
      · rw [ofWorker_other same, List.count_singleton]
        simp [same]

/-- No item is done twice. -/
theorem dones_nodup (tended : Tended codec seen system) : ((dones seen).map Prod.snd).Nodup := by
  have pairs : (dones seen).Nodup := by
    rw [List.nodup_iff_count_le_one]
    intro ⟨worker, id⟩
    have mine : (ofWorker worker (takes seen)).Nodup :=
      tended.taken_nodup.sublist (List.filter_sublist.map Prod.snd)
    rw [tended.turns] at mine
    rw [← count_ofWorker]
    exact List.nodup_iff_count_le_one.mp (List.nodup_append.mp mine).1 id
  refine pairs.map_on ?_
  intro first isFirst second isSecond same
  refine Prod.ext ?_ same
  refine tended.taken_by (tended.took_done isFirst) ?_
  rw [same]
  exact tended.took_done isSecond

theorem served_of_tended (tended : Tended codec seen system) : system.Served codec seen := by
  refine ⟨tended.fifo, tended.distinct, tended.turns, dones_nodup tended, ?_⟩
  intro worker id isDone
  obtain ⟨item, isKnown, event, own⟩ := tended.done worker id isDone
  obtain ⟨call, isCall, both⟩ := Option.map_eq_some_iff.mp isKnown
  have isItem : call.item = item := congrArg Prod.fst both
  rw [← isItem] at event own
  exact ⟨call, isCall, event, own⟩

theorem tended_initial (held : Held Text) :
    Tended codec [] ({ held := held } : StoreSystem Record Text Error) := by
  constructor
  · rfl
  · exact List.nodup_nil
  · intro id
    constructor
    · intro member
      cases member
    · intro ⟨item, impossible⟩
      cases impossible
  · intro worker
    rfl
  · intro id unknown
    rfl
  · intro id item isSent impossible
    cases impossible
  · intro worker id rest impossible
    cases impossible
  · intro worker id impossible
    cases impossible
  · intro worker id member
    cases member

end StoreSystem

/-- In every run, whatever the commands and the decoding of texts come to: the items are
served, every step is orderly, and a worker in its loop works off the whole queue by
itself, whatever its client answers, before it leaves. -/
theorem worker_serves (codec : Codec Record Text Error) (clientGone : Error) (held : Held Text)
    (actions : List (StoreAction Text Error)) (last : StoreSystem Record Text Error)
    (ran : Transition.run (StoreSystem.step codec clientGone) { held := held } actions =
      some last) :
    last.Served codec (Transition.observed (StoreSystem.step codec clientGone)
        StoreSystem.observe { held := held } actions) ∧
      Transition.Along (StoreSystem.step codec clientGone) StoreSystem.Orderly { held := held }
        actions ∧
      ∀ worker choose, (last.workers worker).InLoop →
        ∃ final, last.WorksOff codec clientGone worker choose
            ((last.workers worker).held.toList ++ last.queue) final ∧
          last.Drained worker final := by
  have tended : Tended codec ([] ++ Transition.observed (StoreSystem.step codec clientGone)
      StoreSystem.observe { held := held } actions) last :=
    Transition.invariant_of_observed (Tended codec)
      (fun _ _ _ _ known taken => StoreSystem.tended_does known (StoreSystem.does_step taken))
      (StoreSystem.tended_initial held) ran
  refine ⟨StoreSystem.served_of_tended tended, Transition.along_of_step ?_ _ _, ?_⟩
  · intro system action next taken
    exact StoreSystem.orderly_does (StoreSystem.does_step taken)
  · intro worker choose inLoop
    exact StoreSystem.worksOff_inLoop tended inLoop

/-- A read whose command fails is put with a write behind it, and the store is stopped:
the worker is about to take the read. -/
def stoppedEarly : List (StoreAction Nat PyError) :=
  [.call 0 (.read "k"), .call 1 (.write "k" 7), .connect, .setRunning, .spawn 0, .begin 0,
    .put 0, .put 1, .testRunning 0, .take 0, .clearRunning,
    .command 0 (.failed .assertionError false)]

theorem worker_serves_stoppedEarly :
    ∃ last final, Transition.run (StoreSystem.step plainCodec .assertionError)
        { held := fun _ => none } stoppedEarly = some last ∧
      last.WorksOff plainCodec .assertionError 0 (fun _ => .normal [] none) [0, 1] final ∧
      final.workers 0 = .exited := by
  have inLoop : ∀ last, Transition.run (StoreSystem.step plainCodec .assertionError)
      { held := fun _ => none } stoppedEarly = some last → (last.workers 0).InLoop := by
    intro last ran
    cases ran
    trivial
  obtain ⟨_, _, onward⟩ :=
    worker_serves plainCodec .assertionError (fun _ => none) stoppedEarly _ rfl
  obtain ⟨final, works, drained⟩ := onward 0 (fun _ => .normal [] none) (inLoop _ rfl)
  exact ⟨_, final, rfl, works, drained.cleared rfl⟩

end AsPlatform
