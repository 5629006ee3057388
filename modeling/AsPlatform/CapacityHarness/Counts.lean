/-
What the threads of a level count.

Each worker is counted once, under the lock, by the counter that belongs to what its wait
has returned, and that is settled by whether its call has ended in time.
-/

import AsPlatform.CapacityHarness.Level

namespace AsPlatform

namespace CapacityDriver

open Threads

/-! ### Workers -/

namespace Worker

def arrivals (worker : Worker) : Nat :=
  match worker.phase with
  | .unstarted => 0
  | .started => 0
  | _ => 1

def holds (worker : Worker) : Bool :=
  match worker.phase with
  | .loading _ => true
  | .storing _ _ => true
  | .unlocking _ => true
  | _ => false

def counted (finished : Bool) (worker : Worker) : Nat :=
  match worker.phase with
  | .unlocking other => if other = finished then 1 else 0
  | .ended other => if other = finished then 1 else 0
  | _ => 0

def isOver (worker : Worker) : Bool :=
  match worker.phase with
  | .ended _ => true
  | _ => false

/-- The steps that the worker has before it, with the end of its call. -/
def left (worker : Worker) : Nat :=
  (match worker.phase with
    | .unstarted => 10
    | .started => 9
    | .atBarrier => 8
    | .released => 7
    | .waiting => 6
    | .reaping _ => 5
    | .locking _ => 4
    | .loading _ => 3
    | .storing _ _ => 2
    | .unlocking _ => 1
    | .ended _ => 0) + if worker.done = true then 0 else 1

structure Sound (outcome : CallOutcome) (shared : Shared) (index : Nat) (worker : Worker) :
    Prop where
  done : worker.done = true →
    worker.phase = .waiting ∧ outcome.inTime = true ∨ worker.phase.finished? ≠ none
  finished : ∀ finished, worker.phase.finished? = some finished → finished = outcome.inTime
  holds : worker.holds = true ↔ shared.lock = some index
  loaded : ∀ finished loaded, worker.phase = .storing finished loaded →
    loaded = shared.counter finished

end Worker

@[simp] theorem Shared.counter_setCounter (shared : Shared) (value : Nat) (finished other : Bool) :
    (shared.setCounter value finished).counter other =
      if finished = other then value else shared.counter other := by
  cases finished <;> cases other <;> rfl

@[simp] theorem Shared.lock_setCounter (shared : Shared) (value : Nat) (finished : Bool) :
    (shared.setCounter value finished).lock = shared.lock := by
  cases finished <;> rfl

@[simp] theorem Shared.arrived_setCounter (shared : Shared) (value : Nat) (finished : Bool) :
    (shared.setCounter value finished).arrived = shared.arrived := by
  cases finished <;> rfl

/-- The call of a worker that does not wait for it yet has not ended. -/
theorem Worker.Sound.not_done {outcome : CallOutcome} {shared : Shared} {index : Nat}
    {worker : Worker} (sound : worker.Sound outcome shared index)
    (before : worker.phase ≠ .waiting) (unsettled : worker.phase.finished? = none) :
    ¬worker.done = true := by
  intro ended
  rcases sound.done ended with ⟨waiting, _⟩ | past
  · exact before waiting
  · exact past unsettled

/-- Of what is shared a worker relies on its own hold of the lock, and between the reading and
the writing on the counter. -/
theorem Worker.Sound.of_shared {outcome : CallOutcome} {shared nextShared : Shared} {index : Nat}
    {worker : Worker} (sound : worker.Sound outcome shared index)
    (lock : shared.lock = some index ↔ nextShared.lock = some index)
    (counters : ∀ finished loaded, worker.phase = .storing finished loaded →
      nextShared.counter finished = shared.counter finished) :
    worker.Sound outcome nextShared index where
  done := sound.done
  finished := sound.finished
  holds := sound.holds.trans lock
  loaded := by
    intro finished loaded storing
    rw [counters finished loaded storing]
    exact sound.loaded finished loaded storing

structure WorkerStepped (outcome : CallOutcome) (index : Nat) (shared nextShared : Shared)
    (worker next : Worker) : Prop where
  sound : next.Sound outcome nextShared index
  others : ∀ other otherOutcome (bystander : Worker), other ≠ index →
    bystander.Sound otherOutcome shared other → bystander.Sound otherOutcome nextShared other
  owner : nextShared.lock = shared.lock ∨ nextShared.lock = none ∨ nextShared.lock = some index
  arrived : nextShared.arrived + worker.arrivals = shared.arrived + next.arrivals
  more : shared.arrived ≤ nextShared.arrived
  counted : ∀ finished, nextShared.counter finished + worker.counted finished =
    shared.counter finished + next.counted finished
  wasStarted : worker.phase ≠ .unstarted
  isStarted : next.phase ≠ .unstarted
  notOver : worker.isOver = false
  left : next.left < worker.left

theorem WorkerStepped.alone {outcome : CallOutcome} {index : Nat} {shared : Shared}
    {worker next : Worker} (sound : next.Sound outcome shared index)
    (arrived : next.arrivals = worker.arrivals)
    (counted : ∀ finished, next.counted finished = worker.counted finished)
    (wasStarted : worker.phase ≠ .unstarted) (isStarted : next.phase ≠ .unstarted)
    (notOver : worker.isOver = false) (left : next.left < worker.left) :
    WorkerStepped outcome index shared shared worker next where
  sound := sound
  others := fun _ _ _ _ bystander => bystander
  owner := Or.inl rfl
  arrived := by rw [arrived]
  more := Nat.le_refl _
  counted := fun finished => by rw [counted finished]
  wasStarted := wasStarted
  isStarted := isStarted
  notOver := notOver
  left := left

section Steps

variable {outcome : CallOutcome} {index : Nat} {shared : Shared} {finished done : Bool}

theorem stepped_started
    (sound : ({ phase := .started, done := done } : Worker).Sound outcome shared index) :
    WorkerStepped outcome index shared { shared with arrived := shared.arrived + 1 }
      { phase := .started, done := done } { phase := .atBarrier, done := done } where
  sound := ⟨fun ended => absurd ended (sound.not_done nofun rfl), nofun, sound.holds, nofun⟩
  others := fun _ _ _ _ was => was.of_shared Iff.rfl (fun _ _ _ => rfl)
  owner := Or.inl rfl
  arrived := rfl
  more := Nat.le_succ _
  counted := fun _ => rfl
  wasStarted := nofun
  isStarted := nofun
  notOver := rfl
  left := by simp [Worker.left]

theorem stepped_locking
    (sound : ({ phase := .locking finished, done := done } : Worker).Sound outcome shared index)
    (free : shared.lock = none) :
    WorkerStepped outcome index shared { shared with lock := some index }
      { phase := .locking finished, done := done }
      { phase := .loading finished, done := done } where
  sound := ⟨fun _ => Or.inr nofun, sound.finished, iff_of_true rfl rfl, nofun⟩
  others := by
    intro other otherOutcome bystander apart was
    refine was.of_shared ?_ (fun _ _ _ => rfl)
    rw [free]
    constructor
    · intro none
      cases none
    · intro same
      cases same
      exact absurd rfl apart
  owner := Or.inr (Or.inr rfl)
  arrived := rfl
  more := Nat.le_refl _
  counted := fun _ => rfl
  wasStarted := nofun
  isStarted := nofun
  notOver := rfl
  left := by simp [Worker.left]

/-- Only the owner of the lock is between the reading and the writing. -/
theorem stepped_storing {value : Nat}
    (sound : ({ phase := .storing finished value, done := done } : Worker).Sound outcome shared
      index) :
    WorkerStepped outcome index shared (shared.setCounter (value + 1) finished)
      { phase := .storing finished value, done := done }
      { phase := .unlocking finished, done := done } where
  sound := by
    refine ⟨fun _ => Or.inr nofun, sound.finished, ?_, nofun⟩
    rw [Shared.lock_setCounter]
    exact sound.holds
  others := by
    intro other otherOutcome bystander apart was
    apply was.of_shared
    · rw [Shared.lock_setCounter]
    · intro _ _ storing
      have owned : shared.lock = some index := sound.holds.mp rfl
      have alsoOwned := was.holds.mp (by rw [Worker.holds, storing])
      rw [owned] at alsoOwned
      cases alsoOwned
      exact absurd rfl apart
  owner := Or.inl (Shared.lock_setCounter _ _ _)
  arrived := by
    rw [Shared.arrived_setCounter]
    rfl
  more := Nat.le_of_eq (Shared.arrived_setCounter _ _ _).symm
  counted := by
    intro other
    rw [Shared.counter_setCounter, sound.loaded finished value rfl]
    by_cases same : finished = other
    · subst same
      simp [Worker.counted]
    · simp [Worker.counted, same]
  wasStarted := nofun
  isStarted := nofun
  notOver := rfl
  left := by simp [Worker.left]

theorem stepped_unlocking
    (sound : ({ phase := .unlocking finished, done := done } : Worker).Sound outcome shared
      index) :
    WorkerStepped outcome index shared { shared with lock := none }
      { phase := .unlocking finished, done := done }
      { phase := .ended finished, done := done } where
  sound := ⟨fun _ => Or.inr nofun, sound.finished, iff_of_false nofun nofun, nofun⟩
  others := by
    intro other otherOutcome bystander apart was
    have owned : shared.lock = some index := sound.holds.mp rfl
    refine was.of_shared ?_ (fun _ _ _ => rfl)
    rw [owned]
    constructor
    · intro same
      cases same
      exact absurd rfl apart
    · intro none
      cases none
  owner := Or.inr (Or.inl rfl)
  arrived := rfl
  more := Nat.le_refl _
  counted := fun _ => rfl
  wasStarted := nofun
  isStarted := nofun
  notOver := rfl
  left := by simp [Worker.left]

end Steps

theorem workerStep_stepped {parties : Nat} {outcome : CallOutcome} {index : Nat}
    {shared nextShared : Shared} {worker next : Worker}
    (sound : worker.Sound outcome shared index)
    (taken : workerStep parties outcome index shared worker = some (nextShared, next)) :
    WorkerStepped outcome index shared nextShared worker next := by
  obtain ⟨phase, done⟩ := worker
  cases phase with
  | unstarted => cases taken
  | started =>
      cases taken
      exact stepped_started sound
  | atBarrier =>
      obtain ⟨_, stepped⟩ := Option.ite_none_right_eq_some.mp taken
      cases stepped
      exact .alone
        ⟨fun ended => absurd ended (sound.not_done nofun rfl), nofun, sound.holds, nofun⟩ rfl
        (fun _ => rfl) nofun nofun rfl (by simp [Worker.left])
  | released =>
      cases taken
      exact .alone
        ⟨fun ended => absurd ended (sound.not_done nofun rfl), nofun, sound.holds, nofun⟩ rfl
        (fun _ => rfl) nofun nofun rfl (by simp [Worker.left])
  | waiting =>
      by_cases ended : done = true
      · rw [workerStep, if_pos ended] at taken
        cases taken
        refine .alone ⟨fun _ => Or.inr nofun, ?_, sound.holds, nofun⟩ rfl (fun _ => rfl) nofun
          nofun rfl (by simp [Worker.left])
        intro finished isTrue
        cases isTrue
        rcases sound.done ended with ⟨_, inTime⟩ | past
        · exact inTime.symm
        · exact absurd rfl past
      · rw [workerStep, if_neg ended] at taken
        obtain ⟨late, stepped⟩ := Option.ite_none_left_eq_some.mp taken
        cases stepped
        refine .alone ⟨fun _ => Or.inr nofun, ?_, sound.holds, nofun⟩ rfl (fun _ => rfl) nofun
          nofun rfl (by simp [Worker.left])
        intro finished isFalse
        cases isFalse
        exact (Bool.eq_false_iff.mpr late).symm
  | reaping finished =>
      cases taken
      exact .alone ⟨fun _ => Or.inr nofun, sound.finished, sound.holds, nofun⟩ rfl (fun _ => rfl)
        nofun nofun rfl (by simp [Worker.left])
  | locking finished =>
      obtain ⟨free, stepped⟩ := Option.ite_none_right_eq_some.mp taken
      cases stepped
      exact stepped_locking sound free
  | loading finished =>
      cases taken
      refine .alone ⟨fun _ => Or.inr nofun, sound.finished, sound.holds, ?_⟩ rfl (fun _ => rfl)
        nofun nofun rfl (by simp [Worker.left])
      intro other loaded storing
      cases storing
      rfl
  | storing finished value =>
      cases taken
      exact stepped_storing sound
  | unlocking finished =>
      cases taken
      exact stepped_unlocking sound
  | ended finished => cases taken

theorem callStep_ended {outcome : CallOutcome} {index : Nat} {shared : Shared}
    {worker next : Worker} (sound : worker.Sound outcome shared index)
    (taken : callStep outcome worker = some next) :
    worker.done = false ∧ next = { worker with done := true } ∧
      next.Sound outcome shared index := by
  obtain ⟨⟨running, _, ended⟩, stepped⟩ := Option.ite_none_right_eq_some.mp taken
  cases stepped
  refine ⟨running, rfl, ?_, sound.finished, sound.holds, sound.loaded⟩
  intro _
  by_cases inTime : outcome.inTime = true
  · rw [if_pos inTime] at ended
    exact Or.inl ⟨ended, inTime⟩
  · rw [if_neg inTime] at ended
    right
    rw [ended]
    exact Option.some_ne_none false

/-! ### The level -/

section Run

variable {Gap : Type} {outcome : Nat → CallOutcome} {loopGap : Option Gap}
  {level next : Level Gap}

def MainPhase.arrivals : MainPhase Gap → Nat
  | .starting _ => 0
  | _ => 1

def MainSound (loopGap : Option Gap) (level : Level Gap) : MainPhase Gap → Prop
  | .starting next => next ≤ level.level ∧
      Every (fun index worker => worker.phase = .unstarted ↔ next ≤ index) level.workers
  | .atBarrier => Every (fun _ worker => worker.phase ≠ .unstarted) level.workers
  | .joining next => level.level + 1 ≤ level.shared.arrived ∧
      Every (fun index worker => worker.phase ≠ .unstarted ∧
        (index < next → worker.isOver = true)) level.workers
  | .returned result => Every (fun _ worker => worker.isOver = true) level.workers ∧
      result =
        { level := level.level
          completed := level.shared.completed
          timedOut := level.shared.timedOut
          loopGapMs := loopGap }

/-- What is true of a level in every state that is reached while the main thread has the
patience to wait for its workers. -/
structure Level.Sound (outcome : Nat → CallOutcome) (loopGap : Option Gap) (level : Level Gap) :
    Prop where
  size : level.workers.length = level.level
  each : Every (fun index worker => worker.Sound (outcome index) level.shared index) level.workers
  owner : ∀ index, level.shared.lock = some index → index < level.level
  arrived : level.shared.arrived = total Worker.arrivals level.workers + level.main.arrivals
  counted : ∀ finished, level.shared.counter finished =
    total (Worker.counted finished) level.workers
  main : MainSound loopGap level level.main

theorem Level.sound_initial (outcome : Nat → CallOutcome) (loopGap : Option Gap) (level : Nat) :
    (Level.initial level : Level Gap).Sound outcome loopGap where
  size := List.length_replicate
  each := every_replicate fun _ => ⟨nofun, nofun, iff_of_false nofun nofun, nofun⟩
  owner := nofun
  arrived := by
    rw [Level.initial, total_replicate]
    rfl
  counted := by
    intro finished
    rw [Level.initial, total_replicate]
    cases finished <;> rfl
  main := ⟨Nat.zero_le _, every_replicate fun index => iff_of_true rfl (Nat.zero_le index)⟩

/-- The main thread is not misled by a step of a worker or of its call. -/
theorem MainSound.set {shared : Shared} {index : Nat} {worker after : Worker}
    (sound : MainSound loopGap level level.main) (found : level.workers[index]? = some worker)
    (unstarted : after.phase = .unstarted ↔ worker.phase = .unstarted)
    (stays : worker.isOver = true → after.isOver = true ∧ shared = level.shared)
    (more : level.shared.arrived ≤ shared.arrived) :
    MainSound loopGap
      { level with
        shared := shared
        workers := level.workers.set index after } level.main := by
  cases isMain : level.main with
  | starting next =>
      rw [isMain] at sound
      obtain ⟨inside, each⟩ := sound
      exact ⟨inside, each.set (unstarted.trans (each index worker found))
        (fun _ _ _ same => same)⟩
  | atBarrier =>
      rw [isMain] at sound
      have each : Every (fun _ worker => worker.phase ≠ .unstarted) level.workers := sound
      exact each.set (fun still => each index worker found (unstarted.mp still))
        (fun _ _ _ same => same)
  | joining next =>
      rw [isMain] at sound
      obtain ⟨all, each⟩ := sound
      have own := each index worker found
      exact ⟨Nat.le_trans all more, each.set ⟨fun still => own.1 (unstarted.mp still),
        fun joined => (stays (own.2 joined)).1⟩ (fun _ _ _ same => same)⟩
  | returned result =>
      rw [isMain] at sound
      obtain ⟨each, isResult⟩ := sound
      obtain ⟨stillOver, same⟩ := stays (each index worker found)
      rw [same]
      exact ⟨each.set stillOver (fun _ _ _ same => same), isResult⟩

/-- A step of a worker. -/
theorem Level.Sound.worker (sound : level.Sound outcome loopGap) {index : Nat}
    (taken : levelStep outcome loopGap level (.worker index) = some next) :
    next.Sound outcome loopGap := by
  obtain ⟨worker, found, advanced⟩ := Option.bind_eq_some_iff.mp taken
  obtain ⟨⟨shared, after⟩, stepped, isNext⟩ := Option.map_eq_some_iff.mp advanced
  have step := workerStep_stepped (sound.each index worker found) stepped
  subst isNext
  refine ⟨?_, ?_, ?_, ?_, ?_, ?_⟩
  · exact List.length_set.trans sound.size
  · exact sound.each.set step.sound (fun other thread apart => step.others other _ thread apart)
  · intro other owned
    rcases step.owner with same | none | own
    · exact sound.owner other (same.symm.trans owned)
    · cases none.symm.trans owned
    · cases own.symm.trans owned
      rw [← sound.size]
      exact (List.getElem?_eq_some_iff.mp found).choose
  · have sum := total_set found Worker.arrivals after
    have own := step.arrived
    have all := sound.arrived
    change shared.arrived = total Worker.arrivals (level.workers.set index after) +
      level.main.arrivals
    omega
  · intro finished
    have sum := total_set found (Worker.counted finished) after
    have own := step.counted finished
    have all := sound.counted finished
    change shared.counter finished =
      total (Worker.counted finished) (level.workers.set index after)
    omega
  · apply sound.main.set found (iff_of_false step.isStarted step.wasStarted) _ step.more
    intro isOver
    rw [step.notOver] at isOver
    cases isOver

theorem Level.Sound.call (sound : level.Sound outcome loopGap) {index : Nat}
    (taken : levelStep outcome loopGap level (.call index) = some next) :
    next.Sound outcome loopGap := by
  obtain ⟨worker, found, advanced⟩ := Option.bind_eq_some_iff.mp taken
  obtain ⟨after, stepped, isNext⟩ := Option.map_eq_some_iff.mp advanced
  obtain ⟨_, isAfter, own⟩ := callStep_ended (sound.each index worker found) stepped
  subst isNext
  have kept : ∀ amount : Worker → Nat, amount after = amount worker →
      total amount (level.workers.set index after) = total amount level.workers := by
    intro amount same
    have sum := total_set found amount after
    omega
  refine ⟨List.length_set.trans sound.size, sound.each.set own (fun _ _ _ same => same),
    sound.owner, ?_, ?_, ?_⟩
  · rw [sound.arrived, kept Worker.arrivals (by rw [isAfter]; rfl)]
  · intro finished
    rw [sound.counted finished, kept (Worker.counted finished) (by rw [isAfter]; rfl)]
  · apply sound.main.set found _ _ (Nat.le_refl _)
    · rw [isAfter]
    · intro isOver
      rw [isAfter]
      exact ⟨isOver, rfl⟩

theorem Level.Sound.main_step (sound : level.Sound outcome loopGap)
    (taken : levelStep outcome loopGap level .main = some next) :
    next.Sound outcome loopGap := by
  have main := sound.main
  have arrived := sound.arrived
  cases mainStep_stepped taken with
  | @starts index done isMain further found =>
      rw [isMain] at main arrived
      obtain ⟨_, each⟩ := main
      have was := sound.each index _ found
      refine ⟨List.length_set.trans sound.size, ?_, sound.owner, ?_, ?_, further, ?_⟩
      · exact sound.each.set
          ⟨fun ended => absurd ended (was.not_done nofun rfl), nofun, was.holds, nofun⟩
          (fun _ _ _ same => same)
      · exact arrived.trans (congrArg (· + 0) (total_set found Worker.arrivals
          { phase := .started, done := done }).symm)
      · intro finished
        exact (sound.counted finished).trans (total_set found (Worker.counted finished)
          { phase := .started, done := done }).symm
      · refine each.set (iff_of_false nofun (Nat.not_succ_le_self index)) ?_
        intro other worker apart same
        rw [same]
        omega
  | @arrives index isMain all =>
      rw [isMain] at main arrived
      obtain ⟨_, each⟩ := main
      refine ⟨sound.size, ?_, sound.owner, congrArg (· + 1) arrived, sound.counted, ?_⟩
      · intro other worker found
        exact (sound.each other worker found).of_shared Iff.rfl (fun _ _ _ => rfl)
      · intro other worker found unstarted
        have inside := (List.getElem?_eq_some_iff.mp found).choose
        have beyond := (each other worker found).mp unstarted
        rw [sound.size] at inside
        omega
  | released isMain all =>
      rw [isMain] at main arrived
      have each : Every (fun _ worker => worker.phase ≠ .unstarted) level.workers := main
      exact ⟨sound.size, sound.each, sound.owner, arrived, sound.counted, all,
        fun index worker found => ⟨each index worker found, nofun⟩⟩
  | @joins index finished done isMain further found =>
      rw [isMain] at main arrived
      obtain ⟨all, each⟩ := main
      refine ⟨sound.size, sound.each, sound.owner, arrived, sound.counted, all, ?_⟩
      intro other worker isOther
      refine ⟨(each other worker isOther).1, fun joined => ?_⟩
      by_cases last : other = index
      · rw [last, found] at isOther
        cases isOther
        rfl
      · exact (each other worker isOther).2 (by omega)
  | @returns index isMain all =>
      rw [isMain] at main arrived
      obtain ⟨_, each⟩ := main
      refine ⟨sound.size, sound.each, sound.owner, arrived, sound.counted, ?_, rfl⟩
      intro other worker found
      have inside := (List.getElem?_eq_some_iff.mp found).choose
      rw [sound.size] at inside
      exact (each other worker found).2 (by omega)

theorem Level.Sound.step (sound : level.Sound outcome loopGap) {action : LevelAction}
    (patient : action ≠ .graceExpires)
    (taken : levelStep outcome loopGap level action = some next) :
    next.Sound outcome loopGap := by
  cases action with
  | main => exact sound.main_step taken
  | worker index => exact sound.worker taken
  | call index => exact sound.call taken
  | graceExpires => exact absurd rfl patient

/-! ### The end of a level -/

def callsThat (holds : CallOutcome → Bool) (outcome : Nat → CallOutcome) (level : Nat) : Nat :=
  (List.range level).countP fun call => holds (outcome call)

/-- When the level returns, each call has been counted by what its worker has seen of it. -/
theorem Level.Sound.result (sound : level.Sound outcome loopGap)
    {result : CapacityLevelResult Gap} (returned : level.main = .returned result) :
    result.level = level.level ∧ result.loopGapMs = loopGap ∧
      result.completed = callsThat CallOutcome.inTime outcome level.level ∧
      result.timedOut = callsThat (fun ending => !ending.inTime) outcome level.level := by
  have main := sound.main
  rw [returned] at main
  obtain ⟨allOver, isResult⟩ := main
  have counts : ∀ finished, level.shared.counter finished =
      callsThat (fun ending => ending.inTime == finished) outcome level.level := by
    intro finished
    rw [sound.counted finished, callsThat, ← sound.size]
    apply total_eq_countP
    intro index worker found
    have isOver := allOver index worker found
    have settled := (sound.each index worker found).finished
    obtain ⟨phase, done⟩ := worker
    cases phase with
    | ended seen =>
        have inTime : seen = (outcome index).inTime := settled seen rfl
        simp [Worker.counted, inTime]
    | _ => cases isOver
  subst isResult
  refine ⟨rfl, rfl, (counts true).trans ?_, (counts false).trans ?_⟩
  · simp [callsThat]
  · simp [callsThat]

end Run

end CapacityDriver

end AsPlatform
