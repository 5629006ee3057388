/-
One call among many, and the same call alone.

The instances of an interpreter handle any number of calls in one event loop.  What happens
to one of them is compared with a run of this call alone, in a process of its own, that is
given the call's own share of the events.
-/

import AsPlatform.CallController.Identity
import AsPlatform.Library.Mirroring
import AsPlatform.Library.Transition

namespace AsPlatform

open Reentrant

structure World.SameCall (left right : World) : Prop where
  call : left.toCall = right.toCall
  sipConf : left.sipConf = right.sipConf
  levels : left.isEnabledFor = right.isEnabledFor

theorem World.SameCall.same {left right : World} (same : left.SameCall right) : right =
    { left with metrics := right.metrics, tracer := right.tracer, log := right.log } := by
  obtain ⟨call, process⟩ := right
  obtain ⟨metrics, tracer, log, sipConf, isEnabledFor⟩ := process
  obtain ⟨sameCall, sameConf, sameLevels⟩ := same
  cases sameCall
  cases sameConf
  cases sameLevels
  rfl

/-- A handler does the same for the same call, whatever the process has counted, traced and
logged. -/
theorem Built.alike_sameCall {asFound pins : Prop} {Result : Type} {handler : Ctl Result}
    (built : Built asFound pins handler) : handler.Alike World.SameCall handler := by
  induction built with
  | pure value => exact Handler.alike_pure value
  | raise error => exact Handler.alike_raise error
  | ofExcept result => exact Handler.alike_ofExcept result
  | bind _ _ first onward => exact Handler.alike_bind first onward
  | read blind _ ih =>
      apply Handler.alike_get
      intro left right sameCall
      have same := sameCall.same
      have body := blind left right.metrics right.tracer right.log
      rw [← same] at body
      rw [body]
      exact ih left left right sameCall
  | modifyCall change config =>
      exact Handler.alike_modify (fun left right same =>
        ⟨congrArg change same.call, same.sipConf, same.levels⟩)
  | count change apart errors =>
      exact Handler.alike_modify (fun left right same => ⟨same.call, same.sipConf, same.levels⟩)
  | trace event =>
      exact Handler.alike_modify (fun left right same => ⟨same.call, same.sipConf, same.levels⟩)
  | log entry =>
      exact Handler.alike_modify (fun left right same => ⟨same.call, same.sipConf, same.levels⟩)
  | call allowed request => exact Handler.alike_callOut request
  | identity allowed built ih =>
      have pinned : ∀ (change : SipConf → SipConf) (left right : World), left.SameCall right →
          (left.mapSipConf change).SameCall (right.mapSipConf change) :=
        fun change left right same => ⟨same.call, congrArg change same.sipConf, same.levels⟩
      apply Handler.alike_get
      intro left right same
      have config : left.globalConfig = right.globalConfig :=
        congrArg (fun call : Call => call.globalConfig) same.call
      rw [config, same.sipConf]
      exact Prog.Alike.ensure (ih _ _ (pinned _ left right same)) (pinned _)

theorem Built.spares_levels {asFound pins : Prop} {Result : Type} {handler : Ctl Result}
    (built : Built asFound pins handler) (world : World) :
    (handler world).Spares (fun world => world.isEnabledFor) world.isEnabledFor := by
  induction built generalizing world with
  | pure value => exact rfl
  | raise error => exact rfl
  | ofExcept result => exact rfl
  | bind _ _ first onward => exact (first world).bind (fun later value => onward value later)
  | read _ _ ih => exact ih world world
  | modifyCall change config => exact rfl
  | count change apart errors => exact rfl
  | trace event => exact rfl
  | log entry => exact rfl
  | call allowed request => exact ⟨rfl, fun back result => rfl⟩
  | identity allowed built ih =>
      exact Prog.Spares.ensure (ih (world.mapSipConf (SipConf.pin world.globalConfig)))
        (fun later => rfl)

/-! ### What a call has to do with the others -/

def Interpreter.watch (index : Nat) (interpreter : Interpreter) :
    Option Controller × (LogLevel → Bool) :=
  (interpreter.controllers[index]?, interpreter.isEnabledFor)

theorem watch_setWorld {index other : Nat} (different : other ≠ index) (interpreter : Interpreter)
    (world : World) : (interpreter.setWorld other world).watch index =
      ((interpreter.watch index).1, world.isEnabledFor) := by
  unfold Interpreter.watch Interpreter.setWorld
  rw [List.getElem?_modify]
  simp [different]

/-- The handlers of one controller leave the others alone. -/
theorem embed_spares_watch {index other : Nat} (different : other ≠ index)
    {interpreter : Interpreter} {handler : Ctl Unit} {asFound pins : Prop}
    (built : Built asFound pins handler) {world : World}
    (levels : world.isEnabledFor = interpreter.isEnabledFor) :
    ((handler world).embed (place other) interpreter).Spares (Interpreter.watch index)
      (interpreter.watch index) := by
  have spares := built.spares_levels world
  rw [levels] at spares
  exact Prog.Spares.embed (fun watched levels => (watched.1, levels))
    (watch_setWorld different) (fun whole => rfl) interpreter spares

def Interpreter.levels (interpreter : Interpreter) : LogLevel → Bool :=
  interpreter.isEnabledFor

structure WorksFor (owner index : Nat) (interpreter : Interpreter)
    (program : Prog Interpreter Outgoing PyError Unit) : Prop where
  asks : program.Asks fun outgoing => outgoing.controller = owner
  levels : program.Spares Interpreter.levels interpreter.levels
  apart : owner ≠ index → program.Spares (Interpreter.watch index) (interpreter.watch index)

structure FrameWorksFor (owner index : Nat) (frame : Frame Interpreter Outgoing PyError) :
    Prop where
  asks : frame.Asks fun outgoing => outgoing.controller = owner
  levels : frame.Spares Interpreter.levels
  apart : owner ≠ index → frame.Spares (Interpreter.watch index)

theorem FrameWorksFor.resume {owner index : Nat} {frame : Frame Interpreter Outgoing PyError}
    (works : FrameWorksFor owner index frame) (back : Interpreter) (result : Except PyError Unit) :
    WorksFor owner index back (frame.resume back result) :=
  ⟨works.asks.resume back result, works.levels back result,
    fun different => works.apart different back result⟩

theorem embed_worksFor {owner index : Nat} {interpreter : Interpreter} {handler : Ctl Unit}
    {asFound pins : Prop} (built : Built asFound pins handler) {world : World}
    (levels : world.isEnabledFor = interpreter.isEnabledFor) :
    WorksFor owner index interpreter ((handler world).embed (place owner) interpreter) := by
  have spares := built.spares_levels world
  rw [levels] at spares
  have leveled : ((handler world).embed (place owner) interpreter).Spares Interpreter.levels
      interpreter.levels := by
    refine Prog.Spares.embed (fun (_ : LogLevel → Bool) (levels : LogLevel → Bool) => levels)
      ?_ ?_ interpreter spares
    · exact fun _ _ => rfl
    · exact fun _ => rfl
  exact ⟨Prog.asks_embed (fun _ _ => rfl) _ _, leveled,
    fun different => embed_spares_watch different built levels⟩

theorem settle_worksFor (escaped : List PyError) {owner index : Nat} {interpreter : Interpreter}
    {program : Prog Interpreter Outgoing PyError Unit}
    (works : WorksFor owner index interpreter program)
    {frames : List (Frame Interpreter Outgoing PyError)}
    (rest : ∀ frame ∈ frames, FrameWorksFor owner index frame) :
    (settle escaped program frames).state.levels = interpreter.levels ∧
      (owner ≠ index → (settle escaped program frames).state.watch index =
        interpreter.watch index) ∧
      ∀ frame ∈ (settle escaped program frames).frames, FrameWorksFor owner index frame := by
  have asks := settle_asks escaped works.asks (fun frame member => (rest frame member).asks)
  obtain ⟨levels, leveled⟩ := settle_spares escaped works.levels
    (fun frame member => (rest frame member).levels)
  refine ⟨levels, fun different => ?_, fun frame member => ?_⟩
  · exact (settle_spares escaped (works.apart different)
      (fun frame member => (rest frame member).apart different)).1
  · exact ⟨asks frame member, leveled frame member, fun different =>
      (settle_spares escaped (works.apart different)
        (fun frame member => (rest frame member).apart different)).2 frame member⟩

structure Sees (owner index : Nat) (interpreter : Interpreter) (world : World) : Prop where
  owned : ∃ controller, interpreter.controllers[index]? = some controller ∧
    controller.owner = owner
  same : (interpreter.world index).SameCall world

def AsksFor (index : Nat) (outgoing : Outgoing) (request : UaCall) : Prop :=
  outgoing.controller = index ∧ outgoing.call = request

theorem world_setWorld {index : Nat} {interpreter : Interpreter} {controller : Controller}
    (found : interpreter.controllers[index]? = some controller) (world : World) :
    (interpreter.setWorld index world).controllers[index]? =
        some { controller with call := world.toCall } ∧
      (interpreter.setWorld index world).world index = world := by
  have modified : (interpreter.setWorld index world).controllers[index]? =
      some { controller with call := world.toCall } := by
    unfold Interpreter.setWorld
    rw [List.getElem?_modify, found]
    simp
  refine ⟨modified, ?_⟩
  unfold Interpreter.world
  rw [Interpreter.callOf_of_getElem? modified]
  rfl

/-- A handler of the controller does in the interpreter what it does alone. -/
theorem embed_mirrors {owner index : Nat} {handler : Ctl Unit} {asFound pins : Prop}
    (built : Built asFound pins handler) {interpreter : Interpreter} {world alone : World}
    (owned : ∃ controller, interpreter.controllers[index]? = some controller ∧
      controller.owner = owner) (same : world.SameCall alone) :
    Prog.Mirrors (Sees owner index) (AsksFor index)
      ((handler world).embed (place index) interpreter) (handler alone) := by
  refine (built.alike_sameCall world alone same).mirrors
    (fun whole part sees => ⟨sees.owned, sees.same⟩) ?_ (fun _ _ _ _ => ⟨rfl, rfl⟩) owned
  rintro whole left right ⟨controller, found, isOwner⟩ parts
  obtain ⟨modified, isLeft⟩ := world_setWorld found left
  refine ⟨⟨_, modified, isOwner⟩, ?_⟩
  change ((whole.setWorld index left).world index).SameCall right
  rw [isLeft]
  exact parts

/-! ### The share of one call -/

/-- While a handler is at work the events are those of its own call. -/
def Nested (config : AsConfig) : AsAction → Prop
  | .enter (.call index _) =>
      match config.frames with
      | [] => True
      | frame :: _ => frame.request.controller = index
  | _ => True

def projected (servers : Nat → AsInstance) (index : Nat) (config : AsConfig) :
    AsAction → Option CallAction
  | .enter (.request owner request) =>
      if (servers owner).admits request ∧ config.state.controllers.length = index then
        some (.enter (.invite request.toRequest))
      else none
  | .enter (.call other label) => if other = index then some (.enter label) else none
  | .comeBack =>
      match config.frames with
      | [] => none
      | frame :: _ => if frame.request.controller = index then some .comeBack else none
  | _ => none

def projection (servers : Nat → AsInstance) (index : Nat) (config : AsConfig)
    (actions : List AsAction) : List CallAction :=
  Transition.observed (asSystem servers).step (projected servers index) config actions

def callAlone (servers : Nat → AsInstance) (start : Interpreter) (owner : Nat) : CallConfig :=
  Config.initial (start.toProcess.newCall (servers owner).globalConfig (servers owner).nhAddr)

structure Accompanies (servers : Nat → AsInstance) (start : Interpreter) (index : Nat)
    (seen : List CallAction) (config : AsConfig) (controller : Controller)
    (alone : CallConfig) : Prop where
  ran : (callSystem (servers controller.owner).app).run
    (callAlone servers start controller.owner) seen = some alone
  call : alone.state.toCall = controller.call
  levels : alone.state.isEnabledFor = start.isEnabledFor
  mine : (∀ frame ∈ config.frames, frame.request.controller = index) →
    Config.Mirrors (Sees controller.owner index) (AsksFor index) config alone
  quiet : (∀ frame ∈ config.frames, frame.request.controller ≠ index) →
    alone.frames = [] ∧ alone.state.sipConf = start.sipConf

/-- One call at a time is at work, and the others are left alone. -/
def OneAtWork (index : Nat) (config : AsConfig) : Prop :=
  ∃ owner, ∀ frame ∈ config.frames, FrameWorksFor owner index frame

structure Shares (servers : Nat → AsInstance) (start : Interpreter) (index : Nat)
    (seen : List CallAction) (config : AsConfig) : Prop where
  standing : Standing False start.sipConf config
  levels : config.state.isEnabledFor = start.isEnabledFor
  atWork : OneAtWork index config
  absent : config.state.controllers[index]? = none →
    seen = [] ∧ ∀ frame ∈ config.frames, frame.request.controller ≠ index
  present : ∀ controller, config.state.controllers[index]? = some controller →
    ∃ alone, Accompanies servers start index seen config controller alone

section Steps

variable {servers : Nat → AsInstance} {start : Interpreter} {index : Nat}
  {seen : List CallAction} {config next : AsConfig}

/-- The call alone, seen while no handler is at work. -/
theorem Accompanies.of_idle {controller : Controller} {alone : CallConfig}
    (ran : (callSystem (servers controller.owner).app).run
      (callAlone servers start controller.owner) seen = some alone)
    (call : alone.state.toCall = controller.call)
    (levels : alone.state.isEnabledFor = start.isEnabledFor)
    (quiet : alone.frames = [] ∧ alone.state.sipConf = start.sipConf)
    (found : next.state.controllers[index]? = some controller)
    (standing : Standing False start.sipConf next)
    (sameLevels : next.state.isEnabledFor = start.isEnabledFor)
    (foreign : ∀ frame ∈ next.frames, frame.request.controller ≠ index) :
    Accompanies servers start index seen next controller alone where
  ran := ran
  call := call
  levels := levels
  mine isMine := by
    have none : next.frames = [] := List.eq_nil_iff_forall_not_mem.mpr
      (fun frame member => foreign frame member (isMine frame member))
    have conf := standing.conf_of_idle (List.isEmpty_iff.mpr none)
    refine ⟨⟨⟨controller, found, rfl⟩, ?_, ?_, ?_⟩, ?_⟩
    · exact (Interpreter.callOf_of_getElem? found).trans call.symm
    · exact conf.trans quiet.2.symm
    · exact sameLevels.trans levels.symm
    · rw [none, quiet.1]
      exact .nil
  quiet _ := quiet

theorem Shares.foreign (shares : Shares servers start index seen config)
    (before : ∀ frame ∈ config.frames, frame.request.controller ≠ index)
    (after : ∀ frame ∈ next.frames, frame.request.controller ≠ index)
    (watched : next.state.watch index = config.state.watch index)
    (standing : Standing False start.sipConf next) (atWork : OneAtWork index next) :
    Shares servers start index seen next := by
  obtain ⟨sameController, sameLevels⟩ := Prod.mk.inj watched
  have levels := sameLevels.trans shares.levels
  refine ⟨standing, levels, atWork, ?_, ?_⟩
  · intro none
    rw [sameController] at none
    exact ⟨(shares.absent none).1, after⟩
  · intro controller found
    have wasFound := found
    rw [sameController] at wasFound
    obtain ⟨alone, accompanies⟩ := shares.present controller wasFound
    exact ⟨alone, .of_idle accompanies.ran accompanies.call accompanies.levels
      (accompanies.quiet before) found standing levels after⟩

theorem Shares.own {owner : Nat} {alone aloneNext : CallConfig} {action : CallAction}
    (ran : (callSystem (servers owner).app).run (callAlone servers start owner) seen = some alone)
    (taken : (callSystem (servers owner).app).step alone action = some aloneNext)
    (mirrors : Config.Mirrors (Sees owner index) (AsksFor index) next aloneNext)
    (levels : next.state.isEnabledFor = start.isEnabledFor)
    (standing : Standing False start.sipConf next) (atWork : OneAtWork index next) :
    Shares servers start index (seen ++ [action]) next := by
  obtain ⟨⟨later, found, isOwner⟩, same⟩ := mirrors.state
  have onward : (callSystem (servers owner).app).run (callAlone servers start owner)
      (seen ++ [action]) = some aloneNext := by
    rw [System.run_append ran, System.run, taken]
    rfl
  have call : aloneNext.state.toCall = later.call :=
    same.call.symm.trans (Interpreter.callOf_of_getElem? found)
  have asked : ∀ frame ∈ next.frames, frame.request.controller = index := by
    intro frame member
    obtain ⟨partFrame, _, mirrored⟩ := mirrors.of_mem member
    exact mirrored.asked.1
  have accompaniesNext : Accompanies servers start index (seen ++ [action]) next later
      aloneNext := by
    refine ⟨?_, call, ?_, ?_, ?_⟩
    · rw [isOwner]
      exact onward
    · exact same.levels.symm.trans levels
    · intro _
      rw [isOwner]
      exact mirrors
    · intro foreign
      have none : next.frames = [] := List.eq_nil_iff_forall_not_mem.mpr
        (fun frame member => foreign frame member (asked frame member))
      have frames := mirrors.frames
      rw [none] at frames
      have conf := standing.conf_of_idle (List.isEmpty_iff.mpr none)
      exact ⟨List.forall₂_nil_left_iff.mp frames, same.sipConf.symm.trans conf⟩
  refine ⟨standing, levels, atWork, ?_, ?_⟩
  · intro none
    rw [none] at found
    cases found
  · intro other isOther
    rw [isOther] at found
    cases found
    exact ⟨aloneNext, accompaniesNext⟩

theorem Shares.comeBack (shares : Shares servers start index seen config)
    (taken : (asSystem servers).step config .comeBack = some next)
    (standing : Standing False start.sipConf next) :
    Shares servers start index (seen ++ (projected servers index config .comeBack).toList)
      next := by
  obtain ⟨frame, older, suspended, settled⟩ := System.step_comeBack.mp taken
  obtain ⟨owner, works⟩ := shares.atWork
  have owned : ∀ other ∈ config.frames, other.request.controller = owner :=
    fun other member => (works other member).asks.request
  rw [suspended] at works
  obtain ⟨innermost, rest⟩ := List.forall_mem_cons.mp works
  have isOwner : frame.request.controller = owner := innermost.asks.request
  obtain ⟨levels, watched, after⟩ :=
    settle_worksFor config.escaped (innermost.resume config.state (.ok ())) rest
  rw [settled] at levels watched after
  have whose : projected servers index config .comeBack =
      if owner = index then some .comeBack else none := by
    simp only [projected, suspended, isOwner]
  rw [whose]
  by_cases own : owner = index
  · rw [if_pos own]
    subst own
    cases found : config.state.controllers[owner]? with
    | none =>
        have foreign := (shares.absent found).2 frame (by rw [suspended]; exact List.mem_cons_self)
        exact absurd isOwner foreign
    | some controller =>
        obtain ⟨alone, accompanies⟩ := shares.present controller found
        obtain ⟨aloneNext, aloneTaken, mirrors⟩ :=
          mirrors_comeBack (callSystem (servers controller.owner).app)
            (accompanies.mine owned) taken
        exact Shares.own accompanies.ran aloneTaken mirrors (levels.trans shares.levels) standing
          ⟨owner, after⟩
  · rw [if_neg own, Option.toList_none, List.append_nil]
    have foreign : ∀ other ∈ config.frames, other.request.controller ≠ index := by
      intro other member
      rw [owned other member]
      exact own
    have foreignAfter : ∀ other ∈ next.frames, other.request.controller ≠ index := by
      intro other member
      rw [(after other member).asks.request]
      exact own
    exact shares.foreign foreign foreignAfter (watched own) standing ⟨owner, after⟩

/-- What is counted, traced or logged by others is seen by no call. -/
theorem Shares.unseen (shares : Shares servers start index seen config) {later : Interpreter}
    (controllers : later.controllers = config.state.controllers)
    (sipConf : later.sipConf = config.state.sipConf)
    (levels : later.isEnabledFor = config.state.isEnabledFor)
    (standing : Standing False start.sipConf { config with state := later }) :
    Shares servers start index seen { config with state := later } := by
  refine ⟨standing, levels.trans shares.levels, shares.atWork, ?_, ?_⟩
  · intro none
    change later.controllers[index]? = Option.none at none
    rw [controllers] at none
    exact shares.absent none
  · intro controller found
    change later.controllers[index]? = some controller at found
    rw [controllers] at found
    obtain ⟨alone, accompanies⟩ := shares.present controller found
    refine ⟨alone, accompanies.ran, accompanies.call, accompanies.levels, ?_, accompanies.quiet⟩
    intro isMine
    have mirrors := accompanies.mine isMine
    refine ⟨⟨?_, ?_, sipConf.trans mirrors.state.same.sipConf,
      levels.trans mirrors.state.same.levels⟩, mirrors.frames⟩
    · rw [controllers]
      exact mirrors.state.owned
    · rw [← mirrors.state.same.call]
      change later.callOf index = config.state.callOf index
      rw [Interpreter.callOf, controllers, Interpreter.callOf]

/-- What an application counts on its own is seen by no call. -/
theorem Shares.counted (shares : Shares servers start index seen config)
    {change : MetricsRegistry → MetricsRegistry}
    (isNext : next = { config with state := config.state.mapMetrics change })
    (standing : Standing False start.sipConf next) :
    Shares servers start index seen next := by
  subst isNext
  exact shares.unseen rfl rfl rfl standing

theorem Shares.enterCall (shares : Shares servers start index seen config) {other : Nat}
    {label : Label} (nested : Nested config (.enter (.call other label)))
    (taken : (asSystem servers).step config (.enter (.call other label)) = some next)
    (standing : Standing False start.sipConf next) :
    Shares servers start index
      (seen ++ (projected servers index config (.enter (.call other label))).toList) next := by
  obtain ⟨program, entered, settled⟩ := System.step_enter.mp taken
  obtain ⟨controller, found, noInvite, enabled, isProgram⟩ := asSystem_enter_call.mp entered
  -- the handlers suspended are those of the controller that is entered
  have works : ∀ frame ∈ config.frames, FrameWorksFor other index frame := by
    obtain ⟨owner, works⟩ := shares.atWork
    intro frame member
    have isOwner : owner = other := by
      cases suspended : config.frames with
      | nil =>
          rw [suspended] at member
          cases member
      | cons innermost older =>
          simp only [Nested, suspended] at nested
          have first := works innermost (by rw [suspended]; exact List.mem_cons_self)
          rw [← nested]
          exact first.asks.request.symm
    rw [← isOwner]
    exact works frame member
  have built : Built True True (label.handler (servers controller.owner).app) :=
    handler_built trivial trivial _ label
  have programWorks : WorksFor other index config.state program := by
    rw [← isProgram]
    exact embed_worksFor built rfl
  obtain ⟨levels, watched, after⟩ := settle_worksFor config.escaped programWorks works
  rw [settled] at levels watched after
  have owned : ∀ frame ∈ config.frames, frame.request.controller = other :=
    fun frame member => (works frame member).asks.request
  by_cases own : other = index
  · subst own
    have share : projected servers other config (.enter (.call other label)) =
        some (.enter label) := if_pos rfl
    rw [share]
    obtain ⟨alone, accompanies⟩ := shares.present controller found
    have mirrors := accompanies.mine owned
    have same := mirrors.state.same
    have isCall : (config.state.world other).toCall = alone.state.toCall := same.call
    have aloneEntered : (callSystem (servers controller.owner).app).enter label alone.state
        alone.idle = some (label.handler (servers controller.owner).app
          (alone.state.mapCall label.opening)) := by
      rw [callSystem_enter, if_pos]
      rw [← isCall, ← mirrors.idle]
      exact enabled
    have opened : ((config.state.world other).mapCall label.opening).SameCall
        (alone.state.mapCall label.opening) :=
      ⟨congrArg label.opening same.call, same.sipConf, same.levels⟩
    have programs := embed_mirrors built mirrors.state.owned opened
    rw [isProgram] at programs
    have settledMirrors := settle_mirrors config.escaped alone.escaped programs mirrors.frames
    rw [settled] at settledMirrors
    exact Shares.own accompanies.ran (System.step_enter.mpr ⟨_, aloneEntered, rfl⟩)
      settledMirrors (levels.trans shares.levels) standing ⟨other, after⟩
  · have share : projected servers index config (.enter (.call other label)) = none := if_neg own
    rw [share, Option.toList_none, List.append_nil]
    refine shares.foreign ?_ ?_ (watched own) standing ⟨other, after⟩
    · intro frame member
      rw [owned frame member]
      exact own
    · intro frame member
      rw [(after frame member).asks.request]
      exact own

theorem Shares.enterOutside (shares : Shares servers start index seen config) {owner : Nat}
    {request : TrunkRequest} (outside : (servers owner).admits request = false)
    (taken : (asSystem servers).step config (.enter (.request owner request)) = some next)
    (standing : Standing False start.sipConf next) : Shares servers start index seen next := by
  obtain ⟨program, entered, settled⟩ := System.step_enter.mp taken
  simp only [asSystem, Option.ite_none_right_eq_some, Option.some.injEq] at entered
  obtain ⟨idle, isProgram⟩ := entered
  have none : config.frames = [] := List.isEmpty_iff.mp idle
  have left : ∃ later, program = .ret later (.ok ()) ∧ later.watch index = config.state.watch index
      := by
    rw [← isProgram]
    cases refused : (servers owner).refuses request with
    | true => exact ⟨_, AsInstance.recvRequest_refused refused, rfl⟩
    | false =>
        cases answered : (servers owner).answerTo request with
        | none =>
            rw [AsInstance.answerTo_eq_none_iff, outside] at answered
            cases answered
        | some answer => exact ⟨_, AsInstance.recvRequest_declined refused answered, rfl⟩
  obtain ⟨later, isRet, watched⟩ := left
  rw [isRet, settle_ok, none] at settled
  subst settled
  have nobody : ∀ frame ∈ ([] : List (Frame Interpreter Outgoing PyError)),
      frame.request.controller ≠ index := List.forall_mem_nil _
  exact shares.foreign (none ▸ nobody) nobody watched standing ⟨index, List.forall_mem_nil _⟩

theorem getElem?_withController (server : AsInstance) (owner : Nat) (request : TrunkRequest)
    (interpreter : Interpreter) (position : Nat) :
    (interpreter.withController server owner request).controllers[position]? =
      if interpreter.controllers.length = position then
        some
          { owner := owner
            invite := request
            call :=
              { globalConfig := server.globalConfig
                nextHop := server.nhAddr } }
      else interpreter.controllers[position]? := by
  unfold Interpreter.withController Interpreter.appendController
  rw [List.getElem?_append]
  split
  · rename_i inside
    rw [if_neg (Nat.ne_of_gt inside)]
  · rename_i outside
    split
    · rename_i same
      subst same
      simp
    · rename_i different
      have beyond : interpreter.controllers.length < position :=
        Nat.lt_of_le_of_ne (Nat.le_of_not_lt outside) different
      rw [List.getElem?_eq_none (Nat.le_of_lt beyond), List.getElem?_eq_none]
      rw [List.length_singleton]
      omega

theorem Shares.enterAdmitted (shares : Shares servers start index seen config) {owner : Nat}
    {request : TrunkRequest} (admitted : (servers owner).admits request = true)
    (taken : (asSystem servers).step config (.enter (.request owner request)) = some next)
    (standing : Standing False start.sipConf next) :
    Shares servers start index
      (seen ++ (projected servers index config (.enter (.request owner request))).toList)
      next := by
  obtain ⟨program, entered, settled⟩ := System.step_enter.mp taken
  simp only [asSystem, Option.ite_none_right_eq_some, Option.some.injEq] at entered
  obtain ⟨idle, isProgram⟩ := entered
  rw [AsInstance.recvRequest_admitted admitted] at isProgram
  have none : config.frames = [] := List.isEmpty_iff.mp idle
  have built : Built False True (receiveInvite (servers owner).app request.toRequest) :=
    receiveInvite_built trivial _ _
  have programWorks : WorksFor config.state.controllers.length index
      (config.state.withController (servers owner) owner request) program := by
    rw [← isProgram]
    exact embed_worksFor built rfl
  have nobody : ∀ frame ∈ ([] : List (Frame Interpreter Outgoing PyError)),
      FrameWorksFor config.state.controllers.length index frame := List.forall_mem_nil _
  obtain ⟨levels, watched, after⟩ := settle_worksFor config.escaped programWorks nobody
  rw [← none, settled] at levels watched after
  have sameLevels : next.state.isEnabledFor = start.isEnabledFor := levels.trans shares.levels
  by_cases own : config.state.controllers.length = index
  · have share : projected servers index config (.enter (.request owner request)) =
        some (.enter (.invite request.toRequest)) := if_pos ⟨admitted, own⟩
    have fresh : config.state.controllers[index]? = Option.none :=
      List.getElem?_eq_none (Nat.le_of_eq own)
    rw [share, (shares.absent fresh).1]
    have found := getElem?_withController (servers owner) owner request config.state index
    rw [if_pos own] at found
    rw [own] at isProgram
    have same : ((config.state.withController (servers owner) owner request).world
        index).SameCall (callAlone servers start owner).state :=
      ⟨Interpreter.callOf_of_getElem? found, shares.standing.conf_of_idle idle, shares.levels⟩
    have programs := embed_mirrors built ⟨_, found, rfl⟩ same
    rw [isProgram] at programs
    have mirrors := settle_mirrors config.escaped ([] : List PyError) programs List.Forall₂.nil
    rw [← none, settled] at mirrors
    have aloneTaken : (callSystem (servers owner).app).step (callAlone servers start owner)
        (.enter (.invite request.toRequest)) = some (settle []
          (receiveInvite (servers owner).app request.toRequest
            (callAlone servers start owner).state) []) := rfl
    exact Shares.own rfl aloneTaken mirrors sameLevels standing
      ⟨config.state.controllers.length, after⟩
  · have share : projected servers index config (.enter (.request owner request)) =
        Option.none := if_neg (fun both => own both.2)
    have unwatched : (config.state.withController (servers owner) owner request).watch index =
        config.state.watch index := by
      have found := getElem?_withController (servers owner) owner request config.state index
      rw [if_neg own] at found
      exact congrArg (fun controller => (controller, config.state.isEnabledFor)) found
    rw [share, Option.toList_none, List.append_nil]
    refine shares.foreign ?_ ?_ ((watched own).trans unwatched) standing ⟨_, after⟩
    · rw [none]
      exact List.forall_mem_nil _
    · intro frame member
      rw [(after frame member).asks.request]
      exact own

theorem Shares.step (shares : Shares servers start index seen config) {action : AsAction}
    (nested : Nested config action)
    (taken : (asSystem servers).step config action = some next) :
    Shares servers start index (seen ++ (projected servers index config action).toList) next := by
  have standing := shares.standing.step False.elim taken
  cases action with
  | comeBack => exact shares.comeBack taken standing
  | enter label =>
      cases label with
      | call other label => exact shares.enterCall nested taken standing
      | request owner request =>
          cases admitted : (servers owner).admits request with
          | true => exact shares.enterAdmitted admitted taken standing
          | false =>
              have share : projected servers index config (.enter (.request owner request)) =
                  none := if_neg (by simp [admitted])
              rw [share, Option.toList_none, List.append_nil]
              exact shares.enterOutside admitted taken standing
      | ruleHit ruleId =>
          have share : projected servers index config (.enter (.ruleHit ruleId)) = none := rfl
          rw [share, Option.toList_none, List.append_nil]
          exact shares.counted ((Option.some.inj taken).symm.trans (settle_ok _ _ _ _)) standing
      | appError code =>
          have share : projected servers index config (.enter (.appError code)) = none := rfl
          rw [share, Option.toList_none, List.append_nil]
          exact shares.counted ((Option.some.inj taken).symm.trans (settle_ok _ _ _ _)) standing

theorem Shares.run (shares : Shares servers start index seen config) {actions : List AsAction}
    {last : AsConfig}
    (nested : (asSystem servers).Along (fun config action _ => Nested config action) config actions)
    (ran : (asSystem servers).run config actions = some last) :
    Shares servers start index (seen ++ projection servers index config actions) last := by
  induction actions generalizing seen config with
  | nil =>
      cases ran
      rw [projection, Transition.observed, List.append_nil]
      exact shares
  | cons action rest ih =>
      obtain ⟨middle, taken, onward⟩ := System.run_cons ran
      obtain ⟨now, later⟩ := nested middle taken
      rw [projection, Transition.observed, taken, ← List.append_assoc]
      exact ih (shares.step now taken) later onward

end Steps

theorem shares_start (servers : Nat → AsInstance) (start : Interpreter) {index : Nat}
    (fresh : start.controllers[index]? = none) :
    Shares servers start index [] (Config.initial start) where
  standing := Standing.initial start
  levels := rfl
  atWork := ⟨index, List.forall_mem_nil _⟩
  absent _ := ⟨rfl, List.forall_mem_nil _⟩
  present controller found := by
    change start.controllers[index]? = some controller at found
    rw [fresh] at found
    cases found

def outgoingOf (index : Nat) (config : AsConfig) : List UaCall :=
  (config.frames.filter fun frame => frame.request.controller = index).map
    fun frame => frame.request.call

theorem Accompanies.outgoing {servers : Nat → AsInstance} {start : Interpreter} {index : Nat}
    {seen : List CallAction} {config : AsConfig} {controller : Controller} {alone : CallConfig}
    (accompanies : Accompanies servers start index seen config controller alone)
    (atWork : OneAtWork index config) :
    outgoingOf index config = alone.frames.map Frame.request := by
  obtain ⟨owner, works⟩ := atWork
  have owned : ∀ frame ∈ config.frames, frame.request.controller = owner :=
    fun frame member => (works frame member).asks.request
  unfold outgoingOf
  by_cases own : owner = index
  · have mirrors := accompanies.mine (fun frame member => (owned frame member).trans own)
    have all : (config.frames.filter fun frame => frame.request.controller = index) =
        config.frames := by
      apply List.filter_eq_self.mpr
      intro frame member
      exact decide_eq_true ((owned frame member).trans own)
    rw [all]
    have same : List.Forall₂ Eq (config.frames.map fun frame => frame.request.call)
        (alone.frames.map Frame.request) := by
      rw [List.forall₂_map_left_iff, List.forall₂_map_right_iff]
      exact mirrors.frames.imp (fun _ _ frame => frame.asked.2)
    rwa [List.forall₂_eq_eq_eq] at same
  · have foreign : ∀ frame ∈ config.frames, frame.request.controller ≠ index := by
      intro frame member
      rw [owned frame member]
      exact own
    have none : (config.frames.filter fun frame => frame.request.controller = index) = [] := by
      apply List.filter_eq_nil_iff.mpr
      intro frame member
      simpa using foreign frame member
    rw [none, (accompanies.quiet foreign).1]
    rfl

theorem enter_sameCall {app : App} {label : Label} {left right : World} {idle : Bool}
    {leftProgram : Prog World UaCall PyError Unit} (same : left.SameCall right)
    (entered : (callSystem app).enter label left idle = some leftProgram) :
    ∃ rightProgram, (callSystem app).enter label right idle = some rightProgram ∧
      Prog.Alike World.SameCall leftProgram rightProgram := by
  rw [callSystem_enter, Option.ite_none_right_eq_some] at entered
  obtain ⟨enabled, isProgram⟩ := entered
  cases isProgram
  have opened : (left.mapCall label.opening).SameCall (right.mapCall label.opening) :=
    ⟨congrArg label.opening same.call, same.sipConf, same.levels⟩
  have built : Built True True (label.handler app) := handler_built trivial trivial app label
  rw [same.call] at enabled
  refine ⟨_, ?_, built.alike_sameCall _ _ opened⟩
  rw [callSystem_enter, if_pos enabled]

instance (config : AsConfig) : ∀ action, Decidable (Nested config action)
  | .enter (.call index _) =>
      match suspended : config.frames with
      | [] => isTrue (by rw [Nested, suspended]; trivial)
      | frame :: _ =>
          decidable_of_iff (frame.request.controller = index) (by rw [Nested, suspended])
  | .enter (.request _ _) | .enter (.ruleHit _) | .enter (.appError _) | .comeBack => isTrue trivial

def sampleTwoCalls : List AsAction :=
  sampleAdmission ++ [.enter (.request 1 (sampleInvite "b2@trunk")), .comeBack,
    .enter (.call 0 (.raises (.leg 0) (.ring none)))]

/-- The same with the call of the second instance first, and an intruder in between. -/
def sampleTurned : List AsAction :=
  [.enter (.request 1 (sampleInvite "b2@trunk")), .comeBack,
    .enter (.request 0 (sampleInvite "a1@trunk")), .comeBack,
    .enter (.request 0 (sampleIntruder "c3@trunk")),
    .enter (.call 1 (.raises .trunk (sampleTry "200"))), .comeBack,
    .enter (.call 1 (.raises (.leg 0) (.ring none)))]

def sampleShare : List CallAction :=
  [.enter (.invite (sampleInvite "a1@trunk").toRequest), .comeBack,
    .enter (.raises .trunk (sampleTry "200")), .comeBack, .enter (.raises (.leg 0) (.ring none))]

theorem found_of_length {last : AsConfig} {count index : Nat}
    (length : last.state.controllers.length = count) (inside : index < count) :
    ∃ controller, last.state.controllers[index]? = some controller := by
  rw [← length] at inside
  exact ⟨_, List.getElem?_eq_getElem inside⟩

end AsPlatform
