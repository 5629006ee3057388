/-
Setting up a call.

Two hooks of the application are called while the map sets up a call: the one that builds
the controller, before the controller is remembered, and the one that gives the fields of
the INVITE, after that and before the call is counted.  What they do may depend on anything,
so each request comes with what they do for it.
-/

import AsPlatform.CallController.Interpreter
import AsPlatform.CallController.Written

namespace AsPlatform

open Reentrant

/-- What `_build_controller` and `_inbound_fields` do for a request. -/
structure SetupHooks where
  buildController : Except PyError Unit
  inboundFields : Except PyError Fields

namespace SetupHooks

def app (hooks : SetupHooks) (app : App) : App :=
  { app with inboundFields := fun _ => hooks.inboundFields }

def Raises (hooks : SetupHooks) : Prop :=
  (∃ error, hooks.buildController = .error error) ∨ ∃ error, hooks.inboundFields = .error error

end SetupHooks

namespace AsInstance

/-- `_new_controller`, with the hook that builds the controller. -/
def newControllerBy (server : AsInstance) (hooks : SetupHooks) (owner : Nat)
    (request : TrunkRequest) : Shell Nat := do
  Handler.ofExcept hooks.buildController
  newController server owner request

def recvRequestBy (server : AsInstance) (hooks : SetupHooks) (owner : Nat)
    (request : TrunkRequest) : Shell Unit := do
  let source := sourceAddress request.toRequest
  if !isAllowedPeer source server.allowedPeers then
    rejectPeer owner request source (sourcePeer request.toRequest)
  else if request.toTag.isSome then
    genResponse owner request 481 "Call Leg/Transaction Does Not Exist"
  else if request.method ≠ "INVITE" then
    genResponse owner request 501 "Not Implemented"
  else
    let controller ← newControllerBy server hooks owner request
    Handler.within (place controller) (receiveInvite (hooks.app server.app) request.toRequest)

end AsInstance

/-- A request comes with its hooks; whatever else happens does as before. -/
inductive SetupLabel where
  | request (owner : Nat) (request : TrunkRequest) (hooks : SetupHooks)
  | other (label : AsLabel)

def setupSystem (servers : Nat → AsInstance) : System Interpreter Outgoing PyError SetupLabel where
  enter label interpreter idle :=
    match label with
    | .request owner request hooks =>
        if idle then some ((servers owner).recvRequestBy hooks owner request interpreter) else none
    | .other (.request _ _) => none
    | .other label => (asSystem servers).enter label interpreter idle

abbrev SetupConfig : Type := Config Interpreter Outgoing PyError

abbrev SetupAction : Type := Action SetupLabel

/-! ### The property -/

structure Interpreter.Untouched (before after : Interpreter) : Prop where
  controllers : after.controllers = before.controllers
  callsTotal : after.metrics.callsTotal = before.metrics.callsTotal
  peerStatus : after.metrics.peerStatus = before.metrics.peerStatus
  traces : after.tracer = before.tracer

/-- An admitted INVITE of which a hook raises leaves nothing behind, and as many calls are
counted as controllers remembered. -/
structure AllOrNothing (servers : Nat → AsInstance) (start : Interpreter) (config : SetupConfig)
    (action : SetupAction) (next : SetupConfig) : Prop where
  nothing : ∀ owner request hooks, action = .enter (.request owner request hooks) →
    (servers owner).admits request = true → hooks.Raises →
      config.state.Untouched next.state
  counted : next.state.controllers.length + start.metrics.callsTotal =
    start.controllers.length + next.state.metrics.callsTotal

def FieldsGiven (servers : Nat → AsInstance) (action : SetupAction) : Prop :=
  ∀ owner request hooks, action = .enter (.request owner request hooks) →
    (servers owner).admits request = true → hooks.buildController = .ok () →
      ∃ fields, hooks.inboundFields = .ok fields

/-! ### What `recv_request` does -/

namespace AsInstance

variable {server : AsInstance} {hooks : SetupHooks} {owner : Nat} {request : TrunkRequest}
  {interpreter : Interpreter}

/-- With the hooks that the application has, it is `recv_request` as it was. -/
theorem recvRequestBy_own (built : hooks.buildController = .ok ())
    (own : hooks.inboundFields = server.app.inboundFields request.toRequest) :
    server.recvRequestBy hooks owner request interpreter =
      server.recvRequest owner request interpreter := by
  have same : receiveInvite (hooks.app server.app) request.toRequest =
      receiveInvite server.app request.toRequest := by
    simp only [receiveInvite, AsPlatform.recvRequest, admitInvite, SetupHooks.app, own]
  unfold recvRequestBy recvRequest newControllerBy
  rw [same, built]
  rfl

/-- No hook is called for a request that is not admitted. -/
theorem recvRequestBy_declined (declined : server.admits request = false) :
    server.recvRequestBy hooks owner request = server.recvRequest owner request := by
  unfold recvRequestBy recvRequest
  dsimp only
  split
  · rfl
  · rename_i allowed
    split
    · rfl
    · rename_i fresh
      split
      · rfl
      · rename_i invite
        rw [Bool.not_eq_true] at allowed fresh
        have admitted : server.admits request = true := by
          simp only [admits, refuses, allowed, Bool.not_false, Bool.true_and, Bool.and_eq_true,
            decide_eq_true_eq, Option.isNone_iff_eq_none]
          exact ⟨Option.not_isSome_iff_eq_none.mp (by rw [fresh]; exact Bool.false_ne_true),
            not_not.mp invite⟩
        rw [declined] at admitted
        cases admitted

/-- An admitted INVITE gets to the hooks. -/
theorem recvRequestBy_admitted (admitted : server.admits request = true) :
    server.recvRequestBy hooks owner request interpreter =
      (do
        let controller ← newControllerBy server hooks owner request
        Handler.within (place controller)
          (receiveInvite (hooks.app server.app) request.toRequest)) interpreter := by
  simp only [admits, Bool.and_eq_true, Bool.not_eq_true', decide_eq_true_eq,
    Option.isNone_iff_eq_none] at admitted
  obtain ⟨⟨allowed, fresh⟩, invite⟩ := admitted
  unfold refuses at allowed
  simp only [recvRequestBy, allowed, fresh, invite, Option.isSome_none, Bool.false_eq_true,
    if_false, ne_eq, not_true_eq_false]

theorem recvRequestBy_unbuilt (admitted : server.admits request = true) {error : PyError}
    (unbuilt : hooks.buildController = .error error) :
    server.recvRequestBy hooks owner request interpreter = .ret interpreter (.error error) := by
  rw [recvRequestBy_admitted admitted]
  simp only [newControllerBy, Handler.run_bind, Handler.run_ofExcept, unbuilt, Prog.bind_error]

theorem recvRequestBy_built (admitted : server.admits request = true)
    (built : hooks.buildController = .ok ()) :
    server.recvRequestBy hooks owner request interpreter =
      (receiveInvite (hooks.app server.app) request.toRequest
        ((interpreter.withController server owner request).world
          interpreter.controllers.length)).embed (place interpreter.controllers.length)
            (interpreter.withController server owner request) := by
  rw [recvRequestBy_admitted admitted]
  simp only [newControllerBy, Handler.run_bind, Handler.run_ofExcept, built, Prog.bind_ok]
  rfl

end AsInstance

/-! ### Controllers and counted calls -/

def Interpreter.tally (interpreter : Interpreter) : Nat × Nat :=
  (interpreter.controllers.length, interpreter.metrics.callsTotal)

theorem tally_setWorld (index : Nat) (interpreter : Interpreter) (world : World) :
    (interpreter.setWorld index world).tally =
      (interpreter.tally.1, world.told.callsTotal) := by
  have length : (interpreter.setWorld index world).controllers.length =
      interpreter.controllers.length := List.length_modify _ _ _
  rw [Interpreter.tally, length]
  rfl

/-- What a controller does to the tally is what it does to the number of calls. -/
theorem embed_tally {index : Nat} {interpreter : Interpreter}
    {program : Prog World UaCall PyError Unit} {entry : Nat}
    (spares : program.Spares (fun world => world.told.callsTotal) entry) :
    (program.embed (place index) interpreter).Spares Interpreter.tally
      (interpreter.controllers.length, entry) :=
  Prog.Spares.embed_entry (fun tally callsTotal => (tally.1, callsTotal)) (tally_setWorld index)
    (fun _ => rfl) interpreter spares

def Balanced (before after : Nat × Nat) : Prop :=
  after.1 + before.2 = before.1 + after.2

theorem Balanced.refl (tally : Nat × Nat) : Balanced tally tally := rfl

theorem Balanced.trans {first second third : Nat × Nat} (earlier : Balanced first second)
    (later : Balanced second third) : Balanced first third := by
  unfold Balanced at *
  omega

theorem asSystem_balanced {servers : Nat → AsInstance} {label : AsLabel}
    {interpreter : Interpreter} {idle : Bool} {program : Prog Interpreter Outgoing PyError Unit}
    (noRequest : ∀ owner request, label ≠ .request owner request)
    (entered : (asSystem servers).enter label interpreter idle = some program) :
    program.Spares Interpreter.tally interpreter.tally := by
  cases label with
  | request owner request => exact absurd rfl (noRequest owner request)
  | ruleHit ruleId =>
      cases entered
      exact rfl
  | appError code =>
      cases entered
      exact rfl
  | call index label =>
      obtain ⟨controller, _, notInvite, _, rfl⟩ := asSystem_enter_call.mp entered
      have other : ∀ request, label ≠ .invite request := by
        intro request isInvite
        rw [isInvite] at notInvite
        cases notInvite
      have writes := handler_writes (servers controller.owner).app other
        ((interpreter.world index).mapCall label.opening)
      exact embed_tally (writes.spares Told.callsTotal (fun _ _ grows => grows.callsTotal))

theorem declined_balanced {server : AsInstance} {owner : Nat} {request : TrunkRequest}
    {interpreter : Interpreter} (declined : server.admits request = false) :
    (server.recvRequest owner request interpreter).Spares Interpreter.tally interpreter.tally := by
  cases answered : server.answerTo request with
  | none =>
      rw [AsInstance.answerTo_eq_none_iff, declined] at answered
      cases answered
  | some answer =>
      cases refused : server.refuses request with
      | true =>
          rw [AsInstance.recvRequest_refused refused]
          exact rfl
      | false =>
          rw [AsInstance.recvRequest_declined refused answered]
          exact rfl

theorem setupSystem_enter_other {servers : Nat → AsInstance} {label : AsLabel}
    {interpreter : Interpreter} {idle : Bool} {program : Prog Interpreter Outgoing PyError Unit}
    (entered : (setupSystem servers).enter (.other label) interpreter idle = some program) :
    (∀ owner request, label ≠ .request owner request) ∧
      (asSystem servers).enter label interpreter idle = some program := by
  cases label with
  | request owner request => cases entered
  | call index label => exact ⟨fun _ _ => nofun, entered⟩
  | ruleHit ruleId => exact ⟨fun _ _ => nofun, entered⟩
  | appError code => exact ⟨fun _ _ => nofun, entered⟩

theorem setupSystem_enter_request {servers : Nat → AsInstance} {owner : Nat}
    {request : TrunkRequest} {hooks : SetupHooks} {interpreter : Interpreter} {idle : Bool}
    {program : Prog Interpreter Outgoing PyError Unit} :
    (setupSystem servers).enter (.request owner request hooks) interpreter idle = some program ↔
      idle = true ∧ (servers owner).recvRequestBy hooks owner request interpreter = program := by
  simp only [setupSystem, Option.ite_none_right_eq_some, Option.some.injEq]

/-- Under the condition a step adds as many controllers as calls, at once. -/
theorem enter_balanced {servers : Nat → AsInstance} {label : SetupLabel}
    {interpreter : Interpreter} {idle : Bool} {program : Prog Interpreter Outgoing PyError Unit}
    (given : FieldsGiven servers (.enter label))
    (entered : (setupSystem servers).enter label interpreter idle = some program) :
    ∃ entry, program.Spares Interpreter.tally entry ∧ Balanced interpreter.tally entry := by
  cases label with
  | other label =>
      obtain ⟨noRequest, inner⟩ := setupSystem_enter_other entered
      exact ⟨interpreter.tally, asSystem_balanced noRequest inner, Balanced.refl _⟩
  | request owner request hooks =>
      obtain ⟨_, rfl⟩ := setupSystem_enter_request.mp entered
      cases admitted : (servers owner).admits request with
      | false =>
          rw [AsInstance.recvRequestBy_declined admitted]
          exact ⟨interpreter.tally, declined_balanced admitted, Balanced.refl _⟩
      | true =>
          cases built : hooks.buildController with
          | error error =>
              rw [AsInstance.recvRequestBy_unbuilt admitted built]
              exact ⟨interpreter.tally, rfl, Balanced.refl _⟩
          | ok done =>
              obtain ⟨fields, isGiven⟩ := given owner request hooks rfl admitted built
              rw [AsInstance.recvRequestBy_built admitted built]
              refine ⟨_, embed_tally (receiveInvite_counts isGiven _), ?_⟩
              change (interpreter.controllers ++ [_]).length + _ = _ + (_ + 1)
              rw [List.length_append, List.length_singleton]
              exact Nat.add_right_comm _ _ _

/-! ### Runs -/

structure SetUp (start : Interpreter) (config : SetupConfig) : Prop where
  settled : ∀ frame, frame ∈ config.frames → frame.Spares Interpreter.tally
  balanced : Balanced start.tally config.state.tally

theorem SetUp.step {servers : Nat → AsInstance} {start : Interpreter} {config next : SetupConfig}
    {action : SetupAction} (setUp : SetUp start config) (given : FieldsGiven servers action)
    (taken : (setupSystem servers).step config action = some next) : SetUp start next := by
  cases action with
  | enter label =>
      obtain ⟨program, entered, settled⟩ := System.step_enter.mp taken
      obtain ⟨entry, spares, balanced⟩ := enter_balanced given entered
      obtain ⟨isEntry, still⟩ := settle_spares config.escaped spares setUp.settled
      rw [settled] at isEntry still
      refine ⟨still, ?_⟩
      rw [isEntry]
      exact setUp.balanced.trans balanced
  | comeBack =>
      obtain ⟨frame, older, suspended, settled⟩ := System.step_comeBack.mp taken
      have before := setUp.settled
      rw [suspended] at before
      obtain ⟨first, others⟩ := List.forall_mem_cons.mp before
      obtain ⟨isEntry, still⟩ :=
        settle_spares config.escaped (first config.state (.ok ())) others
      rw [settled] at isEntry still
      refine ⟨still, ?_⟩
      rw [isEntry]
      exact setUp.balanced

/-- A hook that builds no controller leaves nothing behind. -/
theorem untouched_of_unbuilt {servers : Nat → AsInstance} {config next : SetupConfig}
    {owner : Nat} {request : TrunkRequest} {hooks : SetupHooks}
    (admitted : (servers owner).admits request = true) {error : PyError}
    (unbuilt : hooks.buildController = .error error)
    (taken : (setupSystem servers).step config (.enter (.request owner request hooks)) =
      some next) : config.state.Untouched next.state := by
  obtain ⟨program, entered, settled⟩ := System.step_enter.mp taken
  obtain ⟨idle, isProgram⟩ := setupSystem_enter_request.mp entered
  have alone : config.frames = [] := List.isEmpty_iff.mp idle
  rw [AsInstance.recvRequestBy_unbuilt admitted unbuilt] at isProgram
  rw [← isProgram, alone] at settled
  rw [← settled]
  exact ⟨rfl, rfl, rfl, rfl⟩

/-- A hook that refuses the fields leaves a controller behind. -/
theorem controllers_of_refused {servers : Nat → AsInstance} {config next : SetupConfig}
    {owner : Nat} {request : TrunkRequest} {hooks : SetupHooks}
    (admitted : (servers owner).admits request = true) (built : hooks.buildController = .ok ())
    {error : PyError} (refused : hooks.inboundFields = .error error)
    (taken : (setupSystem servers).step config (.enter (.request owner request hooks)) =
      some next) :
    next.state.controllers.length = config.state.controllers.length + 1 := by
  obtain ⟨program, entered, settled⟩ := System.step_enter.mp taken
  obtain ⟨idle, isProgram⟩ := setupSystem_enter_request.mp entered
  have alone : config.frames = [] := List.isEmpty_iff.mp idle
  have raised : (hooks.app (servers owner).app).inboundFields request.toRequest = .error error :=
    refused
  rw [AsInstance.recvRequestBy_built admitted built, receiveInvite_refused raised] at isProgram
  rw [← isProgram, alone] at settled
  rw [← settled]
  exact (List.length_modify _ _ _).trans List.length_append

/-- With the fields given, a raising hook is the one that builds the controller, and it
leaves nothing behind; otherwise a controller is left that is not counted. -/
theorem allOrNothing_iff {servers : Nat → AsInstance} {start : Interpreter}
    {config next : SetupConfig} {action : SetupAction} (setUp : SetUp start config)
    (taken : (setupSystem servers).step config action = some next) :
    AllOrNothing servers start config action next ↔ FieldsGiven servers action := by
  constructor
  · intro holds owner request hooks isRequest admitted built
    cases given : hooks.inboundFields with
    | ok fields => exact ⟨fields, rfl⟩
    | error error =>
        have untouched := holds.nothing owner request hooks isRequest admitted
          (Or.inr ⟨error, given⟩)
        rw [isRequest] at taken
        have grown := controllers_of_refused admitted built given taken
        rw [untouched.controllers] at grown
        omega
  · intro given
    refine ⟨?_, (setUp.step given taken).balanced⟩
    intro owner request hooks isRequest admitted raises
    cases built : hooks.buildController with
    | error error =>
        rw [isRequest] at taken
        exact untouched_of_unbuilt admitted built taken
    | ok done =>
        obtain ⟨fields, isGiven⟩ := given owner request hooks isRequest admitted built
        rcases raises with ⟨error, unbuilt⟩ | ⟨error, refused⟩
        · rw [built] at unbuilt
          cases unbuilt
        · rw [isGiven] at refused
          cases refused

/-- Whatever state the maps are in, setting up a call is all or nothing in a run exactly if
no admitted INVITE of the run gets a controller without getting its fields. -/
theorem admission_allOrNothing_iff (servers : Nat → AsInstance) (start : Interpreter)
    (actions : List SetupAction) :
    (setupSystem servers).Along (AllOrNothing servers start) (Config.initial start) actions ↔
      (setupSystem servers).Along (fun _ action _ => FieldsGiven servers action)
        (Config.initial start) actions := by
  apply System.along_iff_along (SetUp start)
  · exact ⟨fun frame member => absurd member List.not_mem_nil, Balanced.refl _⟩
  · intro config action next setUp given taken
    exact setUp.step given taken
  · intro config action next setUp taken
    exact allOrNothing_iff setUp taken

/-- The Request-URI of the INVITE has no user part, and `extract_called_number` raises. -/
def sampleUserless : SetupAction :=
  .enter (.request 0 (sampleInvite "a1@trunk")
    { buildController := .ok ()
      inboundFields := .error (.raisedByHook "AsError") })

theorem not_admission_allOrNothing :
    (sampleServer 0).admits (sampleInvite "a1@trunk") = true ∧
      ∃ last, (setupSystem sampleServer).run (Config.initial (sampleInterpreter 4))
        [sampleUserless] = some last ∧
      last.state.controllers.length = 1 ∧ last.state.metrics.callsTotal = 0 ∧
      ¬(setupSystem sampleServer).Along (AllOrNothing sampleServer (sampleInterpreter 4))
        (Config.initial (sampleInterpreter 4)) [sampleUserless] := by
  refine ⟨by decide, _, rfl, rfl, rfl, ?_⟩
  intro along
  have grown := ((along _ rfl).1).counted
  cases grown

end AsPlatform
