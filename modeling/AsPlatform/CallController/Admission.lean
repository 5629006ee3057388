/-
Who gets a call.

What the requests of a run leave behind is read off the run: one controller for each that
is admitted, one answer for each other, and one counted error for each that is refused.
No handler of a controller adds to it.
-/

import AsPlatform.CallController.Overlay

namespace AsPlatform

open Reentrant

def Controller.origin (controller : Controller) : Nat × TrunkRequest :=
  (controller.owner, controller.invite)

structure Ledger where
  origins : List (Nat × TrunkRequest)
  answers : List Response
  errors : OrderedDict String Nat

def Interpreter.ledger (interpreter : Interpreter) : Ledger where
  origins := interpreter.controllers.map Controller.origin
  answers := interpreter.answers
  errors := interpreter.metrics.errorsByCode

def admittedBy (servers : Nat → AsInstance) : AsAction → Option (Nat × TrunkRequest)
  | .enter (.request owner request) =>
      if (servers owner).admits request then some (owner, request) else none
  | _ => none

def answerBy (servers : Nat → AsInstance) : AsAction → Option Response
  | .enter (.request owner request) =>
      ((servers owner).answerTo request).map fun answer =>
        { owner := owner
          request := request
          status := answer.1
          phrase := answer.2 }
  | _ => none

def errorBy (servers : Nat → AsInstance) : AsAction → Option String
  | .enter (.request owner request) =>
      if (servers owner).refuses request then some SkeletonErrorCode.peerNotAllowed.code else none
  | .enter (.appError code) => some code
  | _ => none

def Ledger.after (servers : Nat → AsInstance) (ledger : Ledger) (action : AsAction) : Ledger where
  origins := ledger.origins ++ (admittedBy servers action).toList
  answers := ledger.answers ++ (answerBy servers action).toList
  errors := (errorBy servers action).elim ledger.errors ledger.errors.increment

theorem Ledger.after_of_none {servers : Nat → AsInstance} {action : AsAction} (ledger : Ledger)
    (admitted : admittedBy servers action = none) (answered : answerBy servers action = none)
    (counted : errorBy servers action = none) : ledger.after servers action = ledger := by
  simp [Ledger.after, admitted, answered, counted]

/-- What one controller does is not in the ledger. -/
theorem ledger_setWorld (index : Nat) (interpreter : Interpreter) (world : World) :
    (interpreter.setWorld index world).ledger =
      { interpreter.ledger with errors := world.metrics.errorsByCode } := by
  unfold Interpreter.ledger
  rw [Interpreter.map_controllers_setWorld Controller.origin (fun _ _ => rfl)]
  rfl

theorem embed_spares {index : Nat} {interpreter : Interpreter} {handler : Ctl Unit}
    {asFound pins : Prop} (built : Built asFound pins handler) {world : World}
    (same : world.metrics = interpreter.metrics) :
    ((handler world).embed (place index) interpreter).Spares Interpreter.ledger
      interpreter.ledger := by
  have spares := built.spares world
  rw [same] at spares
  exact Prog.Spares.embed (fun ledger errors => { ledger with errors := errors })
    (ledger_setWorld index) (fun whole => rfl) interpreter spares

/-- What a label adds to the ledger it adds at once. -/
theorem enter_ledger {servers : Nat → AsInstance} {label : AsLabel} {interpreter : Interpreter}
    {idle : Bool} {program : Prog Interpreter Outgoing PyError Unit}
    (entered : (asSystem servers).enter label interpreter idle = some program) :
    program.Spares Interpreter.ledger (interpreter.ledger.after servers (.enter label)) := by
  cases label with
  | ruleHit ruleId =>
      cases entered
      rw [Ledger.after_of_none _ rfl rfl rfl]
      exact rfl
  | appError code =>
      cases entered
      simp only [Ledger.after, admittedBy, answerBy, errorBy, Option.toList_none, List.append_nil,
        Option.elim_some]
      exact rfl
  | call index label =>
      obtain ⟨controller, _, _, _, rfl⟩ := asSystem_enter_call.mp entered
      have built : Built True True (label.handler (servers controller.owner).app) :=
        handler_built trivial trivial _ label
      rw [Ledger.after_of_none _ rfl rfl rfl]
      exact embed_spares built rfl
  | request owner request =>
      simp only [asSystem, Option.ite_none_right_eq_some, Option.some.injEq] at entered
      obtain ⟨rfl, rfl⟩ := entered
      cases answered : (servers owner).answerTo request with
      | none =>
          have admitted := (AsInstance.answerTo_eq_none_iff _ _).mp answered
          have built : Built False True (receiveInvite (servers owner).app request.toRequest) :=
            receiveInvite_built trivial _ _
          have created : interpreter.ledger.after servers (.enter (.request owner request)) =
              (interpreter.withController (servers owner) owner request).ledger := by
            simp [Ledger.after, admittedBy, answerBy, errorBy, answered, admitted,
              AsInstance.not_refuses_of_admits admitted, Interpreter.ledger,
              Interpreter.withController, Interpreter.appendController, Controller.origin]
          rw [AsInstance.recvRequest_admitted admitted, created]
          exact embed_spares built rfl
      | some answer =>
          have outside : (servers owner).admits request = false := by
            by_contra admitted
            rw [Bool.not_eq_false, ← AsInstance.answerTo_eq_none_iff, answered] at admitted
            cases admitted
          cases refused : (servers owner).refuses request with
          | true =>
              rw [AsInstance.recvRequest_refused refused]
              rw [AsInstance.answerTo_of_refuses refused] at answered
              cases answered
              simp only [Ledger.after, admittedBy, answerBy, errorBy, outside, refused,
                AsInstance.answerTo_of_refuses refused]
              simp only [Bool.false_eq_true, if_false, if_true, Option.toList_none,
                List.append_nil, Option.map_some, Option.toList_some, Option.elim_some]
              exact rfl
          | false =>
              rw [AsInstance.recvRequest_declined refused answered]
              simp only [Ledger.after, admittedBy, answerBy, errorBy, outside, refused, answered]
              simp only [Bool.false_eq_true, if_false, Option.toList_none, List.append_nil,
                Option.map_some, Option.toList_some, Option.elim_none]
              exact rfl

/-! ### Runs -/

/-- No suspended handler has anything left to add. -/
def Settled (config : AsConfig) : Prop :=
  ∀ frame, frame ∈ config.frames → frame.Spares Interpreter.ledger

theorem ledger_step {servers : Nat → AsInstance} {config next : AsConfig} {action : AsAction}
    (settled : Settled config) (taken : (asSystem servers).step config action = some next) :
    next.state.ledger = config.state.ledger.after servers action ∧ Settled next := by
  cases action with
  | enter label =>
      obtain ⟨program, entered, rfl⟩ := System.step_enter.mp taken
      exact settle_spares _ (enter_ledger entered) settled
  | comeBack =>
      rw [Ledger.after_of_none _ rfl rfl rfl]
      obtain ⟨frame, older, suspended, rfl⟩ := System.step_comeBack.mp taken
      unfold Settled at settled
      rw [suspended] at settled
      obtain ⟨first, others⟩ := List.forall_mem_cons.mp settled
      exact settle_spares _ (first config.state (.ok ())) others

/-- The ledger of a run is read off its actions. -/
theorem ledger_run {servers : Nat → AsInstance} {config last : AsConfig}
    (settled : Settled config) (actions : List AsAction)
    (ran : (asSystem servers).run config actions = some last) :
    last.state.ledger = actions.foldl (Ledger.after servers) config.state.ledger := by
  induction actions generalizing config with
  | nil =>
      cases ran
      rfl
  | cons action rest ih =>
      obtain ⟨next, taken, onward⟩ := Option.bind_eq_some_iff.mp ran
      obtain ⟨ledger, stillSettled⟩ := ledger_step settled taken
      rw [ih stillSettled onward, ledger, List.foldl_cons]

theorem origins_foldl (servers : Nat → AsInstance) (actions : List AsAction)
    (ledger : Ledger) : (actions.foldl (Ledger.after servers) ledger).origins =
      ledger.origins ++ actions.filterMap (admittedBy servers) := by
  induction actions generalizing ledger with
  | nil => simp
  | cons action rest ih =>
      rw [List.foldl_cons, ih, filterMap_cons_toList, ← List.append_assoc]
      rfl

theorem answers_foldl (servers : Nat → AsInstance) (actions : List AsAction)
    (ledger : Ledger) : (actions.foldl (Ledger.after servers) ledger).answers =
      ledger.answers ++ actions.filterMap (answerBy servers) := by
  induction actions generalizing ledger with
  | nil => simp
  | cons action rest ih =>
      rw [List.foldl_cons, ih, filterMap_cons_toList, ← List.append_assoc]
      rfl

theorem errors_foldl (servers : Nat → AsInstance) (actions : List AsAction)
    (ledger : Ledger) (code : String) :
    ((actions.foldl (Ledger.after servers) ledger).errors.get? code).getD 0 =
      (ledger.errors.get? code).getD 0 + (actions.filterMap (errorBy servers)).count code := by
  induction actions generalizing ledger with
  | nil => rfl
  | cons action rest ih =>
      rw [List.foldl_cons, ih]
      cases counted : errorBy servers action with
      | none =>
          rw [List.filterMap_cons_none counted]
          simp [Ledger.after, counted]
      | some other =>
          rw [List.filterMap_cons_some counted, List.count_cons]
          simp only [Ledger.after, counted, Option.elim_some, OrderedDict.getD_increment,
            beq_iff_eq]
          omega

/-! ### The controller of an admitted request -/

theorem settle_nil_state (escaped : List PyError)
    (program : Prog Interpreter Outgoing PyError Unit) :
    (settle escaped program []).state = program.stop := by
  cases program with
  | call state request resume => rfl
  | ret state result => cases result <;> rfl

def AsInstance.handed (server : AsInstance) (request : TrunkRequest) (process : Process) :
    World :=
  (receiveInvite server.app request.toRequest
    (process.newCall server.globalConfig server.nhAddr)).stop

/-- Of all requests the admitted ones create a controller, and touch no other. -/
def CreatesOne (servers : Nat → AsInstance) (config : AsConfig) (action : AsAction)
    (next : AsConfig) : Prop :=
  ∀ owner request, action = .enter (.request owner request) →
    next.state.controllers = config.state.controllers ++
      if (servers owner).admits request then
        [{ owner := owner
           invite := request
           call := ((servers owner).handed request config.state.toProcess).toCall }]
      else []

theorem createsOne {servers : Nat → AsInstance} {config next : AsConfig} {action : AsAction}
    (taken : (asSystem servers).step config action = some next) :
    CreatesOne servers config action next := by
  rintro owner request rfl
  obtain ⟨program, entered, rfl⟩ := System.step_enter.mp taken
  simp only [asSystem, Option.ite_none_right_eq_some, Option.some.injEq] at entered
  obtain ⟨idle, rfl⟩ := entered
  rw [Config.idle, List.isEmpty_iff] at idle
  rw [idle, settle_nil_state]
  cases admitted : (servers owner).admits request with
  | true =>
      have fresh : (config.state.withController (servers owner) owner request).world
          config.state.controllers.length =
            config.state.toProcess.newCall (servers owner).globalConfig (servers owner).nhAddr := by
        simp [Interpreter.world, Interpreter.callOf, Interpreter.withController,
          Interpreter.appendController, Process.newCall]
      rw [AsInstance.recvRequest_admitted admitted, Prog.stop_embed, fresh]
      exact List.modifyTailIdx_add _ 0 config.state.controllers _
  | false =>
      rw [if_neg Bool.false_ne_true, List.append_nil]
      cases refused : (servers owner).refuses request with
      | true =>
          rw [AsInstance.recvRequest_refused refused]
          rfl
      | false =>
          cases answered : (servers owner).answerTo request with
          | some answer =>
              rw [AsInstance.recvRequest_declined refused answered]
              rfl
          | none =>
              rw [AsInstance.answerTo_eq_none_iff, admitted] at answered
              cases answered

/-! ### Two runs -/

def dropsOutsiders (servers : Nat → AsInstance) (owner : Nat) (request : TrunkRequest) : Bool :=
  !(servers owner).admits request

structure OnlyAdmitted (servers : Nat → AsInstance) (start : Interpreter)
    (actions : List AsAction) (last only : AsConfig) : Prop where
  controllers : last.state.controllers = only.state.controllers
  callsTotal : last.state.metrics.callsTotal = only.state.metrics.callsTotal
  callsByDisposition : last.state.metrics.callsByDisposition =
    only.state.metrics.callsByDisposition
  ruleHits : last.state.metrics.ruleHits = only.state.metrics.ruleHits
  peerStatus : last.state.metrics.peerStatus = only.state.metrics.peerStatus
  created : last.state.controllers.map Controller.origin =
    start.controllers.map Controller.origin ++ actions.filterMap (admittedBy servers)
  fresh : (asSystem servers).Along (CreatesOne servers) (Config.initial start) actions
  answered : last.state.answers = start.answers ++ actions.filterMap (answerBy servers)
  errors : ∀ code, (last.state.metrics.errorsByCode.get? code).getD 0 =
    (start.metrics.errorsByCode.get? code).getD 0 +
      (actions.filterMap (errorBy servers)).count code

/-- Only admitted INVITEs create call state. -/
theorem only_admitted (servers : Nat → AsInstance) (start : Interpreter)
    (actions : List AsAction) (last : AsConfig)
    (ran : (asSystem servers).run (Config.initial start) actions = some last) :
    ∃ only, (asSystem servers).run (Config.initial start)
        (actions.filter (leaves (dropsOutsiders servers))) = some only ∧
      OnlyAdmitted servers start actions last only := by
  have overlays : Overlays (fun _ _ _ => True) :=
    ⟨fun _ _ _ _ _ => trivial, fun _ _ _ _ _ => trivial⟩
  have refusedToo : ∀ owner request, (servers owner).refuses request = true →
      dropsOutsiders servers owner request = true := by
    intro owner request refused
    by_contra admitted
    unfold dropsOutsiders at admitted
    rw [Bool.not_eq_true, Bool.not_eq_false'] at admitted
    rw [AsInstance.not_refuses_of_admits admitted] at refused
    cases refused
  have outside : ∀ owner request, dropsOutsiders servers owner request = true →
      (servers owner).admits request = false := by
    intro owner request dropped
    unfold dropsOutsiders at dropped
    rwa [Bool.not_eq_true'] at dropped
  obtain ⟨only, onlyRan, beside⟩ := run_without_from overlays refusedToo outside trivial
    actions ran
  have ledger := ledger_run (fun frame member => absurd member List.not_mem_nil) actions ran
  have metrics := beside.process.metrics
  simp only [MetricsRegistry.apartErrors, MetricsRegistry.mk.injEq] at metrics
  obtain ⟨total, dispositions, _, hits, status, _⟩ := metrics
  refine ⟨only, onlyRan, beside.controllers, total, dispositions, hits, status, ?_, ?_, ?_, ?_⟩
  · exact (congrArg Ledger.origins ledger).trans (origins_foldl servers actions start.ledger)
  · exact System.along_of_invariant (fun _ => True) trivial
      (fun _ _ _ _ taken => ⟨trivial, createsOne taken⟩) actions
  · exact (congrArg Ledger.answers ledger).trans (answers_foldl servers actions start.ledger)
  · intro code
    have errors := errors_foldl servers actions start.ledger code
    have counters : last.state.metrics.errorsByCode =
        (actions.foldl (Ledger.after servers) start.ledger).errors :=
      congrArg Ledger.errors ledger
    rw [counters]
    exact errors

/-- An admitted call, among it a refused INVITE, one within a dialog, and another method. -/
def sampleMixed : List AsAction :=
  .enter (.request 1 (sampleIntruder "b2@trunk")) :: sampleAdmission ++
    [.enter (.request 0 { sampleInvite "a1@trunk" with toTag := some "x" }),
      .enter (.request 0 { sampleInvite "c3@trunk" with method := "OPTIONS" }),
      .enter (.request 0 (sampleIntruder "a1@trunk"))]

theorem only_admitted_mixed :
    ∃ last only,
      (asSystem sampleServer).run (Config.initial (sampleInterpreter 4)) sampleMixed = some last ∧
      (asSystem sampleServer).run (Config.initial (sampleInterpreter 4))
        (sampleMixed.filter (leaves (dropsOutsiders sampleServer))) = some only ∧
      OnlyAdmitted sampleServer (sampleInterpreter 4) sampleMixed last only := by
  obtain ⟨only, onlyRan, admitted⟩ :=
    only_admitted sampleServer (sampleInterpreter 4) sampleMixed _ rfl
  exact ⟨_, only, rfl, onlyRan, admitted⟩

end AsPlatform
