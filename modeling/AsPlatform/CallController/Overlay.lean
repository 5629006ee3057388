/-
Requests that create no call, and the calls.

A run is compared with the run that is left when some of the requests no map admits are
taken out.  The two go on side by side: they differ in the error counters, the log, the
answers, and in the events of refused requests among what is traced.
-/

import AsPlatform.CallController.Built
import AsPlatform.CallController.Interpreter

namespace AsPlatform

open Reentrant

structure Interpreter.Beside (traces : TraceRecorder → TraceRecorder → Prop)
    (left right : Interpreter) : Prop where
  controllers : left.controllers = right.controllers
  process : left.toProcess.Beside traces right.toProcess

namespace Interpreter.Beside

variable {traces : TraceRecorder → TraceRecorder → Prop} {left right : Interpreter}

theorem world (beside : left.Beside traces right) (index : Nat) :
    (left.world index).Beside traces (right.world index) := by
  refine ⟨?_, beside.process⟩
  change left.callOf index = right.callOf index
  rw [Interpreter.callOf, Interpreter.callOf, beside.controllers]

theorem setWorld (beside : left.Beside traces right) (index : Nat)
    {leftWorld rightWorld : World} (worlds : leftWorld.Beside traces rightWorld) :
    (left.setWorld index leftWorld).Beside traces (right.setWorld index rightWorld) := by
  refine ⟨?_, worlds.process⟩
  change left.controllers.modify index _ = right.controllers.modify index _
  rw [beside.controllers, worlds.call]

theorem withController (beside : left.Beside traces right) (server : AsInstance) (owner : Nat)
    (request : TrunkRequest) : (left.withController server owner request).Beside traces
      (right.withController server owner request) :=
  ⟨congrArg (· ++ [_]) beside.controllers, beside.process⟩

variable (records : ∀ left right event, traces left right →
  traces (left.record event) (right.record event))

include records

theorem embed_alike (beside : left.Beside traces right) (index : Nat) {handler : Ctl Unit}
    {asFound pins : Prop} (built : Built asFound pins handler) {leftWorld rightWorld : World}
    (worlds : leftWorld.Beside traces rightWorld) :
    Prog.Alike (Interpreter.Beside traces) ((handler leftWorld).embed (place index) left)
      ((handler rightWorld).embed (place index) right) := by
  refine Prog.Alike.embed ?_ ?_ ?_ (built.alike records leftWorld rightWorld worlds) beside
  · exact fun left right beside => beside.world index
  · exact fun left right leftWorld rightWorld beside worlds => beside.setWorld index worlds
  · intro leftWorld rightWorld request worlds
    have config : leftWorld.globalConfig = rightWorld.globalConfig :=
      congrArg (fun call : Call => call.globalConfig) worlds.call
    exact congrArg (fun config => (⟨index, config, request⟩ : Outgoing)) config

theorem recvRequest_alike (beside : left.Beside traces right) (server : AsInstance)
    (owner : Nat) (request : TrunkRequest) :
    Prog.Alike (Interpreter.Beside traces) (server.recvRequest owner request left)
      (server.recvRequest owner request right) := by
  cases refused : server.refuses request with
  | true =>
      rw [AsInstance.recvRequest_refused refused, AsInstance.recvRequest_refused refused]
      exact .ret ⟨beside.controllers, beside.process.sipConf, beside.process.levels,
        beside.process.metrics, records _ _ _ beside.process.tracer⟩ (.ok ())
  | false =>
      cases answered : server.answerTo request with
      | some answer =>
          rw [AsInstance.recvRequest_declined refused answered,
            AsInstance.recvRequest_declined refused answered]
          exact .ret ⟨beside.controllers, beside.process⟩ (.ok ())
      | none =>
          rw [AsInstance.answerTo_eq_none_iff] at answered
          rw [AsInstance.recvRequest_admitted answered, AsInstance.recvRequest_admitted answered,
            beside.controllers]
          have built : Built False True (receiveInvite server.app request.toRequest) :=
            receiveInvite_built trivial _ _
          have later := beside.withController server owner request
          exact later.embed_alike records _ built (later.world _)

theorem enter_alike (beside : left.Beside traces right) {servers : Nat → AsInstance}
    {label : AsLabel} {idle : Bool} {leftProgram : Prog Interpreter Outgoing PyError Unit}
    (entered : (asSystem servers).enter label left idle = some leftProgram) :
    ∃ rightProgram, (asSystem servers).enter label right idle = some rightProgram ∧
      Prog.Alike (Interpreter.Beside traces) leftProgram rightProgram := by
  cases label with
  | ruleHit ruleId =>
      cases entered
      refine ⟨_, rfl, .ret ⟨beside.controllers, beside.process.sipConf, beside.process.levels,
        ?_, beside.process.tracer⟩ (.ok ())⟩
      exact congrArg (fun registry => registry.recordRuleHit ruleId) beside.process.metrics
  | appError code =>
      cases entered
      exact ⟨_, rfl, .ret ⟨beside.controllers, beside.process.sipConf, beside.process.levels,
        beside.process.metrics, beside.process.tracer⟩ (.ok ())⟩
  | request owner request =>
      simp only [asSystem, Option.ite_none_right_eq_some, Option.some.injEq] at entered
      obtain ⟨rfl, rfl⟩ := entered
      exact ⟨_, rfl, beside.recvRequest_alike records (servers owner) owner request⟩
  | call index label =>
      obtain ⟨controller, found, noInvite, enabled, rfl⟩ := asSystem_enter_call.mp entered
      have worlds := beside.world index
      have built : Built True True (label.handler (servers controller.owner).app) :=
        handler_built trivial trivial _ label
      have opened : ((left.world index).mapCall label.opening).Beside traces
          ((right.world index).mapCall label.opening) :=
        ⟨congrArg label.opening worlds.call, worlds.process⟩
      rw [beside.controllers] at found
      rw [worlds.call] at enabled
      exact ⟨_, asSystem_enter_call.mpr ⟨controller, found, noInvite, enabled, rfl⟩,
        beside.embed_alike records index built opened⟩

end Interpreter.Beside

/-! ### Taking requests out -/

/-- The requests that are dropped are taken out. -/
def leaves (drop : Nat → TrunkRequest → Bool) : AsAction → Bool
  | .enter (.request owner request) => !drop owner request
  | _ => true

def refusalBy (servers : Nat → AsInstance) : AsAction → Option TraceEvent
  | .enter (.request owner request) =>
      if (servers owner).refuses request then
        some (AsInstance.refusal request (sourcePeer request.toRequest))
      else none
  | _ => none

theorem filterMap_cons_toList {Item Picked : Type} (pick : Item → Option Picked) (item : Item)
    (items : List Item) :
    (item :: items).filterMap pick = (pick item).toList ++ items.filterMap pick := by
  cases picked : pick item with
  | none => rw [List.filterMap_cons_none picked, Option.toList_none, List.nil_append]
  | some value => rw [List.filterMap_cons_some picked, Option.toList_some, List.singleton_append]

structure Overlays (traces : List TraceEvent → TraceRecorder → TraceRecorder → Prop) : Prop where
  record : ∀ refusals left right event, traces refusals left right →
    traces refusals (left.record event) (right.record event)
  refuse : ∀ refusals left right event, traces refusals left right →
    traces (refusals ++ [event]) (left.record event) right

section Without

variable {servers : Nat → AsInstance} {refusals : List TraceEvent} {left right : AsConfig}
  {traces : List TraceEvent → TraceRecorder → TraceRecorder → Prop}

theorem dropped_alike (overlays : Overlays traces)
    (alike : Config.Alike (Interpreter.Beside (traces refusals)) left right)
    {owner : Nat} {request : TrunkRequest} {next : AsConfig}
    (outside : (servers owner).admits request = false)
    (taken : (asSystem servers).step left (.enter (.request owner request)) = some next) :
    Config.Alike (Interpreter.Beside (traces (refusals ++
      (refusalBy servers (.enter (.request owner request))).toList))) next right := by
  obtain ⟨program, entered, rfl⟩ := System.step_enter.mp taken
  simp only [asSystem, Option.ite_none_right_eq_some, Option.some.injEq] at entered
  obtain ⟨idle, rfl⟩ := entered
  -- no handler is at work on either side
  have rightIdle : right.idle = true := alike.idle.symm.trans idle
  rw [Config.idle, List.isEmpty_iff] at idle rightIdle
  have frames : ∀ refusals, List.Forall₂ (Frame.Alike (Interpreter.Beside (traces refusals)))
      left.frames right.frames := by
    intro refusals
    rw [idle, rightIdle]
    exact .nil
  have beside := alike.state
  cases refused : (servers owner).refuses request with
  | true =>
      rw [AsInstance.recvRequest_refused refused, settle_ok]
      simp only [refusalBy, refused, if_true, Option.toList_some]
      exact ⟨⟨beside.controllers, beside.process.sipConf, beside.process.levels,
        beside.process.metrics, overlays.refuse _ _ _ _ beside.process.tracer⟩, frames _,
        alike.escaped⟩
  | false =>
      cases answered : (servers owner).answerTo request with
      | none =>
          rw [AsInstance.answerTo_eq_none_iff, outside] at answered
          cases answered
      | some answer =>
          rw [AsInstance.recvRequest_declined refused answered, settle_ok]
          simp only [refusalBy, refused, Bool.false_eq_true, if_false, Option.toList_none,
            List.append_nil]
          exact ⟨⟨beside.controllers, beside.process⟩, frames _, alike.escaped⟩

/-- Without the dropped requests, among them all that are refused, a run goes on as it did,
and its trace lacks nothing but the refusals. -/
theorem run_without (overlays : Overlays traces) {drop : Nat → TrunkRequest → Bool}
    (refusedToo : ∀ owner request, (servers owner).refuses request = true →
      drop owner request = true)
    (outside : ∀ owner request, drop owner request = true →
      (servers owner).admits request = false)
    (actions : List AsAction) {last : AsConfig}
    (alike : Config.Alike (Interpreter.Beside (traces refusals)) left right)
    (ran : (asSystem servers).run left actions = some last) :
    ∃ only, (asSystem servers).run right (actions.filter (leaves drop)) = some only ∧
      Config.Alike (Interpreter.Beside
        (traces (refusals ++ actions.filterMap (refusalBy servers)))) last only := by
  induction actions generalizing refusals left right with
  | nil =>
      cases ran
      refine ⟨right, rfl, ?_⟩
      rwa [List.filterMap_nil, List.append_nil]
  | cons action rest ih =>
      obtain ⟨next, taken, onward⟩ := Option.bind_eq_some_iff.mp ran
      rw [filterMap_cons_toList, ← List.append_assoc]
      cases kept : leaves drop action with
      | true =>
          have quiet : refusalBy servers action = none := by
            unfold refusalBy
            split
            · rename_i owner request
              rw [if_neg]
              intro refused
              simp [leaves, refusedToo owner request refused] at kept
            · rfl
          obtain ⟨rightNext, rightTaken, nextAlike⟩ := System.alike_step alike
            (fun label _ leftProgram entered =>
              alike.state.enter_alike (overlays.record refusals) entered) taken
          obtain ⟨only, onlyRan, lastAlike⟩ := ih nextAlike onward
          rw [quiet, Option.toList_none, List.append_nil]
          refine ⟨only, ?_, lastAlike⟩
          rw [List.filter_cons_of_pos kept, System.run, rightTaken]
          exact onlyRan
      | false =>
          rw [List.filter_cons_of_neg (by rw [kept]; exact Bool.false_ne_true)]
          unfold leaves at kept
          split at kept
          · rename_i owner request
            rw [Bool.not_eq_false'] at kept
            exact ih (dropped_alike overlays alike (outside owner request kept) taken) onward
          · cases kept

theorem run_without_from (overlays : Overlays traces) {drop : Nat → TrunkRequest → Bool}
    (refusedToo : ∀ owner request, (servers owner).refuses request = true →
      drop owner request = true)
    (outside : ∀ owner request, drop owner request = true →
      (servers owner).admits request = false)
    {start : Interpreter} (initially : traces [] start.tracer start.tracer)
    (actions : List AsAction) {last : AsConfig}
    (ran : (asSystem servers).run (Config.initial start) actions = some last) :
    ∃ only, (asSystem servers).run (Config.initial start) (actions.filter (leaves drop)) =
        some only ∧
      Interpreter.Beside (traces (actions.filterMap (refusalBy servers)))
        last.state only.state := by
  have same : Config.Alike (Interpreter.Beside (traces []))
      (Config.initial start : AsConfig) (Config.initial start) :=
    ⟨⟨rfl, rfl, rfl, rfl, initially⟩, .nil, rfl⟩
  obtain ⟨only, onlyRan, alike⟩ := run_without overlays refusedToo outside actions same ran
  exact ⟨only, onlyRan, alike.state⟩

end Without

end AsPlatform
