/-
The books of a process.

The counters belong to the process and not to a call, and what the calls count in them comes
in any order.  They are compared with the calls there are: how many have been taken in, and
of these how many are closed.
-/

import AsPlatform.CallController.Admission
import AsPlatform.CallController.Closing
import AsPlatform.Library.Overview

namespace AsPlatform

open Reentrant

structure Books where
  controllers : List Controller
  started : Nat
  dispositions : OrderedDict String Nat
  isEnabledFor : LogLevel → Bool

namespace Books

def ofProcess (interpreter : Interpreter) : Books where
  controllers := interpreter.controllers
  started := interpreter.metrics.callsTotal
  dispositions := interpreter.metrics.callsByDisposition
  isEnabledFor := interpreter.isEnabledFor

/-- The books as the handlers of one controller see them. -/
def control (index : Nat) (books : Books) : Control where
  call := ((books.controllers[index]?).map Controller.call).getD
    { globalConfig := {}
      nextHop := none }
  started := books.started
  dispositions := books.dispositions
  isEnabledFor := books.isEnabledFor

def enter (index : Nat) (books : Books) (control : Control) : Books where
  controllers := books.controllers.modify index fun controller =>
    { controller with call := control.call }
  started := control.started
  dispositions := control.dispositions
  isEnabledFor := control.isEnabledFor

def append (controller : Controller) (books : Books) : Books :=
  { books with controllers := books.controllers ++ [controller] }

theorem control_call {index : Nat} {books : Books} {controller : Controller}
    (found : books.controllers[index]? = some controller) :
    (books.control index).call = controller.call := by
  change ((books.controllers[index]?).map Controller.call).getD _ = controller.call
  rw [found]
  rfl

theorem enter_control (index : Nat) (books : Books) :
    books.enter index (books.control index) = books := by
  have same : (books.enter index (books.control index)).controllers = books.controllers := by
    apply List.ext_getElem?
    intro position
    change (books.controllers.modify index _)[position]? = _
    rw [List.getElem?_modify]
    cases found : books.controllers[position]? with
    | none => rfl
    | some controller =>
        by_cases own : index = position
        · subst own
          simp [control_call found]
        · simp [own]
  obtain ⟨controllers, started, dispositions, levels⟩ := books
  exact congrArg (fun list => Books.mk list started dispositions levels) same

end Books

def booksOverview : Overview place callOutlook.view Books where
  view := Books.ofProcess
  part := Books.control
  put := Books.enter
  gets _ _ := rfl
  puts _ _ _ := rfl
  unchanged := Books.enter_control

def asksSame (request : UaCall) (outgoing : Outgoing) : Prop :=
  outgoing.call = request

def AsInstance.fresh (server : AsInstance) (owner : Nat) (request : TrunkRequest) : Controller where
  owner := owner
  invite := request
  call :=
    { globalConfig := server.globalConfig
      nextHop := server.nhAddr }

inductive BooksEffect (servers : Nat → AsInstance) (before : Books) :
    AsLabel → Books → Ending Outgoing (Nat × Bool) → Prop where
  | call (index : Nat) (label : Label) (controller : Controller) (after : Control)
      (ending : CallEnding) (wholeEnding : Ending Outgoing (Nat × Bool))
      (found : before.controllers[index]? = some controller) (noInvite : label.isInvite = false)
      (effect : Effect (servers controller.owner).app (before.control index) label after ending)
      (same : Ending.Tags asksSame index ending wholeEnding) :
      BooksEffect servers before (.call index label) (before.enter index after) wholeEnding
  | admitted (owner : Nat) (request : TrunkRequest) (after : Control) (ending : CallEnding)
      (wholeEnding : Ending Outgoing (Nat × Bool))
      (admits : (servers owner).admits request = true)
      (effect : InviteEffect request.toRequest
        ((before.append ((servers owner).fresh owner request)).control before.controllers.length)
        after ending)
      (started : after.started =
        before.started + ((servers owner).app.takesIn request.toRequest).toNat)
      (same : Ending.Tags asksSame before.controllers.length ending wholeEnding) :
      BooksEffect servers before (.request owner request)
        ((before.append ((servers owner).fresh owner request)).enter before.controllers.length
          after) wholeEnding
  | aside (label : AsLabel) : BooksEffect servers before label before .returned

theorem asSystem_describes (servers : Nat → AsInstance) :
    booksOverview.outlook.Describes (BooksEffect servers) (asSystem servers) := by
  intro label interpreter idle program entered
  cases label with
  | ruleHit ruleId =>
      cases entered
      exact ⟨_, _, .aside _, rfl, trivial⟩
  | appError code =>
      cases entered
      exact ⟨_, _, .aside _, rfl, trivial⟩
  | call index label =>
      obtain ⟨controller, found, noInvite, enabled, rfl⟩ := asSystem_enter_call.mp entered
      have alone : (callSystem (servers controller.owner).app).enter label
          (interpreter.world index) idle = some (label.handler (servers controller.owner).app
            ((interpreter.world index).mapCall label.opening)) := by
        rw [callSystem_enter, if_pos enabled]
      obtain ⟨after, ending, effect, outcome⟩ :=
        callSystem_describes (servers controller.owner).app label _ idle _ alone
      obtain ⟨wholeEnding, same, reached⟩ :=
        booksOverview.outcome asksSame (fun _ _ _ => rfl) outcome index interpreter
      exact ⟨_, _, .call index label controller after ending wholeEnding found noInvite effect same,
        reached⟩
  | request owner request =>
      simp only [asSystem, Option.ite_none_right_eq_some, Option.some.injEq] at entered
      obtain ⟨_, rfl⟩ := entered
      cases admitted : (servers owner).admits request with
      | true =>
          rw [AsInstance.recvRequest_admitted admitted]
          obtain ⟨after, ending, effect, outcome⟩ := receiveInvite_effect (servers owner).app
            request.toRequest ((interpreter.withController (servers owner) owner request).world
              interpreter.controllers.length)
          obtain ⟨wholeEnding, same, reached⟩ :=
            booksOverview.outcome asksSame (fun _ _ _ => rfl) outcome interpreter.controllers.length
              (interpreter.withController (servers owner) owner request)
          have started := receiveInvite_started (servers owner).app request.toRequest
            ((interpreter.withController (servers owner) owner request).world
              interpreter.controllers.length)
          rw [show (receiveInvite _ _ _).stop.control = after from outcome.view] at started
          exact ⟨_, _,
            .admitted owner request after ending wholeEnding admitted effect started same,
            reached⟩
      | false =>
          cases refused : (servers owner).refuses request with
          | true =>
              rw [AsInstance.recvRequest_refused refused]
              exact ⟨_, _, .aside _, rfl, trivial⟩
          | false =>
              cases answered : (servers owner).answerTo request with
              | some answer =>
                  rw [AsInstance.recvRequest_declined refused answered]
                  exact ⟨_, _, .aside _, rfl, trivial⟩
              | none =>
                  rw [AsInstance.answerTo_eq_none_iff, admitted] at answered
                  cases answered

/-! ### What is counted of the calls -/

def Controller.counted (servers : Nat → AsInstance) (controller : Controller) : Bool :=
  (servers controller.owner).app.takesIn controller.invite.toRequest

def Controller.isOpen (servers : Nat → AsInstance) (controller : Controller) : Bool :=
  controller.counted servers && !controller.call.closed

structure Controller.Kept (servers : Nat → AsInstance) (controller : Controller) : Prop where
  decided : controller.call.Decided
  counted : controller.call.trunk.isSome = true → controller.counted servers = true

structure BooksKept (servers : Nat → AsInstance) (start : Interpreter) (books : Books) : Prop where
  calls : books.started =
    start.metrics.callsTotal + books.controllers.countP (Controller.counted servers)
  dispositions : books.dispositions.total =
    start.metrics.disposed + books.controllers.countP fun controller => controller.call.closed
  each : ∀ controller ∈ books.controllers, controller.Kept servers

theorem countP_modify {Item : Type} (test : Item → Bool) (change : Item → Item)
    {items : List Item} {index : Nat} {item : Item} (found : items[index]? = some item) :
    (items.modify index change).countP test + (test item).toNat =
      items.countP test + (test (change item)).toNat := by
  induction items generalizing index with
  | nil => cases found
  | cons first rest ih =>
      cases index with
      | zero =>
          cases found
          rw [List.modify_zero_cons, List.countP_cons, List.countP_cons]
          cases test item <;> cases test (change item) <;> simp
      | succ index =>
          have later := ih found
          rw [List.modify_succ_cons, List.countP_cons, List.countP_cons]
          omega

/-- What is counted is either open or closed. -/
theorem countP_counted (servers : Nat → AsInstance) {controllers : List Controller}
    (each : ∀ controller ∈ controllers, controller.Kept servers) :
    controllers.countP (Controller.counted servers) =
      (controllers.countP fun controller => controller.call.closed) +
        controllers.countP (Controller.isOpen servers) := by
  induction controllers with
  | nil => rfl
  | cons first rest ih =>
      obtain ⟨kept, others⟩ := List.forall_mem_cons.mp each
      rw [List.countP_cons, List.countP_cons, List.countP_cons, ih others]
      cases closed : first.call.closed with
      | false =>
          rw [Controller.isOpen, closed]
          cases first.counted servers with
          | false => simp
          | true =>
              simp
              omega
      | true =>
          rw [Controller.isOpen, closed, kept.counted (kept.decided.trunk_of_closed closed)]
          simp
          omega

section Steps

variable {servers : Nat → AsInstance} {start : Interpreter} {books : Books}

theorem BooksKept.entered {index : Nat} {controller : Controller} {action : CallAction}
    {suspended : List (UaCall × Bool)} {next : CallOutline}
    (dispositions : books.dispositions.total =
      start.metrics.disposed + books.controllers.countP fun controller => controller.call.closed)
    (each : ∀ controller ∈ books.controllers, controller.Kept servers)
    (found : books.controllers[index]? = some controller)
    (step : CallStep (servers controller.owner).app
      { view := books.control index
        suspended := suspended
        escaped := 0 } action next)
    (once : EndsOnce controller.call action)
    (calls : next.view.started =
      start.metrics.callsTotal + books.controllers.countP (Controller.counted servers))
    (counted : next.view.call.trunk.isSome = true → controller.counted servers = true) :
    BooksKept servers start (books.enter index next.view) := by
  have call := Books.control_call found
  have decided : (books.control index).call.Decided :=
    call ▸ (each controller (List.mem_of_getElem? found)).decided
  refine ⟨?_, ?_, ?_⟩
  · have same := countP_modify (Controller.counted servers)
      (fun other => { other with call := next.view.call }) found
    change next.view.started = _ + (books.controllers.modify index _).countP _
    rw [calls]
    exact congrArg _ (Nat.add_right_cancel same).symm
  · have balanced := step_balanced step decided (call ▸ once)
    have same := countP_modify (fun other : Controller => other.call.closed)
      (fun other => { other with call := next.view.call }) found
    change _ + controller.call.closed.toNat = _ + next.view.call.closed.toNat at same
    change next.view.disposed = _ + (books.controllers.modify index _).countP _
    change next.view.disposed + (books.control index).call.closed.toNat =
      books.dispositions.total + next.view.call.closed.toNat at balanced
    rw [call, dispositions] at balanced
    omega
  · intro other member
    obtain ⟨position, isOther⟩ := List.mem_iff_getElem?.mp member
    change (books.controllers.modify index _)[position]? = some other at isOther
    rw [List.getElem?_modify] at isOther
    by_cases own : index = position
    · subst own
      simp only [if_true, found, Option.map_eq_map, Option.map_some, Option.some.injEq] at isOther
      subst isOther
      exact ⟨step_decided step decided, counted⟩
    · simp only [own, if_false, Option.map_eq_map, Option.map_id_fun', id_eq] at isOther
      exact each other (List.mem_of_getElem? isOther)

theorem BooksKept.ofCall {index : Nat} {controller : Controller} {action : CallAction}
    {suspended : List (UaCall × Bool)} {next : CallOutline}
    (kept : BooksKept servers start books)
    (found : books.controllers[index]? = some controller)
    (step : CallStep (servers controller.owner).app
      { view := books.control index
        suspended := suspended
        escaped := 0 } action next)
    (once : EndsOnce controller.call action) (started : next.view.started = books.started) :
    BooksKept servers start (books.enter index next.view) := by
  have member := kept.each controller (List.mem_of_getElem? found)
  have call := Books.control_call found
  refine .entered kept.dispositions kept.each found step once (started.trans kept.calls) ?_
  intro present
  refine member.counted ?_
  have shape : (books.control index).call.Shape := call ▸ member.decided.shape
  rcases (step_counts step shape).trunk with same | ⟨more, _⟩
  · rw [← call]
    exact same.symm.trans present
  · have before : books.started + 1 ≤ next.view.started := more
    omega

theorem BooksKept.admit (kept : BooksKept servers start books) {owner : Nat}
    {request : TrunkRequest} {after : Control} {ending : CallEnding}
    (effect : InviteEffect request.toRequest
      ((books.append ((servers owner).fresh owner request)).control books.controllers.length)
      after ending)
    (started : after.started =
      books.started + ((servers owner).app.takesIn request.toRequest).toNat) :
    BooksKept servers start
      ((books.append ((servers owner).fresh owner request)).enter books.controllers.length
        after) := by
  have found : (books.append ((servers owner).fresh owner request)).controllers[
      books.controllers.length]? = some ((servers owner).fresh owner request) :=
    List.getElem?_concat_length
  let outline : CallOutline :=
    { view := (books.append ((servers owner).fresh owner request)).control books.controllers.length
      suspended := []
      escaped := 0 }
  have call : outline.view.call = ((servers owner).fresh owner request).call :=
    Books.control_call found
  have first : outline.view.call.trunkRequest = none :=
    congrArg (fun call => call.trunkRequest) call
  have silent : outline.view.call.trunk = none := congrArg Call.trunk call
  have viewed : (outline.finish after ending).view = after := view_finish outline after ending
  have step : CallStep (servers owner).app outline (.enter (.invite request.toRequest))
      (outline.finish after ending) :=
    Outlook.Step.enter (Label.invite request.toRequest) after ending
      (Effect.invite request.toRequest after ending first effect)
  rw [← viewed]
  refine .entered ?_ ?_ found step trivial ?_ ?_
  · change books.dispositions.total = _ + (books.controllers ++ [_]).countP _
    rw [List.countP_append, kept.dispositions]
    rfl
  · refine List.forall_mem_append.mpr
      ⟨kept.each, List.forall_mem_singleton.mpr ⟨⟨?_, nofun⟩, nofun⟩⟩
    exact Call.Shape.initial _ _
  · change _ = _ + (books.controllers ++ [_]).countP _
    rw [viewed, started, kept.calls, List.countP_append, Nat.add_assoc]
    cases taken : (servers owner).app.takesIn request.toRequest with
    | false => simp [Controller.counted, AsInstance.fresh, taken]
    | true => simp [Controller.counted, AsInstance.fresh, taken]
  · intro present
    rw [viewed] at present
    change (servers owner).app.takesIn request.toRequest = true
    cases effect with
    | hookRaised =>
        change outline.view.call.trunk.isSome = true at present
        rw [silent] at present
        cases present
    | lineRaised =>
        change outline.view.call.trunk.isSome = true at present
        rw [silent] at present
        cases present
    | accepted ua new =>
        change books.started + 1 = _ at started
        cases taken : (servers owner).app.takesIn request.toRequest with
        | false =>
            rw [taken] at started
            exact absurd started (Nat.succ_ne_self _)
        | true => rfl

theorem BooksKept.comeBack (kept : BooksKept servers start books) (index : Nat) (request : UaCall)
    (clears : Bool) :
    BooksKept servers start (books.enter index (afterCall clears (books.control index))) := by
  cases found : books.controllers[index]? with
  | none =>
      have same : (books.enter index (afterCall clears (books.control index))).controllers =
          books.controllers :=
        List.modify_eq_self (List.getElem?_eq_none_iff.mp found)
      refine ⟨?_, ?_, ?_⟩
      · rw [same, ← kept.calls]
        cases clears <;> rfl
      · rw [same, ← kept.dispositions]
        cases clears <;> rfl
      · rw [same]
        exact kept.each
  | some controller =>
      let alone : CallOutline :=
        { view := books.control index
          suspended := [(request, clears)]
          escaped := 0 }
      have taken : CallStep (servers controller.owner).app alone .comeBack
          { view := afterCall clears (books.control index)
            suspended := []
            escaped := 0 } := .comeBack request clears [] rfl
      refine kept.ofCall found taken trivial ?_
      cases clears <;> rfl

/-- Whatever happens in the process, its books are kept, as long as the legs of the call that
it happens to end once. -/
theorem BooksKept.step {outline next : Outline Books Outgoing (Nat × Bool)} {action : AsAction}
    (kept : BooksKept servers start outline.view)
    (step : booksOverview.outlook.Step (BooksEffect servers) outline action next)
    (once : ∀ index label controller, action = .enter (.call index label) →
      outline.view.controllers[index]? = some controller →
        EndsOnce controller.call (.enter label)) :
    BooksKept servers start next.view := by
  cases step with
  | enter label view ending happens =>
      have viewed : (outline.finish view ending).view = view := by cases ending <;> rfl
      rw [viewed]
      cases happens with
      | aside => exact kept
      | admitted owner request after ending _ admits effect started same =>
          exact kept.admit effect started
      | call index label controller after ending _ found noInvite effect same =>
          let alone : CallOutline :=
            { view := outline.view.control index
              suspended := []
              escaped := 0 }
          have afterwards : (alone.finish after ending).view = after :=
            view_finish alone after ending
          have taken : CallStep (servers controller.owner).app alone (.enter label)
              (alone.finish after ending) := .enter label after ending effect
          rw [← afterwards]
          refine kept.ofCall found taken (once index label controller rfl found) ?_
          rw [afterwards]
          exact effect.started noInvite
  | comeBack request rest suspended innermost => exact kept.comeBack rest.1 request.call rest.2

end Steps

/-! ### Runs -/

/-- The trunk leg of the call that this happens to raises one `CCEventTry`, and its current leg
ends once. -/
def EndsOnceIn (config : AsConfig) : AsAction → Prop
  | .enter (.call index label) =>
      match config.state.controllers[index]? with
      | none => True
      | some controller => EndsOnce controller.call (.enter label)
  | _ => True

instance (config : AsConfig) : ∀ action, Decidable (EndsOnceIn config action)
  | .enter (.call index label) =>
      match found : config.state.controllers[index]? with
      | none => isTrue (by rw [EndsOnceIn, found]; trivial)
      | some controller =>
          decidable_of_iff (EndsOnce controller.call (.enter label)) (by rw [EndsOnceIn, found])
  | .enter (.request _ _) | .enter (.ruleHit _) | .enter (.appError _) | .comeBack => isTrue trivial

structure BooksBalance (servers : Nat → AsInstance) (start : Interpreter) (config : AsConfig) :
    Prop where
  calls : config.state.metrics.callsTotal = start.metrics.callsTotal +
    config.state.controllers.countP (Controller.counted servers)
  dispositions : config.state.metrics.disposed = start.metrics.disposed +
    config.state.controllers.countP fun controller => controller.call.closed
  opened : config.state.metrics.callsTotal + start.metrics.disposed =
    start.metrics.callsTotal + config.state.metrics.disposed +
      config.state.controllers.countP (Controller.isOpen servers)

theorem BooksKept.balance {servers : Nat → AsInstance} {start : Interpreter} {config : AsConfig}
    (kept : BooksKept servers start (Books.ofProcess config.state)) :
    BooksBalance servers start config := by
  have calls := kept.calls
  have dispositions := kept.dispositions
  have counted := countP_counted servers kept.each
  change config.state.metrics.callsTotal =
    _ + config.state.controllers.countP _ at calls
  change config.state.metrics.disposed = _ + config.state.controllers.countP _ at dispositions
  change config.state.controllers.countP _ = config.state.controllers.countP _ +
    config.state.controllers.countP _ at counted
  refine ⟨calls, dispositions, ?_⟩
  omega

/-- The books of a process balance.  Any number of calls of any number of instances come in and
their events, those of their timers and the ends of what their handlers have asked for follow in
any order, also where handlers raise.  As long as no trunk leg raises a second `CCEventTry` and
no current leg ends twice, at every moment the calls counted are those taken in, the outcomes
counted are those of the closed calls, and what lacks is the number of the open ones. -/
theorem books_balance (servers : Nat → AsInstance) (start : Interpreter)
    (none : start.controllers = []) (actions : List AsAction)
    (once : (asSystem servers).Along (fun config action _ => EndsOnceIn config action)
      (Config.initial start) actions) :
    (asSystem servers).Along (fun _ _ next => BooksBalance servers start next)
      (Config.initial start) actions := by
  apply Outlook.along_of_along (asSystem_describes servers)
    (fun outline => BooksKept servers start outline.view) ?_ ?_ actions once
  · intro config action next outline nextOutline follows followed kept allowed _taken step
    have view : Books.ofProcess config.state = outline.view := follows.view
    have later := kept.step step fun index label controller isCall found => by
      subst isCall
      rw [← view] at found
      change config.state.controllers[index]? = some controller at found
      rw [EndsOnceIn, found] at allowed
      exact allowed
    refine ⟨later, BooksKept.balance ?_⟩
    have nextView : Books.ofProcess next.state = nextOutline.view := followed.view
    rw [nextView]
    exact later
  · refine ⟨_, Outlook.follows_initial start, ?_, ?_, ?_⟩
    · change start.metrics.callsTotal = _ + start.controllers.countP _
      rw [none]
      rfl
    · change start.metrics.disposed = _ + start.controllers.countP _
      rw [none]
      rfl
    · change ∀ controller ∈ start.controllers, _
      rw [none]
      exact List.forall_mem_nil _

/-- The first call is answered by its only hop with a failure while the second comes in, and a
third from a source that no instance allows. -/
def sampleDay : List AsAction :=
  sampleAdmission ++ [.enter (.request 1 (sampleInvite "b2@trunk")), .comeBack,
    .enter (.call 0 (.raises (.leg 0) sampleFail)), .comeBack,
    .enter (.request 0 (sampleIntruder "c3@trunk"))]

theorem books_balance_of_day :
    (asSystem sampleServer).Along
      (fun _ _ next => BooksBalance sampleServer (sampleInterpreter 4) next)
      (Config.initial (sampleInterpreter 4)) sampleDay :=
  books_balance sampleServer (sampleInterpreter 4) rfl sampleDay (by decide)

end AsPlatform
