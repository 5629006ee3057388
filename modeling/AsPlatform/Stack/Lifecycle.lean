/-
What the stack has taken from its process, and what of it `stop` releases.

An operation may raise at any of its calls.  What it had taken by then stays with the
attribute that refers to it, so a later `stop` releases it.  It is left behind only where
the attribute comes to refer to something else, or where `stop` has waited for a server that
takes longer than that.
-/

import AsPlatform.Stack.BaseAsStack

namespace AsPlatform

open Reentrant Reentrant.Handler Ownership Platform

variable {Link LinkCall : Type} {sippy : SippyTypes}

theorem Platform.disposeCallMap_eq (platform : Platform Link sippy) :
    ∃ calls, platform.disposeCallMap = { platform with calls := calls } := by
  unfold disposeCallMap
  split
  · exact ⟨platform.calls, rfl⟩
  · exact ⟨_, rfl⟩

theorem Platform.letGo_eq (server : Nat) (platform : Platform Link sippy) :
    ∃ lingering, platform.letGo server = { platform with lingering := lingering } := by
  unfold letGo
  split
  · exact ⟨_, rfl⟩
  · exact ⟨platform.lingering, rfl⟩

/-- What does not depend on the log is kept by a line of it. -/
theorem meets_logInfo {answer : Replies LinkCall} {kept : Platform Link sippy → Prop}
    {asks : StackCall LinkCall → Platform Link sippy → Prop}
    (blind : ∀ platform entry, kept platform →
      kept (platform.mapInterpreter (Interpreter.appendLog entry)))
    (event : String) (named : List (String × Value)) (splatted : List Fields) :
    Meets answer kept (logInfo event named splatted) ⟨asks, fun _ => kept, fun _ => kept⟩ := by
  refine meets_bind (fun _ => kept) (meets_get fun platform holds => holds) ?_
  intro platform
  cases logEvent platform.calls.state.isEnabledFor .info event named splatted with
  | error error => exact meets_raise fun found holds => holds
  | ok entry => exact meets_modify fun found holds => blind found entry holds

theorem meets_transport {answer : Replies LinkCall} {kept : Platform Link sippy → Prop}
    {asks : StackCall LinkCall → Platform Link sippy → Prop}
    (blind : ∀ platform link, kept platform → kept (platform.setLink link))
    (asked : ∀ call platform, asks (.transport call) platform)
    (body : Handler Link LinkCall StackError Unit) :
    Meets answer kept (within linkPlace body) ⟨asks, fun _ => kept, fun _ => kept⟩ := by
  refine meets_of_entered fun platform holds => ?_
  refine meets_within .transport (fun _ _ => rfl) (fun _ _ => rfl) (fun _ _ _ => rfl)
    (meets_play _ platform.link) ?_ (fun _ call part _ _ => asked call _) ?_ ?_
  · rintro _ rfl
    rfl
  · rintro _ _ part rfl _
    exact blind platform part holds
  · rintro _ _ part rfl _
    exact blind platform part holds

theorem meets_linked {answer : Replies LinkCall} (body : Handler Link LinkCall StackError Unit)
    (link : Link) :
    Meets answer (fun platform : Platform Link sippy => platform.link = link)
      (within linkPlace body)
      ⟨fun _ _ => True,
        fun _ found => found.link = ((body link).play fun call => answer (.transport call)).state,
        fun _ found => found.link =
          ((body link).play fun call => answer (.transport call)).state⟩ := by
  refine meets_within .transport (fun _ _ => rfl) (fun _ _ => rfl) (fun _ _ _ => rfl)
    (meets_play body link) (fun _ same => same.symm) (fun _ _ _ _ _ => trivial) ?_ ?_
  · rintro _ _ _ _ ⟨_, rfl⟩
    rfl
  · rintro _ _ _ _ ⟨_, rfl⟩
    rfl

namespace BaseAsStack

variable (stack : BaseAsStack Link LinkCall)

/-! ### What the operations keep -/

section Keeping

variable {answer : Replies LinkCall} {kept : Platform Link sippy → Prop}

theorem meets_asked (call : StackCall LinkCall) :
    Meets answer kept (callOut call) ⟨fun _ _ => True, fun _ => kept, fun _ => kept⟩ :=
  meets_callOut (fun _ _ => trivial) (fun _ holds _ => holds) fun _ _ holds _ => holds

variable (answer kept)

theorem start_meets {entered : Platform Link sippy → Prop}
    (connects : Meets answer entered (within linkPlace stack.transport.start)
      ⟨fun _ _ => True, fun _ => kept, fun _ => kept⟩)
    (configures : ∀ platform nhAddr address port uaname, kept platform →
      kept (configure nhAddr address port uaname platform))
    (maps : ∀ platform owner, kept platform → kept (createCallMap owner platform))
    (takes : ∀ platform owner, kept platform → kept (mapHoldings
      (Holdings.take .transactionManager (.transactionManager owner)) platform))
    (logs : ∀ platform entry, kept platform →
      kept (mapInterpreter (Interpreter.appendLog entry) platform)) :
    Meets answer
      (fun platform => entered (mapInterpreter (identify stack.sipUserAgentName
        stack.transport.address stack.transport.port) platform)) stack.start
      ⟨fun _ _ => True, fun _ => kept, fun _ => kept⟩ := by
  refine meets_bind (fun _ => entered) (meets_modify fun _ holds => holds) fun _ => ?_
  refine meets_bind (fun _ => kept) connects fun _ => ?_
  refine meets_bind (fun _ => kept) (meets_get fun _ holds => holds) fun value => ?_
  refine meets_bind (fun _ => kept)
    (meets_ofExcept (fun _ _ holds _ => holds) fun _ _ holds _ => holds) fun config => ?_
  refine meets_bind (fun _ => kept)
    (meets_modify fun found holds => configures found _ _ _ _ holds) fun _ => ?_
  refine meets_bind (fun _ => kept) (meets_asked .createCallMap) fun _ => ?_
  refine meets_bind (fun _ => kept) (meets_modify fun found holds => maps found _ holds)
    fun _ => ?_
  refine meets_bind (fun _ => kept) (meets_asked .sipTransactionManager) fun _ => ?_
  refine meets_bind (fun _ => kept) (meets_modify fun found holds => takes found _ holds)
    fun _ => ?_
  exact meets_logInfo logs _ _ _

theorem start_keeps
    (links : ∀ platform link, kept platform → kept (platform.setLink link))
    (configures : ∀ platform nhAddr address port uaname, kept platform →
      kept (configure nhAddr address port uaname platform))
    (maps : ∀ platform owner, kept platform → kept (createCallMap owner platform))
    (takes : ∀ platform owner, kept platform → kept (mapHoldings
      (Holdings.take .transactionManager (.transactionManager owner)) platform))
    (logs : ∀ platform entry, kept platform →
      kept (mapInterpreter (Interpreter.appendLog entry) platform)) :
    Meets answer
      (fun platform => kept (mapInterpreter (identify stack.sipUserAgentName
        stack.transport.address stack.transport.port) platform)) stack.start
      ⟨fun _ _ => True, fun _ => kept, fun _ => kept⟩ :=
  stack.start_meets answer kept (meets_transport links (fun _ _ => trivial) _) configures maps takes
    logs

theorem startInternalApi_keeps
    (takes : ∀ platform, kept platform →
      kept (mapHoldings (Holdings.take .internalApi .internalApi) platform))
    (logs : ∀ platform entry, kept platform →
      kept (mapInterpreter (Interpreter.appendLog entry) platform)) :
    Meets answer kept stack.startInternalApi
      ⟨fun _ _ => True, fun _ => kept, fun _ => kept⟩ := by
  refine meets_bind (fun _ => kept) (meets_asked .createInternalApiServer) fun _ => ?_
  refine meets_bind (fun _ => kept) ?_ fun _ => ?_
  · exact meets_bind (fun _ => kept) (meets_asked .importUvicorn) fun _ =>
      meets_bind (fun _ => kept) (meets_asked .createApp) fun _ => meets_asked .startThread
  refine meets_bind (fun _ => kept) (meets_modify takes) fun _ => ?_
  exact meets_logInfo logs _ _ _

/-- What holds once `run` has its timers is what it leaves, but for the loop that it enters. -/
theorem run_keeps (controller : Nat)
    (logs : ∀ platform entry, kept platform →
      kept (mapInterpreter (Interpreter.appendLog entry) platform)) :
    Meets answer
      (fun platform => kept (mapHoldings (Holdings.take .reloadTimer .reloadTimer)
        (mapHoldings (Holdings.take .shutdownTimer (.shutdownTimer controller)) platform)))
      (stack.run controller)
      ⟨fun _ _ => True, fun _ found => ∃ earlier, kept earlier ∧ found = earlier.enterLoop,
        fun _ => kept⟩ := by
  refine meets_bind
    (fun _ found => kept (mapHoldings (Holdings.take .reloadTimer .reloadTimer) found))
    (meets_modify fun _ holds => holds) fun _ => ?_
  refine meets_bind (fun _ => kept) (meets_modify fun _ holds => holds) fun _ => ?_
  refine meets_bind (fun _ => kept) (meets_asked .reloadLogFields) fun _ => ?_
  refine meets_bind (fun _ => kept) (meets_logInfo logs _ _ _) fun _ => ?_
  exact meets_modify fun found holds => ⟨found, holds, rfl⟩

theorem stop_meets [DecidableEq sippy.Transaction]
    (cancel : sippy.Object → sippy.Objects → sippy.Objects)
    {returned raised : Platform Link sippy → Prop}
    (releases : ∀ platform slot, kept platform →
      kept (mapHoldings (Holdings.release slot) platform))
    (disposes : ∀ platform calls, kept platform → kept { platform with calls := calls })
    (cancels : ∀ platform manager, kept platform → kept (cancelTimers cancel manager platform))
    (tells : ∀ platform server, kept platform → kept (tellToExit server platform))
    (letsGo : ∀ platform lingering, kept platform →
      kept { platform with lingering := lingering })
    (fails : ∀ platform, kept platform → raised platform)
    (disconnects : Meets answer kept (within linkPlace stack.transport.stop)
      ⟨fun _ _ => True, fun _ => returned, fun _ => raised⟩) :
    Meets answer kept (stack.stop cancel)
      ⟨fun _ _ => True, fun _ => returned, fun _ => raised⟩ := by
  have released : ∀ slot, Meets answer kept (modify (mapHoldings (Holdings.release slot)))
      ⟨fun _ _ => True, fun _ => kept, fun _ => raised⟩ :=
    fun slot => meets_modify fun found holds => releases found slot holds
  have asked : ∀ call, Meets answer kept (callOut call)
      ⟨fun _ _ => True, fun _ => kept, fun _ => raised⟩ :=
    fun call => (meets_asked call).mono (fun _ _ => id) (fun _ _ => id) fun _ => fails
  refine meets_bind (fun _ => kept) (released .shutdownTimer) fun _ => ?_
  refine meets_bind (fun _ => kept) (released .reloadTimer) fun _ => ?_
  refine meets_bind (fun _ => kept) (meets_modify fun found holds => ?_) fun _ => ?_
  · obtain ⟨calls, disposed⟩ := disposeCallMap_eq found
    rw [disposed]
    exact disposes found calls holds
  refine meets_bind (fun _ => kept) ?_ fun _ => ?_
  · refine meets_bind (fun _ => kept) (meets_get fun _ holds => holds) fun value => ?_
    cases value.holdings.place .transactionManager with
    | none => exact meets_pure fun _ holds => holds
    | some manager =>
        refine meets_bind (fun _ => kept)
          (meets_modify fun found holds => cancels found manager holds) fun _ => ?_
        exact meets_bind (fun _ => kept) (asked (.shutdown manager)) fun _ =>
          released .transactionManager
  refine meets_bind (fun _ => kept) ?_ fun _ => disconnects
  refine meets_bind (fun _ => kept) (meets_get fun _ holds => holds) fun value => ?_
  cases value.holdings.place .internalApi with
  | none => exact meets_pure fun _ holds => holds
  | some server =>
      refine meets_bind (fun _ => kept)
        (meets_modify fun found holds => tells found server holds) fun _ => ?_
      refine meets_bind (fun _ => kept) (asked (.joinThread server)) fun _ => ?_
      refine meets_bind (fun _ => kept) (meets_modify fun found holds => ?_) fun _ =>
        released .internalApi
      obtain ⟨lingering, letGone⟩ := letGo_eq server found
      rw [letGone]
      exact letsGo found lingering holds

theorem stop_keeps [DecidableEq sippy.Transaction]
    (cancel : sippy.Object → sippy.Objects → sippy.Objects)
    (releases : ∀ platform slot, kept platform →
      kept (mapHoldings (Holdings.release slot) platform))
    (disposes : ∀ platform calls, kept platform → kept { platform with calls := calls })
    (cancels : ∀ platform manager, kept platform → kept (cancelTimers cancel manager platform))
    (tells : ∀ platform server, kept platform → kept (tellToExit server platform))
    (letsGo : ∀ platform lingering, kept platform →
      kept { platform with lingering := lingering })
    (links : ∀ platform link, kept platform → kept (platform.setLink link)) :
    Meets answer kept (stack.stop cancel) ⟨fun _ _ => True, fun _ => kept, fun _ => kept⟩ :=
  stack.stop_meets answer kept cancel releases disposes cancels tells letsGo (fun _ => id)
    (meets_transport links (fun _ _ => trivial) _)

end Keeping

/-! ### What they take -/

def connected (answer : Replies LinkCall) (link : Link) : Played Link LinkCall StackError Unit :=
  (stack.transport.start link).play fun call => answer (.transport call)

structure Binds (answer : Replies LinkCall) (link : Link) : Prop where
  connected : (stack.connected answer link).result = .ok ()
  configured : ∃ config, stack.transport.sipConfig (stack.connected answer link).state = .ok config
  mapped : answer .createCallMap = .ok ()
  bound : answer .sipTransactionManager = .ok ()

def Serves (answer : Replies LinkCall) : Prop :=
  ∀ call ∈ [.createInternalApiServer, .importUvicorn, .createApp, .startThread],
    answer call = .ok ()

/-- The holdings are as they were, but for a thing that was taken if it was. -/
def TookIf (taken : Prop) (slot : StackPlace) (thing : StackThing)
    (before : Holdings StackPlace StackThing) (found : Platform Link sippy) : Prop :=
  (taken ∧ found.holdings = before.take slot thing) ∨ (¬taken ∧ found.holdings = before)

theorem start_took (answer : Replies LinkCall) (platform : Platform Link sippy) :
    TookIf (stack.Binds answer platform.link) .transactionManager
      (.transactionManager platform.maps) platform.holdings
      ((stack.start platform).play answer).state := by
  let conn := stack.connected answer platform.link
  let took : Platform Link sippy → Prop := TookIf (stack.Binds answer platform.link)
    .transactionManager (.transactionManager platform.maps) platform.holdings
  let asWas (found : Platform Link sippy) : Prop := found.holdings = platform.holdings
  have spared : ∀ found : Platform Link sippy, ¬stack.Binds answer platform.link →
      asWas found → took found := fun found fails same => Or.inr ⟨fails, same⟩
  have meets : Meets answer (Eq platform) stack.start
      ⟨fun _ _ => True, fun _ => took, fun _ => took⟩ := by
    refine meets_bind (fun _ found => asWas found ∧ found.maps = platform.maps ∧
      found.link = platform.link) (meets_modify ?_) fun _ => ?_
    · rintro _ rfl
      exact ⟨rfl, rfl, rfl⟩
    refine meets_bind (fun _ found => asWas found ∧ found.maps = platform.maps ∧
      found.link = conn.state ∧ conn.result = .ok ()) ?_ fun _ => ?_
    · refine meets_within .transport (fun _ _ => rfl) (fun _ _ => rfl) (fun _ _ _ => rfl)
        (meets_play _ platform.link) ?_ ?_ ?_ ?_
      · exact fun whole same => same.2.2.symm
      · exact fun _ _ _ _ _ => trivial
      · rintro whole _ _ same ⟨ended, rfl⟩
        exact ⟨same.1, same.2.1, rfl, ended⟩
      · rintro whole error _ same ⟨ended, rfl⟩
        refine spared _ (fun binds => ?_) same.1
        have returned := binds.connected
        rw [connected, ended] at returned
        cases returned
    refine meets_bind (fun value found => asWas found ∧ value.maps = platform.maps ∧
      value.link = conn.state ∧ conn.result = .ok ())
      (meets_get fun found same => same) fun value => ?_
    refine meets_bind (fun _ found => asWas found ∧ value.maps = platform.maps ∧
      conn.result = .ok () ∧ ∃ config, stack.transport.sipConfig conn.state = .ok config)
      (meets_ofExcept ?_ ?_) fun config => ?_
    · rintro config found ⟨same, maps, isLink, returned⟩ configured
      rw [isLink] at configured
      exact ⟨same, maps, returned, config, configured⟩
    · rintro error found ⟨same, maps, isLink, returned⟩ refused
      refine spared _ (fun binds => ?_) same
      obtain ⟨config, configured⟩ := binds.configured
      rw [isLink] at refused
      exact nomatch configured.symm.trans refused
    refine meets_bind (fun _ found => asWas found ∧ value.maps = platform.maps ∧
      conn.result = .ok () ∧ ∃ config, stack.transport.sipConfig conn.state = .ok config)
      (meets_modify fun found same => same) fun _ => ?_
    refine meets_bind (fun _ found => asWas found ∧ value.maps = platform.maps ∧
      (answer .sipTransactionManager = .ok () → stack.Binds answer platform.link))
      (meets_callOut (fun _ _ => trivial) ?_ ?_) fun _ => ?_
    · rintro found ⟨same, maps, returned, configured⟩ mapped
      exact ⟨same, maps, fun bound => ⟨returned, configured, mapped, bound⟩⟩
    · rintro error found ⟨same, _⟩ raised
      refine spared _ (fun binds => ?_) same
      exact nomatch binds.mapped.symm.trans raised
    refine meets_bind (fun _ found => asWas found ∧ value.maps = platform.maps ∧
      (answer .sipTransactionManager = .ok () → stack.Binds answer platform.link))
      (meets_modify fun found same => same) fun _ => ?_
    refine meets_bind (fun _ found => asWas found ∧ value.maps = platform.maps ∧
      stack.Binds answer platform.link)
      (meets_callOut (fun _ _ => trivial) ?_ ?_) fun _ => ?_
    · rintro found ⟨same, maps, binds⟩ bound
      exact ⟨same, maps, binds bound⟩
    · rintro error found ⟨same, _⟩ raised
      refine spared _ (fun binds => ?_) same
      exact nomatch binds.bound.symm.trans raised
    refine meets_bind (fun _ => took) (meets_modify ?_) fun _ => ?_
    · rintro found ⟨same, maps, binds⟩
      refine Or.inl ⟨binds, ?_⟩
      rw [← maps, ← same]
      rfl
    · exact meets_logInfo (fun _ _ same => same) _ _ _
  exact meets.left rfl

theorem startInternalApi_took (answer : Replies LinkCall) (platform : Platform Link sippy) :
    TookIf (Serves answer) .internalApi .internalApi platform.holdings
      ((stack.startInternalApi platform).play answer).state := by
  let asWas (found : Platform Link sippy) : Prop := found.holdings = platform.holdings
  let took : Platform Link sippy → Prop := TookIf (Serves answer) .internalApi .internalApi
    platform.holdings
  -- a call that raises leaves everything as it was, and one that returns has come that far
  have asked : ∀ (passed : List (StackCall LinkCall)) (call : StackCall LinkCall),
      call ∈ [StackCall.createInternalApiServer, .importUvicorn, .createApp, .startThread] →
      Meets answer (fun found => asWas found ∧ ∀ other ∈ passed, answer other = .ok ())
        (callOut call) ⟨fun _ _ => True,
          fun _ found => asWas found ∧ ∀ other ∈ call :: passed, answer other = .ok (),
          fun _ => took⟩ := by
    intro passed call named
    refine meets_callOut (fun _ _ => trivial) ?_ ?_
    · rintro found ⟨same, earlier⟩ returned
      refine ⟨same, fun other member => ?_⟩
      rcases List.mem_cons.mp member with isCall | inPassed
      · rw [isCall]
        exact returned
      · exact earlier other inPassed
    · rintro error found ⟨same, _⟩ raised
      refine Or.inr ⟨fun serves => ?_, same⟩
      exact nomatch (serves call named).symm.trans raised
  have meets : Meets answer (Eq platform) stack.startInternalApi
      ⟨fun _ _ => True, fun _ => took, fun _ => took⟩ := by
    refine meets_bind (fun _ found => asWas found ∧
      ∀ other ∈ [StackCall.createInternalApiServer], answer other = .ok ()) ?_ fun _ => ?_
    · rintro _ rfl
      exact asked [] .createInternalApiServer (by simp) platform ⟨rfl, by simp⟩
    refine meets_bind (fun _ found => asWas found ∧ ∀ other ∈ [StackCall.startThread, .createApp,
      .importUvicorn, .createInternalApiServer], answer other = .ok ()) ?_ fun _ => ?_
    · exact meets_bind _ (asked _ .importUvicorn (by simp)) fun _ =>
        meets_bind _ (asked _ .createApp (by simp)) fun _ => asked _ .startThread (by simp)
    refine meets_bind (fun _ => took) (meets_modify ?_) fun _ => ?_
    · rintro found ⟨same, served⟩
      refine Or.inl ⟨fun call named => served call ?_, ?_⟩
      · simpa [or_comm, or_assoc, or_left_comm] using named
      · rw [← same]
        rfl
    · exact meets_logInfo (fun _ _ same => same) _ _ _
  exact meets.left rfl

/-- `run` has taken its timers whatever it comes to. -/
theorem run_took (controller : Nat) (answer : Replies LinkCall) (platform : Platform Link sippy) :
    ((stack.run controller platform).play answer).state.holdings =
      (platform.holdings.take .shutdownTimer (.shutdownTimer controller)).take .reloadTimer
        .reloadTimer := by
  let taken : Holdings StackPlace StackThing :=
    (platform.holdings.take .shutdownTimer (.shutdownTimer controller)).take .reloadTimer
      .reloadTimer
  let took (found : Platform Link sippy) : Prop := found.holdings = taken
  have given : took (mapHoldings (Holdings.take .reloadTimer .reloadTimer)
      (mapHoldings (Holdings.take .shutdownTimer (.shutdownTimer controller)) platform)) := rfl
  refine (stack.run_keeps answer took controller fun _ _ same => same).leaves ?_
    (fun _ _ => id) given
  rintro _ _ ⟨earlier, same, rfl⟩
  exact same

section Stopping

variable [DecidableEq sippy.Transaction] (cancel : sippy.Object → sippy.Objects → sippy.Objects)

/-- The stack has released what it had, as far as some of its attributes referred to it. -/
def Freed (before : Holdings StackPlace StackThing) (slots : List StackPlace)
    (found : Platform Link sippy) : Prop :=
  Holdings.Released before found.holdings ∧ ∀ slot ∈ slots, found.holdings.place slot = none

omit [DecidableEq sippy.Transaction] in
theorem Freed.release {before : Holdings StackPlace StackThing} {slots : List StackPlace}
    {found : Platform Link sippy} (freed : Freed before slots found) (slot : StackPlace) :
    Freed before (slot :: slots) (found.mapHoldings (Holdings.release slot)) := by
  refine ⟨freed.1.release slot, fun other member => ?_⟩
  change Function.update found.holdings.place slot none other = none
  by_cases same : other = slot
  · rw [same, Function.update_self]
  · rw [Function.update_of_ne same]
    exact freed.2 other ((List.mem_cons.mp member).resolve_left same)

omit [DecidableEq sippy.Transaction] in
theorem Freed.vacant {before : Holdings StackPlace StackThing} {slots : List StackPlace}
    {found : Platform Link sippy} (freed : Freed before slots found) {slot : StackPlace}
    (vacant : found.holdings.place slot = none) : Freed before (slot :: slots) found :=
  ⟨freed.1, List.forall_mem_cons.mpr ⟨vacant, freed.2⟩⟩

theorem stopTransactionManager_freed (answer : Replies LinkCall)
    (before : Holdings StackPlace StackThing) (slots : List StackPlace) :
    Meets answer (Freed before slots : Platform Link sippy → Prop)
      (stopTransactionManager cancel)
      ⟨fun _ _ => True, fun _ => Freed before (.transactionManager :: slots),
        fun _ => Freed before slots⟩ := by
  refine meets_bind (fun value found => Freed before slots found ∧ value.holdings = found.holdings)
    (meets_get fun found freed => ⟨freed, rfl⟩) fun value => ?_
  cases refers : value.holdings.place .transactionManager with
  | none =>
      refine meets_pure ?_
      rintro found ⟨freed, same⟩
      exact freed.vacant (by rw [← same]; exact refers)
  | some manager =>
      refine meets_bind (fun _ => Freed before slots)
        (meets_modify fun found freed => freed.1) fun _ => ?_
      refine meets_bind (fun _ => Freed before slots)
        (meets_callOut (fun _ _ => trivial) (fun _ freed _ => freed) fun _ _ freed _ => freed)
        fun _ => ?_
      exact meets_modify fun found freed => freed.release .transactionManager

omit [DecidableEq sippy.Transaction] in
theorem stopInternalApi_freed (answer : Replies LinkCall)
    (before : Holdings StackPlace StackThing) (slots : List StackPlace) :
    Meets answer (Freed before slots : Platform Link sippy → Prop) stopInternalApi
      ⟨fun _ _ => True, fun _ => Freed before (.internalApi :: slots),
        fun _ => Freed before slots⟩ := by
  refine meets_bind (fun value found => Freed before slots found ∧ value.holdings = found.holdings)
    (meets_get fun found freed => ⟨freed, rfl⟩) fun value => ?_
  cases refers : value.holdings.place .internalApi with
  | none =>
      refine meets_pure ?_
      rintro found ⟨freed, same⟩
      exact freed.vacant (by rw [← same]; exact refers)
  | some server =>
      refine meets_bind (fun _ => Freed before slots)
        (meets_modify fun found freed => freed.1) fun _ => ?_
      refine meets_bind (fun _ => Freed before slots)
        (meets_callOut (fun _ _ => trivial) (fun _ freed _ => freed) fun _ _ freed _ => freed)
        fun _ => ?_
      refine meets_bind (fun _ => Freed before slots) (meets_modify fun found freed => ?_)
        fun _ => ?_
      · obtain ⟨_, letGone⟩ := letGo_eq server found
        rw [letGone]
        exact freed
      exact meets_modify fun found freed => freed.release .internalApi

/-- `stop` only releases.  The timers of the loop are released whatever it comes to, and when
it returns none of the attributes refers to anything. -/
theorem stop_freed (answer : Replies LinkCall) (before : Holdings StackPlace StackThing) :
    Meets answer (Freed before [] : Platform Link sippy → Prop) (stack.stop cancel)
      ⟨fun _ _ => True,
        fun _ => Freed before [.internalApi, .transactionManager, .reloadTimer, .shutdownTimer],
        fun _ => Freed before [.reloadTimer, .shutdownTimer]⟩ := by
  have less : ∀ (slots : List StackPlace) (_ : StackError) (found : Platform Link sippy),
      Freed before (slots ++ [.reloadTimer, .shutdownTimer]) found →
        Freed before [.reloadTimer, .shutdownTimer] found :=
    fun slots _ found freed =>
      ⟨freed.1, fun slot member => freed.2 slot (List.mem_append_right slots member)⟩
  refine meets_bind (fun _ => Freed before [.shutdownTimer])
    (meets_modify fun found freed => freed.release _) fun _ => ?_
  refine meets_bind (fun _ => Freed before [.reloadTimer, .shutdownTimer])
    (meets_modify fun found freed => freed.release _) fun _ => ?_
  refine meets_bind (fun _ => Freed before [.reloadTimer, .shutdownTimer])
    (meets_modify ?_) fun _ => ?_
  · intro found freed
    obtain ⟨_, disposed⟩ := disposeCallMap_eq found
    rw [disposed]
    exact freed
  refine meets_bind (fun _ => Freed before [.transactionManager, .reloadTimer, .shutdownTimer])
    (stopTransactionManager_freed cancel answer before _) fun _ => ?_
  refine meets_bind (fun _ => Freed before
    [.internalApi, .transactionManager, .reloadTimer, .shutdownTimer]) ?_ fun _ => ?_
  · exact (stopInternalApi_freed answer before _).mono (fun _ _ => id) (fun _ _ => id)
      (less [.transactionManager])
  exact (meets_transport (fun _ _ freed => freed) (fun _ _ => trivial) _).mono (fun _ _ => id)
    (fun _ _ => id) (less [.internalApi, .transactionManager])

/-- What `stop` leaves of the holdings, whatever it comes to. -/
theorem stop_released (answer : Replies LinkCall) (platform : Platform Link sippy) :
    Freed platform.holdings [.reloadTimer, .shutdownTimer]
      ((stack.stop cancel platform).play answer).state := by
  refine (stack.stop_freed cancel answer platform.holdings).leaves ?_ (fun _ _ => id)
    ⟨Holdings.Released.refl _, List.forall_mem_nil _⟩
  exact fun _ _ freed => ⟨freed.1, fun slot member => freed.2 slot
    (List.mem_cons_of_mem _ (List.mem_cons_of_mem _ member))⟩

/-! ### Whole runs -/

/-- An attribute that still refers to something comes to refer to something else. -/
def Overwrites (platform : Platform Link sippy) : PlatformAction LinkCall sippy → Prop
  | .start answer =>
      stack.Binds answer platform.link ∧ platform.holdings.place .transactionManager ≠ none
  | .startInternalApi answer =>
      Serves answer ∧ platform.holdings.place .internalApi ≠ none
  | .run _ _ =>
      platform.holdings.place .shutdownTimer ≠ none ∨ platform.holdings.place .reloadTimer ≠ none
  | _ => False

def Replaces (platform : Platform Link sippy) (thing : Nat) :
    PlatformAction LinkCall sippy → Prop
  | .start answer =>
      stack.Binds answer platform.link ∧
        platform.holdings.place .transactionManager = some thing
  | .startInternalApi answer =>
      Serves answer ∧ platform.holdings.place .internalApi = some thing
  | .run _ _ =>
      platform.holdings.place .shutdownTimer = some thing ∨
        platform.holdings.place .reloadTimer = some thing
  | _ => False

/-- `stop` gets as far as to have joined the thread of the server. -/
def Joins (answer : Replies LinkCall) (holdings : Holdings StackPlace StackThing) (server : Nat) :
    Prop :=
  (∀ manager ∈ holdings.place .transactionManager, answer (.shutdown manager) = .ok ()) ∧
    holdings.place .internalApi = some server ∧ answer (.joinThread server) = .ok ()

/-- The thread of the server outlasts the join of `stop`. -/
def LetsGo (platform : Platform Link sippy) (server : Nat) :
    PlatformAction LinkCall sippy → Prop
  | .stop answer => Joins answer platform.holdings server ∧ platform.outlasts server = true
  | _ => False

omit [DecidableEq sippy.Transaction] in
theorem overwrites_iff (platform : Platform Link sippy) (action : PlatformAction LinkCall sippy) :
    stack.Overwrites platform action ↔ ∃ thing, stack.Replaces platform thing action := by
  cases action with
  | run controller answer =>
      simp only [Overwrites, Replaces, Option.ne_none_iff_exists', exists_or]
  | _ => simp [Overwrites, Replaces, Option.ne_none_iff_exists']

omit [DecidableEq sippy.Transaction] in
theorem traced_tookIf {taken : Prop} {slot : StackPlace} {thing : StackThing}
    {before : Holdings StackPlace StackThing} {found : Platform Link sippy}
    (took : TookIf taken slot thing before found) (index : Nat) :
    found.holdings.Traced index ↔
      before.Traced index ∧ ¬(taken ∧ before.place slot = some index) := by
  rcases took with ⟨taken, isTaken⟩ | ⟨spared, same⟩
  · rw [isTaken, Holdings.traced_take]
    exact and_congr_right fun _ => not_congr (and_iff_right taken).symm
  · rw [same]
    exact (and_iff_left fun both => spared both.1).symm

structure SameServer (before found : Platform Link sippy) : Prop where
  outlasts : found.outlasts = before.outlasts
  lingering : found.lingering = before.lingering
  server : found.holdings.place .internalApi = before.holdings.place .internalApi

/-- The servers that have been let go of are those there were, and such as `stop` does. -/
def LetGoOf (answer : Replies LinkCall) (before found : Platform Link sippy) : Prop :=
  found.outlasts = before.outlasts ∧ ∀ server, server ∈ found.lingering ↔
    server ∈ before.lingering ∨
      Joins answer before.holdings server ∧ before.outlasts server = true

omit [DecidableEq sippy.Transaction] in
theorem SameServer.letGoOf {answer : Replies LinkCall} {before found : Platform Link sippy}
    (same : SameServer before found) (spared : ∀ server, ¬Joins answer before.holdings server) :
    LetGoOf answer before found := by
  refine ⟨same.outlasts, fun server => ?_⟩
  rw [same.lingering]
  exact (or_iff_left fun both => spared server both.1).symm

theorem stopTransactionManager_sameServer (answer : Replies LinkCall)
    (before : Platform Link sippy) :
    Meets answer (fun found => SameServer before found ∧
        found.holdings.place .transactionManager = before.holdings.place .transactionManager)
      (stopTransactionManager cancel)
      ⟨fun _ _ => True, fun _ found => SameServer before found ∧
          ∀ manager ∈ before.holdings.place .transactionManager,
            answer (.shutdown manager) = .ok (),
        fun _ => LetGoOf answer before⟩ := by
  refine meets_bind (fun value found => SameServer before found ∧
    value.holdings.place .transactionManager = before.holdings.place .transactionManager)
    (meets_get fun found same => same) fun value => ?_
  cases refers : value.holdings.place .transactionManager with
  | none =>
      refine meets_pure ?_
      rintro found ⟨same, isPlace⟩
      refine ⟨same, fun manager isManager => ?_⟩
      rw [← isPlace] at isManager
      cases isManager
  | some manager =>
      refine meets_bind (fun _ found => SameServer before found ∧
        some manager = before.holdings.place .transactionManager)
        (meets_modify fun found same => ⟨⟨same.1.1, same.1.2, same.1.3⟩, same.2⟩) fun _ => ?_
      refine meets_bind (fun _ found => SameServer before found ∧
        some manager = before.holdings.place .transactionManager ∧
          answer (.shutdown manager) = .ok ())
        (meets_callOut (fun _ _ => trivial) (fun found same shut => ⟨same.1, same.2, shut⟩) ?_)
        fun _ => ?_
      · rintro error found ⟨same, isPlace⟩ raised
        refine same.letGoOf fun server joins => ?_
        have returned := joins.1 manager isPlace.symm
        rw [raised] at returned
        cases returned
      · refine meets_modify ?_
        rintro found ⟨same, isPlace, shut⟩
        refine ⟨⟨same.outlasts, same.lingering, ?_⟩, fun other isOther => ?_⟩
        · exact (Holdings.place_release_of_ne (by decide)).trans same.server
        · rw [← isPlace] at isOther
          cases isOther
          exact shut

omit [DecidableEq sippy.Transaction] in
theorem stopInternalApi_letGoOf (answer : Replies LinkCall) (before : Platform Link sippy) :
    Meets answer (fun found => SameServer before found ∧
        ∀ manager ∈ before.holdings.place .transactionManager, answer (.shutdown manager) = .ok ())
      stopInternalApi
      ⟨fun _ _ => True, fun _ => LetGoOf answer before, fun _ => LetGoOf answer before⟩ := by
  refine meets_bind (fun value found => (SameServer before found ∧
    ∀ manager ∈ before.holdings.place .transactionManager, answer (.shutdown manager) = .ok ()) ∧
    value.holdings.place .internalApi = before.holdings.place .internalApi)
    (meets_get fun found same => ⟨same, same.1.server⟩) fun value => ?_
  cases refers : value.holdings.place .internalApi with
  | none =>
      refine meets_pure ?_
      rintro found ⟨⟨same, _⟩, isPlace⟩
      refine same.letGoOf fun server joins => ?_
      rw [joins.2.1] at isPlace
      cases isPlace
  | some server =>
      refine meets_bind (fun _ found => SameServer before found ∧
        (answer (.joinThread server) = .ok () → Joins answer before.holdings server) ∧
          some server = before.holdings.place .internalApi)
        (meets_modify ?_) fun _ => ?_
      · rintro found ⟨⟨same, passed⟩, isPlace⟩
        exact ⟨⟨same.1, same.2, same.3⟩, fun joined => ⟨passed, isPlace.symm, joined⟩, isPlace⟩
      refine meets_bind (fun _ found => SameServer before found ∧
        Joins answer before.holdings server) (meets_callOut (fun _ _ => trivial) ?_ ?_)
        fun _ => ?_
      · rintro found ⟨same, joins, _⟩ joined
        exact ⟨same, joins joined⟩
      · rintro error found ⟨same, _, isPlace⟩ raised
        refine same.letGoOf fun other joins => ?_
        obtain rfl := Option.some.inj (isPlace.trans joins.2.1)
        cases raised.symm.trans joins.2.2
      refine meets_bind (fun _ => LetGoOf answer before) (meets_modify ?_) fun _ =>
        meets_modify fun _ letGo => letGo
      rintro found ⟨same, joins⟩
      have only : ∀ other, Joins answer before.holdings other ↔ other = server := by
        intro other
        refine ⟨fun joinsToo => Option.some.inj (joinsToo.2.1.symm.trans joins.2.1), ?_⟩
        rintro rfl
        exact joins
      unfold letGo
      split
      · rename_i outlasts
        rw [same.outlasts] at outlasts
        refine ⟨same.outlasts, fun other => ?_⟩
        rw [List.mem_append, List.mem_singleton, same.lingering, only]
        refine or_congr_right ⟨?_, And.left⟩
        rintro rfl
        exact ⟨rfl, outlasts⟩
      · rename_i ends
        rw [same.outlasts] at ends
        refine ⟨same.outlasts, fun other => ?_⟩
        rw [same.lingering, only]
        refine (or_iff_left ?_).symm
        rintro ⟨rfl, outlasts⟩
        exact ends outlasts

theorem stop_letGoOf (answer : Replies LinkCall) (platform : Platform Link sippy) :
    LetGoOf answer platform ((stack.stop cancel platform).play answer).state := by
  let sameServer (found : Platform Link sippy) : Prop := SameServer platform found ∧
    found.holdings.place .transactionManager = platform.holdings.place .transactionManager
  have released : ∀ slot, slot ≠ .transactionManager → slot ≠ .internalApi →
      Meets answer sameServer (modify (mapHoldings (Holdings.release slot)))
        ⟨fun _ _ => True, fun _ => sameServer, fun _ => LetGoOf answer platform⟩ := by
    intro slot notManager notServer
    refine meets_modify ?_
    rintro found ⟨same, isManager⟩
    refine ⟨⟨same.outlasts, same.lingering, ?_⟩, ?_⟩
    · exact (Holdings.place_release_of_ne notServer.symm).trans same.server
    · exact (Holdings.place_release_of_ne notManager.symm).trans isManager
  have meets : Meets answer sameServer (stack.stop cancel)
      ⟨fun _ _ => True, fun _ => LetGoOf answer platform, fun _ => LetGoOf answer platform⟩ := by
    refine meets_bind (fun _ => sameServer) (released .shutdownTimer (by decide) (by decide))
      fun _ => ?_
    refine meets_bind (fun _ => sameServer) (released .reloadTimer (by decide) (by decide))
      fun _ => ?_
    refine meets_bind (fun _ => sameServer) (meets_modify fun found same => ?_) fun _ => ?_
    · obtain ⟨_, disposed⟩ := disposeCallMap_eq found
      rw [disposed]
      exact ⟨⟨same.1.1, same.1.2, same.1.3⟩, same.2⟩
    refine meets_bind _ (stopTransactionManager_sameServer cancel answer platform) fun _ => ?_
    refine meets_bind _ (stopInternalApi_letGoOf answer platform) fun _ => ?_
    exact meets_transport (fun _ _ letGo => letGo) (fun _ _ => trivial) _
  exact meets.left ⟨⟨rfl, rfl, rfl⟩, rfl⟩

omit [DecidableEq sippy.Transaction] in
theorem LetsGo.outlasts {platform : Platform Link sippy} {server : Nat}
    {action : PlatformAction LinkCall sippy} (letsGo : LetsGo platform server action) :
    platform.outlasts server = true := by
  cases action with
  | stop answer => exact letsGo.2
  | _ => exact letsGo.elim

variable {cancel} {servers : Nat → AsInstance} {platform next : Platform Link sippy}

theorem step_traced (action : PlatformAction LinkCall sippy)
    (taken : stack.step cancel servers platform action = some next) (thing : Nat) :
    next.holdings.Traced thing ↔
      platform.holdings.Traced thing ∧ ¬stack.Replaces platform thing action := by
  have untouched : next.holdings = platform.holdings →
      stack.Replaces platform thing action = False → (next.holdings.Traced thing ↔
        platform.holdings.Traced thing ∧ ¬stack.Replaces platform thing action) := by
    intro same spares
    rw [same, spares]
    exact (and_iff_left id).symm
  cases step_cases taken with
  | start answer idle => exact traced_tookIf (stack.start_took answer platform) thing
  | startInternalApi answer =>
      exact traced_tookIf (stack.startInternalApi_took answer platform) thing
  | run controller answer idle outside =>
      rw [run_took, Holdings.traced_take, Holdings.traced_take, Holdings.place_take,
        Function.update_of_ne (by decide), and_assoc]
      simp only [Replaces, not_or, ne_eq]
  | stop answer =>
      rw [(stack.stop_released cancel answer platform).1.traced]
      exact (and_iff_left id).symm
  | request | poll | leaveLoop | calls | transactions | endThread => exact untouched rfl rfl

theorem step_owned (action : PlatformAction LinkCall sippy)
    (taken : stack.step cancel servers platform action = some next) :
    next.holdings.Owned ↔ platform.holdings.Owned ∧ ¬stack.Overwrites platform action := by
  rw [overwrites_iff, not_exists]
  exact (forall_congr' (stack.step_traced action taken)).trans forall_and

/-- Only `stop` lets go of servers. -/
theorem step_lingering (action : PlatformAction LinkCall sippy)
    (taken : stack.step cancel servers platform action = some next) :
    next.outlasts = platform.outlasts ∧ ∀ server, (server ∈ next.lingering ↔
      server ∈ platform.lingering ∨ LetsGo platform server action) := by
  let kept (found : Platform Link sippy) : Prop :=
    found.outlasts = platform.outlasts ∧ found.lingering = platform.lingering
  have untouched : kept next → (∀ server, ¬LetsGo platform server action) →
      next.outlasts = platform.outlasts ∧ ∀ server, (server ∈ next.lingering ↔
        server ∈ platform.lingering ∨ LetsGo platform server action) := by
    rintro ⟨outlasts, lingering⟩ spares
    refine ⟨outlasts, fun server => ?_⟩
    rw [lingering]
    exact (or_iff_left (spares server)).symm
  cases step_cases taken with
  | start answer idle =>
      have meets := stack.start_keeps answer kept (fun _ _ same => same)
        (fun _ _ _ _ _ same => same) (fun _ _ same => same) (fun _ _ same => same)
        fun _ _ same => same
      exact untouched (meets.left ⟨rfl, rfl⟩) fun _ => id
  | startInternalApi answer =>
      have meets := stack.startInternalApi_keeps answer kept (fun _ same => same)
        fun _ _ same => same
      exact untouched (meets.left ⟨rfl, rfl⟩) fun _ => id
  | run controller answer idle outside =>
      have given : kept (mapHoldings (Holdings.take .reloadTimer .reloadTimer)
        (mapHoldings (Holdings.take .shutdownTimer (.shutdownTimer controller)) platform)) :=
        ⟨rfl, rfl⟩
      refine untouched ((stack.run_keeps answer kept controller fun _ _ same => same).leaves ?_
        (fun _ _ => id) given) fun _ => id
      rintro _ _ ⟨earlier, same, rfl⟩
      exact same
  | stop answer => exact stack.stop_letGoOf cancel answer platform
  | request | poll | leaveLoop | calls | transactions | endThread =>
      exact untouched ⟨rfl, rfl⟩ fun _ => id

/-- When a `stop` returns none of the attributes refers to anything. -/
theorem stop_vacant {answer : Replies LinkCall}
    (returned : ((stack.stop cancel platform).play answer).result = .ok ()) :
    Holdings.Released platform.holdings
        ((stack.stop cancel platform).play answer).state.holdings ∧
      ∀ slot, ((stack.stop cancel platform).play answer).state.holdings.place slot = none := by
  have done := (stack.stop_freed cancel answer platform.holdings platform
    ⟨Holdings.Released.refl _, List.forall_mem_nil _⟩).returns () returned
  refine ⟨done.1, fun slot => done.2 slot ?_⟩
  cases slot <;> simp

/-- Whatever an application does with its stack, in any order and any number of times, and at
whichever calls its operations raise: when a `stop` returns the process does not hold a thing of
the stack any more, exactly if it is a server whose thread has ended by itself, or if no attribute
that referred to it came to refer to something else and no `stop` let go of it before its thread
had ended. -/
theorem stop_releases_iff {start : Platform Link sippy}
    {actions : List (PlatformAction LinkCall sippy)} (fresh : start.holdings = Holdings.empty)
    (waited : start.lingering = [])
    (ran : Transition.run (stack.step cancel servers) start actions = some platform)
    {answer : Replies LinkCall}
    (returned : ((stack.stop cancel platform).play answer).result = .ok ()) (thing : Nat) :
    ¬((stack.stop cancel platform).play answer).state.Holds thing ↔
      thing ∈ ((stack.stop cancel platform).play answer).state.ended ∨
        Transition.Along (stack.step cancel servers)
          (fun platform action _ =>
            ¬(stack.Replaces platform thing action ∨ LetsGo platform thing action))
          start (actions ++ [.stop answer]) := by
  let spared (found : Platform Link sippy) : Prop :=
    found.holdings.Traced thing ∧ thing ∉ found.lingering
  have each : ∀ (platform : Platform Link sippy) (action : PlatformAction LinkCall sippy)
      (next : Platform Link sippy), stack.step cancel servers platform action = some next →
      (spared next ↔ spared platform ∧
        ¬(stack.Replaces platform thing action ∨ LetsGo platform thing action)) := by
    intro platform action next taken
    change _ ∧ _ ↔ (_ ∧ _) ∧ _
    rw [stack.step_traced action taken, (stack.step_lingering action taken).2, not_or, not_or]
    exact and_and_and_comm
  have initially : spared start := by
    refine ⟨?_, ?_⟩
    · rw [fresh]
      exact Holdings.owned_empty thing
    · rw [waited]
      exact List.not_mem_nil
  have whole : Transition.run (stack.step cancel servers) start (actions ++ [.stop answer]) =
      some ((stack.stop cancel platform).play answer).state :=
    Transition.run_append ran _
  rw [← and_iff_right (b := Transition.Along _ _ start _) initially,
    ← Transition.iff_along each whole]
  change ¬((_ ∨ _) ∧ _) ↔ _ ∨ _ ∧ _
  rw [Holdings.traced_iff_of_vacant (stack.stop_vacant returned).2, not_and_not_right]
  constructor
  · intro ends
    by_cases ended : thing ∈ ((stack.stop cancel platform).play answer).state.ended
    · exact Or.inl ended
    · exact Or.inr (not_or.mp (mt ends ended))
  · rintro (ended | ⟨released, waitedFor⟩) held
    · exact ended
    · exact absurd held (not_or.mpr ⟨released, waitedFor⟩)

end Stopping

/-! ### A stack to run by hand -/

instance (answer : Replies LinkCall) (link : Link) : Decidable (stack.Binds answer link) :=
  decidable_of_iff
    ((stack.connected answer link).result = .ok () ∧
      (stack.transport.sipConfig (stack.connected answer link).state).isOk = true ∧
      answer .createCallMap = .ok () ∧ answer .sipTransactionManager = .ok ())
    (by
      cases configured : stack.transport.sipConfig (stack.connected answer link).state with
      | error error =>
          refine iff_of_false (fun parts => Bool.noConfusion parts.2.1) fun binds => ?_
          obtain ⟨config, isOk⟩ := binds.configured
          exact nomatch configured.symm.trans isOk
      | ok config =>
          exact ⟨fun parts => ⟨parts.1, ⟨config, configured⟩, parts.2.2.1, parts.2.2.2⟩,
            fun binds => ⟨binds.connected, rfl, binds.mapped, binds.bound⟩⟩)

instance (platform : Platform Link sippy) :
    ∀ action, Decidable (stack.Overwrites platform action)
  | .start answer => inferInstanceAs (Decidable (stack.Binds answer platform.link ∧ _))
  | .startInternalApi answer =>
      inferInstanceAs (Decidable ((∀ call ∈ _, answer call = .ok ()) ∧ _))
  | .run _ _ => inferInstanceAs (Decidable (_ ∨ _))
  | .stop _ | .request _ _ | .poll _ | .leaveLoop | .calls _ | .transactions _ _
  | .endThread _ => .isFalse id

instance (platform : Platform Link sippy) (thing : Nat) :
    ∀ action, Decidable (stack.Replaces platform thing action)
  | .start answer => inferInstanceAs (Decidable (stack.Binds answer platform.link ∧ _))
  | .startInternalApi answer =>
      inferInstanceAs (Decidable ((∀ call ∈ _, answer call = .ok ()) ∧ _))
  | .run _ _ => inferInstanceAs (Decidable (_ ∨ _))
  | .stop _ | .request _ _ | .poll _ | .leaveLoop | .calls _ | .transactions _ _
  | .endThread _ => .isFalse id

instance (platform : Platform Link sippy) (server : Nat) :
    ∀ action : PlatformAction LinkCall sippy, Decidable (LetsGo platform server action)
  | .stop answer => inferInstanceAs (Decidable
      (((∀ manager ∈ _, answer (.shutdown manager) = .ok ()) ∧ _ ∧ _) ∧ _))
  | .start _ | .startInternalApi _ | .run _ _ | .request _ _ | .poll _ | .leaveLoop | .calls _
  | .transactions _ _ | .endThread _ => .isFalse id

end BaseAsStack

def sampleSippy : SippyTypes := ⟨Unit, Unit, Unit, Unit, Unit⟩

instance : DecidableEq sampleSippy.Transaction :=
  inferInstanceAs (DecidableEq Unit)

def sampleStack : BaseAsStack Unit Empty where
  sipUserAgentName := "as"
  transport := udpTransport "192.0.2.1" 5060
  peerAddress := "192.0.2.9"
  peerPort := 5060
  allowedPeers := ["192.0.2.9"]
  apiAddress := "127.0.0.1"
  apiPort := 8080
  reloadLogFields := OrderedDict.singleton "rules_file" (.str "rules.yaml")

def samplePlatform : Platform Unit sampleSippy where
  link := ()
  holdings := Holdings.empty
  objects _ :=
    { table := fun _ => none
      attributes := fun _ _ => none
      cbFunc := fun _ => none
      loop := () }
  calls := Config.initial (sampleInterpreter 4)
  controllers := [{}]

def raisingAt (raises : StackCall Empty) : Replies Empty :=
  fun call => if call = raises then .error (.foreign "refused") else .ok ()

def returning : Replies Empty :=
  fun _ => .ok ()

/-- The port is taken at first, and the manager cannot be shut down at first. -/
def sampleLife : List (PlatformAction Empty sampleSippy) :=
  [.start (raisingAt .sipTransactionManager), .stop returning, .start returning,
    .startInternalApi returning, .run 0 returning, .request 0 "signal SIGTERM", .poll 2,
    .leaveLoop, .stop (raisingAt (.shutdown 0))]

theorem stop_releases_iff_retried :
    ∃ platform,
      Transition.run (sampleStack.step (fun _ objects => objects) sampleServer)
        { samplePlatform with outlasts := fun server => server == 1 } sampleLife = some platform ∧
      platform.holdings.Held 0 ∧ platform.holdings.Held 1 ∧
      ¬((sampleStack.stop (fun _ objects => objects) platform).play returning).state.Holds 0 ∧
      ((sampleStack.stop (fun _ objects => objects) platform).play returning).state.Holds 1 := by
  obtain ⟨platform, ran, manager, server, returned, noneEnded⟩ : ∃ platform,
      Transition.run (sampleStack.step (fun _ objects => objects) sampleServer)
        { samplePlatform with outlasts := fun server => server == 1 } sampleLife =
          some platform ∧ platform.holdings.Held 0 ∧ platform.holdings.Held 1 ∧
      ((sampleStack.stop (fun _ objects => objects) platform).play returning).result = .ok () ∧
      ((sampleStack.stop (fun _ objects => objects) platform).play returning).state.ended = [] :=
    ⟨_, rfl, by decide, by decide, rfl, rfl⟩
  have releases := fun thing => sampleStack.stop_releases_iff rfl rfl ran returned thing
  refine ⟨platform, ran, manager, server, (releases 0).mpr (Or.inr (by decide)), ?_⟩
  by_contra released
  rcases (releases 1).mp released with ended | waitedFor
  · rw [noneEnded] at ended
    cases ended
  · exact absurd waitedFor (by decide)

end AsPlatform
