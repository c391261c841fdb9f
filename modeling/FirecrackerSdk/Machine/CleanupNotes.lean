import FirecrackerSdk.Lib.Watched
import FirecrackerSdk.Machine.Passive

/-!
# What an executed cleanup function has asked for

The trace of a run says which cleanup functions were executed and how they failed. The
environment knows nothing of the trace: it knows what it was asked and what it
answered. Two questions are asked by cleanup functions and by nothing else – to remove a file,
and to run the closure of a network operation – and an environment that takes notes of them
(`FirecrackerSdk.Env.noting`) shows that the two accounts agree, entry by entry: a function
that the trace calls executed has been run, once, when the trace says so, and it has
failed as the answer to its question did (`FirecrackerSdk.executions_eq_notes`).
-/

namespace FirecrackerSdk

open Prog

variable {W : Type}

/-! ### Notes -/

/-- A question that a cleanup function has asked, and the answer. -/
inductive CleanupNote where
  /-- `fs::remove_file`. -/
  | removed (path : String) (answer : Except IoError Unit)
  /-- The closure of a network operation. -/
  | called (tag : String) (answer : Except Error Unit)

namespace CleanupNote

/-- What the function that asked is for. -/
def action : CleanupNote → CleanupAction
  | removed path _ => .removeFile path
  | called tag _ => .external tag

/-- How the function that asked has failed. That the file is gone already is not a
failure. -/
def failure : CleanupNote → Option Error
  | removed _ (.ok ()) => none
  | removed _ (.error error) => if error.kind = .notFound then none else some (.io error)
  | called _ (.ok ()) => none
  | called _ (.error error) => some error

end CleanupNote

/-- What an answer is worth noting. -/
def Query.cleanupNotes : {α : Type} → Query α → α → List CleanupNote
  | _, .removeFile path, answer => [.removed path answer]
  | _, .external tag, answer => [.called tag answer]
  | _, _, _ => []

/-- **The same environment, taking notes of what cleanup functions ask.** -/
def Env.noting (env : Env W) : Env (Watched W CleanupNote) where
  answer query world :=
    ((env.answer query world.state).1,
      { state := (env.answer query world.state).2
        log := world.log ++ query.cleanupNotes (env.answer query world.state).1 })
  unprintable := env.unprintable

/-- The executions of a trace, in order. -/
def executions (trace : List Event) : List Execution :=
  trace.filterMap fun
    | .executed x => some x
    | _ => none

theorem executions_append (t t' : List Event) :
    executions (t ++ t') = executions t ++ executions t' :=
  List.filterMap_append

theorem executions_pushed (cleanups : List CleanupFn) :
    executions (cleanups.map .pushed) = [] := by
  rw [executions, List.filterMap_map, List.filterMap_eq_nil_iff]
  intro cleanup _
  rfl

/-! ### The two accounts -/

/-- **The executions are the questions**, with the same purpose and the same end, and in the same
order. -/
def Matches (execs : List Execution) (notes : List CleanupNote) : Prop :=
  execs.map (fun x => (x.cleanup.action, x.failure)) =
    notes.map fun note => (note.action, note.failure)

theorem Matches.append {execs execs' : List Execution} {notes notes' : List CleanupNote}
    (h : Matches execs notes) (h' : Matches execs' notes') :
    Matches (execs ++ execs') (notes ++ notes') := by
  rw [Matches, List.map_append, List.map_append, h, h']

/-- What is added to the trace matches what is added to the notes. -/
def Accounts (s s' : Sys (Watched W CleanupNote)) : Prop :=
  ∃ events notes, s'.trace = s.trace ++ events ∧ s'.world.log = s.world.log ++ notes ∧
    Matches (executions events) notes

instance : Std.Refl (Accounts (W := W)) where
  refl _ := ⟨[], [], (List.append_nil _).symm, (List.append_nil _).symm, rfl⟩

instance : IsTrans (Sys (Watched W CleanupNote)) Accounts where
  trans _ _ _ := by
    rintro ⟨events, notes, htrace, hlog, h⟩ ⟨events', notes', htrace', hlog', h'⟩
    refine ⟨events ++ events', notes ++ notes', ?_, ?_, ?_⟩
    · rw [htrace', htrace, List.append_assoc]
    · rw [hlog', hlog, List.append_assoc]
    · rw [executions_append]
      exact h.append h'

/-- Writing to the state, with events that execute nothing. -/
theorem accounts_modify {f : Sys (Watched W CleanupNote) → Sys (Watched W CleanupNote)}
    (hworld : ∀ s, (f s).world = s.world)
    (htrace : ∀ s, ∃ events, (f s).trace = s.trace ++ events ∧ executions events = []) :
    Within Accounts (Prog.modify f : Op (Watched W CleanupNote) Unit) := by
  intro s
  obtain ⟨events, hevents, hnone⟩ := htrace s
  refine ⟨events, [], hevents, ?_, ?_⟩
  · rw [List.append_nil]
    exact congrArg Watched.log (hworld s)
  · rw [hnone]
    rfl

/-- Writing to the state alone. -/
theorem accounts_write {f : Sys (Watched W CleanupNote) → Sys (Watched W CleanupNote)}
    (hworld : ∀ s, (f s).world = s.world) (htrace : ∀ s, (f s).trace = s.trace) :
    Within Accounts (Prog.modify f : Op (Watched W CleanupNote) Unit) :=
  accounts_modify hworld fun s => ⟨[], by rw [htrace, List.append_nil], rfl⟩

theorem accounts_emit {e : Event} (h : executions [e] = []) :
    Within Accounts (Op.emit e : Op (Watched W CleanupNote) Unit) :=
  accounts_modify (fun _ => rfl) fun _ => ⟨[e], rfl, h⟩

theorem accounts_update (f : Machine → Machine) :
    Within Accounts (Op.update f : Op (Watched W CleanupNote) Unit) :=
  accounts_write (fun _ => rfl) fun _ => rfl

theorem accounts_box (action : CleanupAction) :
    Within Accounts (Op.box action : Op (Watched W CleanupNote) CleanupFn) :=
  fun _ => ⟨[], [], (List.append_nil _).symm, (List.append_nil _).symm, rfl⟩

variable (env : Env W)

/-- Asking leaves the trace alone, and leaves a note. -/
theorem ask_cleanupNotes {α : Type} (q : Query α) (s : Sys (Watched W CleanupNote)) :
    ∃ a s', Op.ask env.noting q s = (.ok a, s') ∧ s'.trace = s.trace ∧
      s'.world.log = s.world.log ++ q.cleanupNotes a :=
  ⟨_, _, rfl, rfl, rfl⟩

/-- Asking what no cleanup function asks. -/
theorem accounts_ask {α : Type} {q : Query α} (h : ∀ a, q.cleanupNotes a = []) :
    Within Accounts (Op.ask env.noting q) := by
  intro s
  refine ⟨[], [], (List.append_nil _).symm, ?_, rfl⟩
  exact congrArg (s.world.log ++ ·) (h _)

theorem cleanupNotes_eq_nil {α : Type} {q : Query α} (h : q.isPassive = true) (a : α) :
    q.cleanupNotes a = [] := by
  cases q with
  | removeFile _ => cases h
  | external _ => cases h
  | _ => rfl

/-- What owns nothing executes nothing. -/
theorem passive_accounts : Passive env.noting (fun _ => True) (Accounts (W := W)) where
  ask _ hq := accounts_ask env (cleanupNotes_eq_nil hq)
  update _ := accounts_update _
  emit {e} he := by
    refine accounts_emit ?_
    cases e with
    | client _ _ | acquired _ => rfl
    | _ => exact he.elim
  box := accounts_box
  clock _ := accounts_write (fun _ => rfl) fun _ => rfl

theorem accounts_settle : Within Accounts (Op.settle env.noting) :=
  within_bind (accounts_ask env fun _ => rfl) fun _ => accounts_write (fun _ => rfl) fun _ => rfl

namespace Machine

/-! ### Executing a cleanup function -/

/-- A cleanup function asks its question, and fails as the answer does. -/
theorem callCleanup_notes (cleanup : CleanupFn) (s : Sys (Watched W CleanupNote)) :
    ∃ result s' note, (callCleanup env.noting cleanup).attempt s = (.ok result, s') ∧
      s'.trace = s.trace ∧ s'.world.log = s.world.log ++ [note] ∧
      note.action = cleanup.action ∧ note.failure = errOf result := by
  obtain ⟨id, action⟩ := cleanup
  cases action with
  | removeFile path =>
    obtain ⟨answer, s', hask, htrace, hlog⟩ := ask_cleanupNotes env (.removeFile path) s
    rw [callCleanup, attempt_bind_of_ok hask]
    rcases answer with error | ⟨⟩
    · dsimp only
      by_cases hkind : error.kind = .notFound
      · rw [if_pos hkind]
        exact ⟨.ok (), s', _, rfl, htrace, hlog, rfl, if_pos hkind⟩
      · rw [if_neg hkind]
        exact ⟨.error (.io error), s', _, rfl, htrace, hlog, rfl, if_neg hkind⟩
    · exact ⟨.ok (), s', _, rfl, htrace, hlog, rfl, rfl⟩
  | external tag =>
    obtain ⟨answer, s', hask, htrace, hlog⟩ := ask_cleanupNotes env (.external tag) s
    rw [callCleanup, attempt_bind_of_ok hask]
    rcases answer with error | ⟨⟩
    · exact ⟨.error error, s', _, rfl, htrace, hlog, rfl, rfl⟩
    · exact ⟨.ok (), s', _, rfl, htrace, hlog, rfl, rfl⟩

/-- **An execution is one question.** -/
theorem accounts_execute (site : DrainSite) (cleanup : CleanupFn) :
    Within Accounts (execute env.noting site cleanup) := by
  refine within_bind (accounts_settle env) fun _ s => ?_
  obtain ⟨result, s', note, hrun, htrace, hlog, haction, hfailure⟩ :=
    callCleanup_notes env cleanup s
  rw [bind_of_ok hrun]
  refine ⟨[.executed _], [note], congrArg (· ++ [_]) htrace, hlog, ?_⟩
  change [(cleanup.action, errOf result)] = [(note.action, note.failure)]
  rw [haction, hfailure]

theorem accounts_drainCleanups (site : DrainSite) (n : ℕ) :
    Within Accounts (drainCleanups env.noting site n) := by
  induction n with
  | zero => exact within_pure _
  | succ n ih =>
    refine within_bind (within_gets _) fun m => ?_
    cases m.cleanupFuncs.getLast? with
    | none => exact within_pure _
    | some cleanup =>
      refine within_bind (accounts_update _) fun _ => ?_
      refine within_bind (accounts_execute env site cleanup) fun _ => ?_
      exact within_bind ih fun _ => within_pure _

theorem accounts_doCleanup (site : DrainSite) :
    Within Accounts (doCleanup env.noting site) := by
  refine within_bind (within_gets _) fun m => within_ite (within_pure _) ?_
  refine within_bind (accounts_update _) fun _ => within_bind (accounts_emit rfl) fun _ => ?_
  refine within_bind (within_gets _) fun _ => ?_
  refine within_bind (accounts_drainCleanups env site _) fun errors => ?_
  exact within_bind (accounts_emit rfl) fun _ => within_ite (within_pure _) (within_fail _)

/-! ### The other operations execute nothing -/

theorem accounts_pushCleanupFuncs (cleanups : List CleanupFn) :
    Within Accounts (pushCleanupFuncs cleanups : Op (Watched W CleanupNote) Unit) :=
  accounts_modify (fun _ => rfl) fun _ =>
    ⟨cleanups.map .pushed, rfl, executions_pushed cleanups⟩

theorem accounts_pushCleanupFunc (action : CleanupAction) :
    Within Accounts (pushCleanupFunc action : Op (Watched W CleanupNote) Unit) :=
  within_bind (accounts_box action) fun _ => accounts_pushCleanupFuncs _

theorem accounts_reap (uid : ℕ) :
    Within Accounts (Op.reap uid : Op (Watched W CleanupNote) Unit) :=
  accounts_write (fun _ => rfl) fun _ => rfl

theorem accounts_tryWait : Within Accounts (tryWait env.noting) := by
  refine within_bind (within_gets _) fun m => ?_
  cases m.process with
  | none => exact within_pure _
  | some child =>
    dsimp only
    cases child.done with
    | some _ => exact within_pure _
    | none =>
      refine within_bind (accounts_settle env) fun _ => ?_
      refine within_bind (accounts_ask env fun _ => rfl) fun error => ?_
      cases error with
      | some _ => exact within_fail _
      | none =>
        refine within_bind (within_gets _) fun procs => ?_
        cases Op.exitOf procs child.uid with
        | none => exact within_pure _
        | some _ =>
          refine within_bind (accounts_reap _) fun _ => ?_
          exact within_bind (accounts_update _) fun _ => within_pure _

theorem accounts_abandon (child : Child) :
    Within Accounts (abandon child : Op (Watched W CleanupNote) Unit) := by
  refine accounts_modify (fun s => ?_) fun s => ?_
  · split <;> rfl
  · split
    · exact ⟨[], (List.append_nil _).symm, rfl⟩
    · exact ⟨[.abandoned child.uid], rfl, rfl⟩

theorem accounts_childWait (child : Child) : Within Accounts (childWait env.noting child) := by
  unfold childWait
  split
  · exact within_pure _
  · refine within_bind (accounts_settle env) fun _ => ?_
    refine within_bind (accounts_ask env fun _ => rfl) fun dropped => within_ite ?_ ?_
    · exact within_bind (accounts_abandon child) fun _ => within_drop
    · refine within_bind (accounts_ask env fun _ => rfl) fun r => ?_
      cases r with
      | error _ => exact within_bind (accounts_abandon child) fun _ => within_fail _
      | ok status =>
        refine within_bind (accounts_write (fun _ => rfl) fun _ => rfl) fun _ => ?_
        exact within_bind (accounts_reap _) fun _ => within_bind (within_gets _) fun _ =>
          within_pure _

theorem accounts_waitForProcessExit : Within Accounts (waitForProcessExit env.noting) := by
  refine within_bind (within_gets _) fun m => ?_
  cases m.process with
  | none => exact within_pure _
  | some child =>
    refine within_bind (accounts_update _) fun _ => ?_
    exact within_bind (accounts_childWait env child) fun _ => within_ofExcept _

theorem accounts_shutdownSignalForwarder :
    Within Accounts (shutdownSignalForwarder env.noting) := by
  refine within_bind (within_gets _) fun m => ?_
  cases m.signalForwarder with
  | none => exact within_pure _
  | some _ =>
    exact within_bind (accounts_update _) fun _ => accounts_ask env fun _ => rfl

theorem accounts_finalizeExitResult (site : DrainSite) (exitResult : Except Error Unit) :
    Within Accounts (finalizeExitResult env.noting site exitResult) := by
  refine within_bind (accounts_shutdownSignalForwarder env) fun _ => ?_
  refine within_bind (accounts_update _) fun _ => ?_
  refine within_bind (within_attempt (accounts_doCleanup env site)) fun r => ?_
  cases exitResult with
  | error _ => exact within_fail _
  | ok _ => exact within_ofExcept r

theorem accounts_finalizeIfNeeded (site : DrainSite) :
    Within Accounts (finalizeIfNeeded env.noting site) := by
  refine within_bind (within_gets _) fun m => within_ite ?_ (within_pure _)
  refine within_bind (within_attempt ?_) fun _ => accounts_update _
  exact within_bind (within_attempt (accounts_waitForProcessExit env)) fun r =>
    accounts_finalizeExitResult env site r

theorem accounts_sendSigtermToVmm : Within Accounts (sendSigtermToVmm env.noting) := by
  refine within_bind (within_gets _) fun m => ?_
  cases m.process with
  | none => exact within_pure _
  | some child =>
    refine within_bind (accounts_tryWait env) fun status => ?_
    cases status with
    | some _ => exact within_pure _
    | none =>
      dsimp only
      cases child.id with
      | none => exact within_pure _
      | some pid =>
        refine within_bind (accounts_ask env fun _ => rfl) fun r => ?_
        cases r with
        | none => exact within_pure _
        | some error => exact within_ite (within_pure _) (within_fail _)

theorem accounts_stopVmmAt (site : DrainSite) : Within Accounts (stopVmmAt env.noting site) :=
  within_bind (accounts_sendSigtermToVmm env) fun _ => accounts_finalizeIfNeeded env site

theorem accounts_wait : Within Accounts (wait env.noting) := by
  refine within_bind (accounts_finalizeIfNeeded env _) fun _ => within_bind (within_gets _) ?_
  intro m
  cases m.fatalErr with
  | some _ => exact within_fail _
  | none => exact within_pure _

theorem accounts_pid : Within Accounts (pid env.noting) := by
  refine within_bind (within_gets _) fun m => ?_
  cases m.process.bind Child.id with
  | none => exact within_fail _
  | some pid =>
    refine within_bind (accounts_tryWait env) fun status => ?_
    cases status with
    | none => exact within_pure _
    | some status =>
      refine within_bind (accounts_update _) fun _ => ?_
      refine within_bind (within_attempt (accounts_finalizeExitResult env _ _)) fun _ => ?_
      exact within_bind (accounts_update _) fun _ => within_fail _

/-- Handing over the error of an operation that was attempted. -/
theorem accounts_errOf {x : Op (Watched W CleanupNote) Unit} (h : Within Accounts x) :
    Within Accounts (errOf <$> x.attempt) :=
  within_bind (within_attempt h) fun _ => within_pure _

theorem accounts_abortStart (cause : Error) : Within Accounts (abortStart env.noting cause) := by
  refine within_bind (within_gets _) fun m => within_bind (accounts_emit rfl) fun _ => ?_
  refine within_bind (accounts_update _) fun _ => within_bind ?_ fun _ => ?_
  · exact within_bind (within_gets _) fun _ =>
      within_ite (accounts_errOf (accounts_stopVmmAt env _)) (within_pure _)
  · refine within_bind (accounts_shutdownSignalForwarder env) fun _ => ?_
    refine within_bind (accounts_errOf (accounts_waitForProcessExit env)) fun _ => ?_
    refine within_bind (accounts_errOf (accounts_doCleanup env _)) fun _ => ?_
    exact within_bind (accounts_update _) fun _ => within_pure _

theorem accounts_orAbort {x : Op (Watched W CleanupNote) Unit} (hx : Within Accounts x) :
    Within Accounts (orAbort env.noting x) := by
  refine within_bind (within_attempt hx) fun r => ?_
  cases r with
  | ok _ => exact within_pure _
  | error e => exact within_bind (accounts_abortStart env e) fun _ => within_fail _

theorem accounts_spawn (command : VMCommand) : Within Accounts (spawn env.noting command) := by
  refine within_bind (accounts_ask env fun _ => rfl) fun r => ?_
  cases r with
  | error _ => exact within_fail _
  | ok _ => exact accounts_write (fun _ => rfl) fun _ => rfl

theorem accounts_installSignalForwarder :
    Within Accounts (installSignalForwarder env.noting) := by
  refine within_bind (within_gets _) fun m => ?_
  cases m.cfg.forwardSignals with
  | none => exact within_pure _
  | some signals =>
    refine within_ite (within_pure _) ?_
    cases m.process with
    | none => exact within_fail _
    | some child =>
      dsimp only
      cases child.id with
      | none => exact within_fail _
      | some pid =>
        refine within_bind (accounts_ask env fun _ => rfl) fun r => ?_
        exact within_bind (within_ofExcept r) fun _ => accounts_update _

theorem accounts_waitForVmmReadyFrom (deadline rounds : ℕ) :
    Within Accounts (waitForVmmReadyFrom env.noting deadline rounds) := by
  induction rounds with
  | zero => exact within_fail _
  | succ rounds ih =>
    refine within_bind (within_bind (accounts_tryWait env) fun status => ?_) fun _ =>
      within_ite (within_pure _) ih
    cases status with
    | some _ => exact within_bind (accounts_update _) fun _ => within_fail _
    | none => exact (passive_accounts env).pollSocket trivial deadline

theorem accounts_waitForVmmReady (timeoutSecs : ℕ) :
    Within Accounts (waitForVmmReady env.noting timeoutSecs) :=
  within_bind (passive_accounts env).now fun _ =>
    within_ite (accounts_waitForVmmReadyFrom env _ _) within_drop

theorem accounts_startVmm : Within Accounts (startVmm env.noting) := by
  refine within_bind (within_gets _) fun m => ?_
  cases m.command with
  | none => exact within_fail _
  | some command =>
    refine within_bind (accounts_update _) fun _ => ?_
    refine within_bind ((passive_accounts env).commandStdio _ _) fun _ => ?_
    refine within_bind ((passive_accounts env).commandStdio _ _) fun _ => ?_
    refine within_bind ((passive_accounts env).commandStdio _ _) fun _ => ?_
    refine within_bind (passive_accounts env).configureCommandNetns fun _ => ?_
    refine within_bind (accounts_spawn env command) fun _ => within_bind (within_gets _) fun _ => ?_
    refine within_bind (accounts_pushCleanupFunc _) fun _ => ?_
    refine within_bind (accounts_orAbort env (accounts_installSignalForwarder env)) fun _ => ?_
    refine within_bind (accounts_ask env fun _ => rfl) fun _ => ?_
    exact accounts_orAbort env (accounts_waitForVmmReady env _)

theorem accounts_setupNetwork : Within Accounts (setupNetwork env.noting) := by
  refine within_bind (within_gets _) fun cfg => within_ite (within_pure _) ?_
  refine within_bind (accounts_update _) fun _ => ?_
  exact within_bind ((passive_accounts env).setupCni _ _) fun _ => accounts_pushCleanupFuncs _

theorem accounts_createLogFiles : Within Accounts (createLogFiles env.noting) :=
  (passive_accounts env).createLogFiles accounts_pushCleanupFunc

theorem accounts_runHandler (f : HandlerFn) : Within Accounts (runHandler env.noting f) := by
  cases hf : f with
  | startVmm => exact accounts_startVmm env
  | createLogFiles => exact accounts_createLogFiles env
  | setupNetwork => exact accounts_setupNetwork env
  | linkFiles name => exact (passive_accounts env).linkFiles (fun _ _ => accounts_update _) name
  | _ =>
    exact (passive_accounts env).runHandler _ (by simp) (by simp) (by simp) rfl fun _ _ => trivial

theorem accounts_runHandlerList (handlers : List Handler) :
    Within Accounts (runHandlerList env.noting handlers) := by
  induction handlers with
  | nil => exact within_pure _
  | cons handler handlers ih =>
    exact within_bind (accounts_runHandler env handler.func) fun _ => ih

theorem accounts_start : Within Accounts (start env.noting) := by
  refine within_bind (within_gets _) fun m => within_ite (within_fail _) ?_
  refine within_bind (accounts_update _) fun _ => within_bind (within_gets _) fun m => ?_
  refine within_bind (accounts_orAbort env ?_) fun _ =>
    accounts_orAbort env ((passive_accounts env).startInstance trivial)
  exact within_bind (within_gets _) fun _ => within_ite (accounts_runHandlerList env _)
    (within_bind (accounts_runHandlerList env _) fun _ => accounts_runHandlerList env _)

end Machine

/-! ### Calls -/

theorem Call.exec_accounts (c : Call) : Within Accounts (c.exec env.noting) := by
  cases c with
  | setupNetwork => exact within_bind (Machine.accounts_setupNetwork env) fun _ => within_pure _
  | createLogFiles => exact within_bind (Machine.accounts_createLogFiles env) fun _ => within_pure _
  | startVmm => exact within_bind (Machine.accounts_startVmm env) fun _ => within_pure _
  | start => exact within_bind (Machine.accounts_start env) fun _ => within_pure _
  | stopVmm => exact within_bind (Machine.accounts_stopVmmAt env _) fun _ => within_pure _
  | wait => exact within_bind (Machine.accounts_wait env) fun _ => within_pure _
  | pid => exact within_bind (Machine.accounts_pid env) fun _ => within_pure _

theorem runCalls_accounts (calls : List Call) (s : Sys (Watched W CleanupNote)) :
    Accounts s (runCalls env.noting calls s) := by
  induction calls generalizing s with
  | nil => exact refl_of _ _
  | cons c calls ih => exact trans_of Accounts (Call.exec_accounts env c s) (ih _)

/-- **The executions of a run are the questions of its cleanup functions.** For every environment,
machine and sequence of calls: the trace's executions and the questions that the environment was
asked to remove a file or to run a closure are the same in number and order, and each execution
has the purpose and the failure of its question. -/
theorem executions_eq_notes (b : Blueprint) (clock : ℕ) (w : W) (calls : List Call) :
    (executions (runCalls env.noting calls (b.initial clock ⟨w, []⟩)).trace).map
        (fun x => (x.cleanup.action, x.failure)) =
      (runCalls env.noting calls (b.initial clock ⟨w, []⟩)).world.log.map
        fun note => (note.action, note.failure) := by
  obtain ⟨events, notes, htrace, hlog, h⟩ := runCalls_accounts env calls (b.initial clock ⟨w, []⟩)
  rw [htrace, hlog]
  exact h

end FirecrackerSdk
