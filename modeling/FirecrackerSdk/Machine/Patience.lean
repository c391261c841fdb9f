import FirecrackerSdk.Machine.Starting

/-!
# A start whose future is not dropped

A run that never returns has been dropped while it was suspended, or it has panicked. In a world
where no future is dropped (`FirecrackerSdk.Env.patient`) only the second is left, and a start can
only panic at one place: every operation of `start_vmm` returns, and every operation that gives a
start up, apart from the addition with which `wait_for_vmm_ready` fixes its deadline
(`FirecrackerSdk.Machine.startVmm_dropped_iff`).
-/

namespace FirecrackerSdk

open Prog

variable {W : Type}

/-- The answer, but for the question whether a future is dropped. -/
def Query.patiently : {α : Type} → Query α → α → α
  | _, .await _, _ => false
  | _, _, answer => answer

/-- **The same world, in which no future is dropped.** -/
def Env.patient (env : Env W) : Env W where
  answer query world := (query.patiently (env.answer query world).1, (env.answer query world).2)
  unprintable := env.unprintable

namespace Op

/-- The clock that `Instant::now` reads. -/
def instant (env : Env W) (s : Sys W) : ℕ := s.clock + (env.answer .elapse s.world).1

theorem now_patient (env : Env W) (s : Sys W) :
    now env.patient s = (.ok (instant env s),
      { s with clock := instant env s, world := (env.answer .elapse s.world).2 }) := rfl

/-! ### The primitives return -/

section Returns

variable {α : Type} (env : Env W)

theorem returns_ask (q : Query α) : Returns (ask env q) := fun _ h => by cases h

theorem returns_box (action : CleanupAction) : Returns (box action : Op W CleanupFn) :=
  fun _ h => by cases h

theorem returns_await (point : AwaitPoint) : Returns (await env.patient point) :=
  fun _ h => by cases h

theorem returns_askIo (q : Query (Except IoError α)) : Returns (askIo env q) := by
  refine returns_bind (returns_ask env q) fun r => ?_
  cases r with
  | ok a => exact returns_pure a
  | error e => exact returns_fail _

theorem returns_now : Returns (now env) :=
  returns_bind (returns_ask env _) fun _ =>
    returns_bind (returns_modify _) fun _ => returns_gets _

theorem returns_sleep (milliseconds : ℕ) : Returns (sleep env.patient milliseconds) :=
  returns_bind (returns_await env _) fun _ =>
    returns_bind (returns_ask _ _) fun _ => returns_modify _

theorem returns_settle : Returns (settle env) :=
  returns_bind (returns_ask env _) fun _ => returns_modify _

theorem returns_getMachineConfiguration : Returns (getMachineConfiguration env.patient) := by
  refine returns_bind (returns_await env _) fun _ => returns_bind (returns_ask _ _) fun r => ?_
  cases r with
  | ok config => exact returns_bind (returns_modify _) fun _ => returns_pure _
  | error e => exact returns_bind (returns_modify _) fun _ => returns_fail _

end Returns

end Op

namespace Machine

variable (env : Env W)

/-! ### Draining and observing a child -/

/-- A drain hands its errors on. -/
theorem returns_doCleanup (site : DrainSite) : Returns (doCleanup env site) := by
  intro s hdropped
  obtain ⟨execs, s', hrun, -⟩ := doCleanup_spec env site s
  rw [← attempt_dropped_iff, hrun] at hdropped
  cases hdropped

theorem returns_tryWait : Returns (tryWait env) := by
  intro s hdropped
  obtain ⟨o, s', hrun, -, ho⟩ := tryWait_spec env (p := anything) s
  rw [hrun] at hdropped
  rcases ho with ⟨e, rfl, -⟩ | ⟨rfl, -⟩ | ⟨child, status, rfl, -, -⟩ <;> cases hdropped

/-! ### Ending a child returns -/

theorem returns_childWait (child : Child) : Returns (childWait env.patient child) := by
  rw [childWait]
  cases child.done with
  | some status => exact returns_pure _
  | none =>
    refine returns_bind (Op.returns_settle _) fun _ s h => ?_
    -- the future is not dropped, so the process is asked for its status
    rw [Op.ask_bind, if_neg (by simp [Env.patient, Query.patiently])] at h
    refine returns_bind (Op.returns_ask env.patient _) (fun r => ?_) _ h
    cases r with
    | error e => exact returns_bind (returns_modify _) fun _ => returns_fail _
    | ok status =>
      refine returns_bind (returns_modify _) fun _ => returns_bind (returns_modify _) fun _ => ?_
      exact returns_bind (returns_gets _) fun _ => returns_pure _

theorem returns_waitForProcessExit : Returns (waitForProcessExit env.patient) := by
  refine returns_bind (returns_gets _) fun m => ?_
  cases m.process with
  | none => exact returns_pure _
  | some child =>
    refine returns_bind (returns_modify _) fun _ => ?_
    exact returns_bind (returns_childWait env child) fun _ => returns_ofExcept _

theorem returns_shutdownSignalForwarder : Returns (shutdownSignalForwarder env) := by
  intro s hdropped
  obtain ⟨s', hrun, -⟩ := shutdownSignalForwarder_spec env (p := anything) s
  rw [hrun] at hdropped
  cases hdropped

theorem returns_finalizeProcessExit (site : DrainSite) :
    Returns (finalizeProcessExit env.patient site) := by
  refine returns_bind (returns_attempt (returns_waitForProcessExit env)) fun exitResult => ?_
  refine returns_bind (returns_shutdownSignalForwarder _) fun _ => ?_
  refine returns_bind (returns_modify _) fun _ => ?_
  refine returns_bind (returns_attempt (returns_doCleanup _ site)) fun cleanupResult => ?_
  cases exitResult with
  | error e => exact returns_fail _
  | ok _ => exact returns_ofExcept _

theorem returns_sendSigtermToVmm : Returns (sendSigtermToVmm env) := by
  intro s hdropped
  obtain ⟨o, s', hrun, -, ho⟩ := sendSigtermToVmm_spec env (p := anything) s
  rw [hrun] at hdropped
  exact ho hdropped

theorem returns_stopVmmAt (site : DrainSite) : Returns (stopVmmAt env.patient site) := by
  refine returns_bind (returns_sendSigtermToVmm _) fun _ => ?_
  refine returns_bind (returns_gets _) fun m => returns_ite ?_ (returns_pure _)
  refine returns_bind (returns_attempt (returns_finalizeProcessExit env site)) fun _ => ?_
  exact returns_modify _

theorem returns_abortStop : Returns (abortStop env.patient) := by
  refine returns_bind (returns_gets _) fun m => returns_ite ?_ (returns_pure _)
  exact returns_bind (returns_attempt (returns_stopVmmAt env _)) fun _ => returns_pure _

/-- **Giving a start up returns.** -/
theorem returns_abortStart (cause : Error) : Returns (abortStart env.patient cause) := by
  refine returns_bind (returns_gets _) fun m => returns_bind (returns_modify _) fun _ => ?_
  refine returns_bind (returns_modify _) fun _ => ?_
  refine returns_bind (returns_abortStop env) fun _ => ?_
  refine returns_bind (returns_shutdownSignalForwarder _) fun _ => ?_
  refine returns_bind (returns_bind (returns_attempt (returns_waitForProcessExit env))
    fun _ => returns_pure _) fun _ => ?_
  refine returns_bind (returns_bind (returns_attempt (returns_doCleanup _ _))
    fun _ => returns_pure _) fun _ => ?_
  exact returns_bind (returns_modify _) fun _ => returns_pure _

/-! ### Polling returns -/

theorem returns_pollReachable (timedOut : Error) (late : ℕ → Prop) [DecidablePred late] :
    Returns (pollReachable env.patient timedOut late) := by
  refine returns_bind (Op.returns_await env _) fun _ => returns_bind (returns_gets _) fun _ => ?_
  refine returns_bind (Op.returns_ask _ _) fun socket => ?_
  have hlate : ∀ reachable : Bool, Returns (do
      if reachable then pure true
      else do
        if late (← Op.now env.patient) then Prog.fail timedOut
        else do
          Op.sleep env.patient 10
          pure false) := by
    intro reachable
    refine returns_ite (returns_pure _) (returns_bind (Op.returns_now _) fun _ => ?_)
    exact returns_ite (returns_fail _) (returns_bind (Op.returns_sleep env 10) fun _ =>
      returns_pure _)
  cases socket with
  | error _ => exact hlate false
  | ok _ =>
    refine returns_bind (returns_attempt (Op.returns_getMachineConfiguration env)) fun r => ?_
    cases r with
    | ok _ => exact hlate true
    | error _ => exact hlate false

theorem returns_pollVmm (deadline : ℕ) : Returns (pollVmm env.patient deadline) := by
  refine returns_bind (returns_tryWait _) fun exited => ?_
  cases exited with
  | some status => exact returns_bind (returns_modify _) fun _ => returns_fail _
  | none => exact returns_pollReachable env _ _

theorem returns_waitForVmmReadyFrom (deadline rounds : ℕ) :
    Returns (waitForVmmReadyFrom env.patient deadline rounds) := by
  induction rounds with
  | zero => exact returns_fail _
  | succ rounds ih =>
    exact returns_bind (returns_pollVmm env deadline) fun _ => returns_ite (returns_pure _) ih

/-- **Waiting for the VMM panics exactly if its deadline does not fit an `Instant`.** -/
theorem waitForVmmReady_dropped_iff (timeoutSecs : ℕ) (s : Sys W) :
    (waitForVmmReady env.patient timeoutSecs s).1 = .dropped ↔
      ¬Op.instant env s / 1000 + timeoutSecs < 2 ^ 63 := by
  rw [waitForVmmReady, bind_of_ok (Op.now_patient env s)]
  have hseconds : (Op.instant env s + 1000 * timeoutSecs) / 1000 =
      Op.instant env s / 1000 + timeoutSecs := by omega
  rw [hseconds]
  split
  · rename_i hfits
    exact iff_of_false (returns_waitForVmmReadyFrom env _ _ _) (not_not.mpr hfits)
  · rename_i hlarge
    exact iff_of_true rfl hlarge

/-! ### Starting the VMM -/

theorem returns_commandStdio (spec : CommandStdio) (stdin : Bool) :
    Returns (commandStdio env spec stdin) := by
  cases spec with
  | inherit => exact returns_pure _
  | null => exact returns_pure _
  | path path => exact Op.returns_askIo env _

theorem returns_configureCommandNetns : Returns (configureCommandNetns env) := by
  refine returns_bind (returns_gets _) fun cfg => ?_
  cases cfg.netNs with
  | none => exact returns_pure _
  | some netNsPath => exact returns_ite (returns_pure _) (Op.returns_askIo env _)

theorem returns_spawn (command : VMCommand) : Returns (spawn env command) := by
  refine returns_bind (Op.returns_ask env _) fun r => ?_
  cases r with
  | error e => exact returns_fail _
  | ok pid => exact returns_modify _

theorem returns_installSignalForwarder : Returns (installSignalForwarder env) := by
  refine returns_bind (returns_gets _) fun m => ?_
  cases m.cfg.forwardSignals with
  | none => exact returns_pure _
  | some signals =>
    refine returns_ite (returns_pure _) ?_
    cases m.process with
    | none => exact returns_fail _
    | some child =>
      dsimp only
      cases child.id with
      | none => exact returns_fail _
      | some pid =>
        refine returns_bind (Op.returns_ask env _) fun r => ?_
        exact returns_bind (returns_ofExcept r) fun _ => returns_modify _

/-- A step that gives the start up when it fails panics exactly if the step does. -/
theorem orAbort_dropped_iff {x : Op W Unit} {s : Sys W} :
    (orAbort env.patient x s).1 = .dropped ↔ (x s).1 = .dropped := by
  rcases h : x s with ⟨a | e | _, s₁⟩
  · rw [orAbort_of_ok env.patient h]
  · rw [orAbort_of_err env.patient h]
    refine iff_of_false ?_ (by simp)
    exact returns_bind (returns_abortStart env e) (fun f => returns_fail f) s₁
  · rw [orAbort_of_dropped env.patient h]

/-- `start_vmm` up to the point at which it has read the variable. -/
def beforeWait : Op W (Option String) := do
  match (← Op.machine).command with
  | none => Prog.fail (.process "machine command is not configured")
  | some command => do
    Op.update fun m => { m with exitEvent := false }
    commandStdio env command.stdin true
    commandStdio env command.stdout false
    commandStdio env command.stderr false
    configureCommandNetns env
    spawn env command
    pushCleanupFunc (.removeFile (← Op.cfg).socketPath)
    orAbort env (installSignalForwarder env)
    Op.ask env (.envVar firecrackerInitTimeoutEnv)

/-- The timeout that `start_vmm` uses, in seconds. -/
def initTimeoutSecs (value : Option String) : ℕ :=
  asU64 (envValueOrDefaultInt value defaultFirecrackerInitTimeoutSeconds)

/-- What is left is to wait. -/
theorem startVmm_eq : startVmm env = (do
    let value ← beforeWait env
    orAbort env (waitForVmmReady env (initTimeoutSecs value))) := by
  funext s
  rw [startVmm, beforeWait, Op.machine_bind, bind_assoc, Op.machine_bind]
  cases s.machine.command with
  | none => rfl
  | some command => simp only [bind_assoc, initTimeoutSecs]

theorem returns_beforeWait : Returns (beforeWait env.patient) := by
  refine returns_bind (returns_gets _) fun m => ?_
  cases m.command with
  | none => exact returns_fail _
  | some command =>
    refine returns_bind (returns_modify _) fun _ => ?_
    refine returns_bind (returns_commandStdio _ _ _) fun _ => ?_
    refine returns_bind (returns_commandStdio _ _ _) fun _ => ?_
    refine returns_bind (returns_commandStdio _ _ _) fun _ => ?_
    refine returns_bind (returns_configureCommandNetns _) fun _ => ?_
    refine returns_bind (returns_spawn _ _) fun _ => returns_bind (returns_gets _) fun _ => ?_
    refine returns_bind (returns_bind (Op.returns_box _) fun _ => returns_modify _) fun _ => ?_
    refine returns_bind (fun s h => ?_) fun _ => Op.returns_ask _ _
    exact returns_installSignalForwarder _ s ((orAbort_dropped_iff env).mp h)

/-- **A start panics exactly where it waits**: the deadline, from the clock and the variable as they
are when the VMM has been spawned, does not fit an `Instant`. -/
theorem startVmm_dropped_iff (s : Sys W) :
    (startVmm env.patient s).1 = .dropped ↔
      ∃ value s₁, beforeWait env.patient s = (.ok value, s₁) ∧
        ¬Op.instant env s₁ / 1000 + initTimeoutSecs value < 2 ^ 63 := by
  rw [startVmm_eq, bind_dropped_iff]
  constructor
  · rintro (hbefore | ⟨value, s₁, hrun, hwait⟩)
    · exact absurd hbefore (returns_beforeWait env s)
    · exact ⟨value, s₁, hrun,
        (waitForVmmReady_dropped_iff env _ s₁).mp ((orAbort_dropped_iff env).mp hwait)⟩
  · rintro ⟨value, s₁, hrun, hlarge⟩
    refine .inr ⟨value, s₁, hrun, (orAbort_dropped_iff env).mpr ?_⟩
    exact (waitForVmmReady_dropped_iff env _ s₁).mpr hlarge

end Machine

end FirecrackerSdk
