import FirecrackerSdk.Machine.World

/-!
# The lifecycle of a machine

The part of `machine.rs` that owns resources: registering and draining cleanup
functions, spawning the VMM and waiting for it to become reachable, observing its
exit, stopping it, and giving up a start. Each definition carries the name of the
function it embeds, in this project's case.

Two labels are not in the source. `do_cleanup` and its callers up to `stop_vmm` take a
`FirecrackerSdk.DrainSite`, which is only written to the trace; and the polling loop of
`wait_for_vmm_ready` counts its rounds down, from a number that the clock reaches first
(`FirecrackerSdk.Machine.waitForVmmReadyFrom_succ`).
-/

namespace FirecrackerSdk

namespace Machine

variable {W : Type} (env : Env W)

/-! ### Cleanup functions -/

/-- `Machine::push_cleanup_funcs`, with the functions in the order of the vector. -/
def pushCleanupFuncs (cleanups : List CleanupFn) : Op W Unit :=
  Prog.modify fun s =>
    { s with
      machine := { s.machine with
        cleanupDone := false
        cleanupFuncs := s.machine.cleanupFuncs ++ cleanups }
      trace := s.trace ++ cleanups.map Event.pushed }

/-- `Machine::push_cleanup_func`, on the closure it is called with. -/
def pushCleanupFunc (action : CleanupAction) : Op W Unit := do
  let cleanup ← Op.box action
  pushCleanupFuncs [cleanup]

/-- Call a cleanup function. A file that is already gone counts as removed. -/
def callCleanup (cleanup : CleanupFn) : Op W Unit :=
  match cleanup.action with
  | .removeFile path => do
    match ← Op.ask env (.removeFile path) with
    | .ok () => pure ()
    | .error error => if error.kind = .notFound then pure () else Prog.fail (.io error)
  | .external tag => do Prog.ofExcept (← Op.ask env (.external tag))

/-- The error of a result, as `Result::err` gives it. -/
def errOf {α : Type} : Except Error α → Option Error
  | .ok _ => none
  | .error error => some error

/-- Execute one cleanup function and put it on record. -/
def execute (site : DrainSite) (cleanup : CleanupFn) : Op W (Option Error) := do
  Op.settle env
  let result ← (callCleanup env cleanup).attempt
  -- what the world looked like when the function had run
  Prog.modify fun s =>
    { s with
      trace := s.trace ++ [.executed
        { cleanup := cleanup
          failure := errOf result
          site := site
          fatal := s.machine.fatalErr
          vmmRunning := Op.anyRunning s.procs }] }
  pure (errOf result)

/-- The `while let` loop of `do_cleanup`: pop and run, collecting what the failures
display. No cleanup function reaches the machine, so the loop goes round as often
as there are functions. -/
def drainCleanups (site : DrainSite) : ℕ → Op W (List String)
  | 0 => pure []
  | n + 1 => do
    match (← Op.machine).cleanupFuncs.getLast? with
    | none => pure []
    | some cleanup => do
      Op.update fun m => { m with cleanupFuncs := m.cleanupFuncs.dropLast }
      let failure ← execute env site cleanup
      let errors ← drainCleanups site n
      pure ((failure.map Error.display).toList ++ errors)

/-- `Machine::do_cleanup`. -/
def doCleanup (site : DrainSite) : Op W Unit := do
  if (← Op.machine).cleanupDone then pure ()
  else do
    -- set before the functions run, so that a second drain does nothing
    Op.update fun m => { m with cleanupDone := true }
    Op.emit .drainBegin
    let errors ← drainCleanups env site (← Op.machine).cleanupFuncs.length
    Op.emit .drainEnd
    if errors = [] then pure ()
    else Prog.fail (.process ("cleanup failed: " ++ "; ".intercalate errors))

/-! ### Observing the child -/

/-- `Child::try_wait` on the child in `self.process`. -/
def tryWait : Op W (Option ExitStatus) := do
  match (← Op.machine).process with
  | none => pure none
  | some child =>
    match child.done with
    -- tokio keeps the status of a child that it has reaped
    | some status => pure (some status)
    | none => do
      Op.settle env
      match ← Op.ask env (.tryWaitError child.pid) with
      | some error => Prog.fail (.io error)
      | none => do
        match Op.exitOf (← Prog.gets Sys.procs) child.uid with
        | none => pure none
        | some status => do
          Op.reap child.uid
          Op.update fun m => { m with process := some { child with done := some status } }
          pure (some status)

/-- Put on record that a child was left running. -/
def abandon (child : Child) : Op W Unit :=
  Prog.modify fun s =>
    if (Op.exitOf s.procs child.uid).isSome then s
    else { s with trace := s.trace ++ [.abandoned child.uid] }

/-- `Child::wait`. -/
def childWait (child : Child) : Op W ExitStatus :=
  match child.done with
  | some status => pure status
  | none => do
    Op.settle env
    if ← Op.ask env (.await .childWait) then do
      -- dropping the future drops the child, and with it the handle to the process
      abandon child
      Prog.drop
    else
      match ← Op.ask env (.childWait child.pid) with
      | .error error => do
        abandon child
        Prog.fail (.io error)
      | .ok status => do
        Prog.modify fun s =>
          { s with procs := s.procs.modify child.uid (Op.endProc status) }
        Op.reap child.uid
        -- a process that had already exited keeps its own status
        pure ((Op.exitOf (← Prog.gets Sys.procs) child.uid).getD status)

/-- `Machine::exit_status_result`. -/
def exitStatusResult (status : ExitStatus) : Except Error Unit :=
  if status.success then .ok ()
  else .error (.process ("firecracker exited: " ++ status.display))

/-- `Machine::wait_for_process_exit`. The child leaves the machine before the future
suspends. -/
def waitForProcessExit : Op W Unit := do
  match (← Op.machine).process with
  | none => pure ()
  | some child => do
    Op.update fun m => { m with process := none }
    let status ← childWait env child
    Prog.ofExcept (exitStatusResult status)

/-! ### Ending a machine -/

/-- `Machine::shutdown_signal_forwarder`. -/
def shutdownSignalForwarder : Op W Unit := do
  match (← Op.machine).signalForwarder with
  | none => pure ()
  | some forwarder => do
    Op.update fun m => { m with signalForwarder := none }
    Op.ask env (.unregister forwarder.registrationId)

/-- `Machine::signal_exit`. -/
def signalExit : Op W Unit := Op.update fun m => { m with exitEvent := true }

/-- `Machine::finalize_exit_result`. -/
def finalizeExitResult (site : DrainSite) (exitResult : Except Error Unit) : Op W Unit := do
  shutdownSignalForwarder env
  signalExit
  let cleanupResult ← (doCleanup env site).attempt
  -- the error of the process comes first
  match exitResult with
  | .error error => Prog.fail (error.join (errOf cleanupResult))
  | .ok () => Prog.ofExcept cleanupResult

/-- `Machine::finalize_process_exit`. -/
def finalizeProcessExit (site : DrainSite) : Op W Unit := do
  let waitResult ← (waitForProcessExit env).attempt
  finalizeExitResult env site waitResult

/-- `Machine::remember_terminal_error`, on the error of a result if it has one. -/
def rememberTerminalError (result : Except Error Unit) : Op W Unit :=
  Op.update fun m =>
    match result, m.fatalErr with
    -- only the first error is kept
    | .error error, none => { m with fatalErr := some error.copy }
    | _, _ => m

/-- `SIGTERM_SIGNAL`. -/
def sigtermSignal : ℤ := 15

/-- `ESRCH_ERRNO`. -/
def esrchErrno : ℤ := 3

/-- `Machine::send_sigterm_to_vmm`. -/
def sendSigtermToVmm : Op W Unit := do
  match (← Op.machine).process with
  | none => pure ()
  | some child => do
    match ← tryWait env with
    | some _ => pure ()
    | none =>
      match child.id with
      | none => pure ()
      | some pid => do
        match ← Op.ask env (.kill pid sigtermSignal) with
        | none => pure ()
        | some error =>
          -- the process is gone already
          if error.rawOsError = some esrchErrno then pure () else Prog.fail (.io error)

/-- The guard that `stop_vmm` and `wait` share: finalize unless there is nothing left
to finalize. -/
def finalizeIfNeeded (site : DrainSite) : Op W Unit := do
  let m ← Op.machine
  if m.process.isSome || !m.cleanupDone then do
    rememberTerminalError (← (finalizeProcessExit env site).attempt)
  else pure ()

/-- `Machine::stop_vmm`, called by the user or by `abort_start`. -/
def stopVmmAt (site : DrainSite) : Op W Unit := do
  sendSigtermToVmm env
  finalizeIfNeeded env site

/-- `Machine::stop_vmm`. -/
def stopVmm : Op W Unit := stopVmmAt env .finalize

/-- `Machine::wait`. -/
def wait : Op W Unit := do
  finalizeIfNeeded env .finalize
  match (← Op.machine).fatalErr with
  | some error => Prog.fail error.copy
  | none => pure ()

/-- `Machine::pid`. -/
def pid : Op W ℕ := do
  match (← Op.machine).process.bind Child.id with
  | none => Prog.fail (.process "machine is not running")
  | some pid => do
    match ← tryWait env with
    | none => pure pid
    | some status => do
      Op.update fun m => { m with process := none }
      rememberTerminalError
        (← (finalizeExitResult env .finalize (exitStatusResult status)).attempt)
      Prog.fail (.process "machine process has exited")

/-- A message with its label, when there is an error to show. -/
def labelled (label : String) : Option Error → List String
  | some error => [label ++ error.display]
  | none => []

/-- The error that `abort_start` reports: the cause alone, or the cause followed by
what went wrong while giving up. -/
def abortError (cause : Error) (stopError waitError cleanupError : Option Error) : Error :=
  if stopError.isNone && waitError.isNone && cleanupError.isNone then cause
  else .process ("; ".intercalate (cause.display :: (labelled "stop error: " stopError ++
    labelled "wait error: " waitError ++ labelled "cleanup error: " cleanupError)))

/-- The first thing `abort_start` does with a process that the start has left. -/
def abortStop : Op W (Option Error) := do
  if (← Op.machine).process.isSome then errOf <$> (stopVmmAt env .abortStop).attempt
  else pure none

/-- `Machine::abort_start`. -/
def abortStart (cause : Error) : Op W Error := do
  Op.emit (.aborting (← Op.machine).fatalErr cause)
  signalExit
  -- `stop_vmm` finalizes on its own, so there is often nothing left for what follows
  let stopError ← abortStop env
  shutdownSignalForwarder env
  let waitError ← errOf <$> (waitForProcessExit env).attempt
  let cleanupError ← errOf <$> (doCleanup env .abort).attempt
  let finalError := abortError cause stopError waitError cleanupError
  -- unlike `remember_terminal_error`, this overwrites what was there
  Op.update fun m => { m with fatalErr := some finalError }
  pure finalError.copy

/-! ### Starting the VMM -/

/-- `Machine::command_stdio`. -/
def commandStdio (spec : CommandStdio) (stdin : Bool) : Op W Unit :=
  match spec with
  | .inherit => pure ()
  | .null => pure ()
  | .path path => Op.askIo env (.openFile path (!stdin))

/-- `Machine::configure_command_netns`. -/
def configureCommandNetns : Op W Unit := do
  let cfg ← Op.cfg
  match cfg.netNs with
  | none => pure ()
  | some netNsPath =>
    if cfg.jailerCfg.isSome then pure () else Op.askIo env (.openFile netNsPath false)

/-- `Command::spawn`: a new process, and the child that stands for it. -/
def spawn (command : VMCommand) : Op W Unit := do
  match ← Op.ask env (.spawn command) with
  | .error error => Prog.fail (.process error.text)
  | .ok pid =>
    Prog.modify fun s =>
      { s with
        machine := { s.machine with process := some { uid := s.procs.length, pid := pid } }
        procs := s.procs ++ [{ pid := pid }] }

/-- `Machine::install_signal_forwarder`. -/
def installSignalForwarder : Op W Unit := do
  let m ← Op.machine
  match m.cfg.forwardSignals with
  | none => pure ()
  | some signals =>
    -- a forwarder that is there stays, whichever process it names
    if m.signalForwarder.isSome || signals = [] then pure ()
    else
      match m.process with
      | none => Prog.fail (.process "machine is not running")
      | some child =>
        match child.id with
        | none => Prog.fail (.process "machine process has exited")
        | some pid => do
          let registrationId ← Prog.ofExcept (← Op.ask env (.register signals pid))
          Op.update fun m => { m with signalForwarder := some ⟨registrationId⟩ }

/-- `env_value_or_default_int`: the variable's value when it spells a non-zero
`i32`. -/
def envValueOrDefaultInt (value : Option String) (defaultValue : ℤ) : ℤ :=
  match value.bind fun v => Text.parseSigned (2 ^ 31 - 1) v.toList with
  | some n => if n ≠ 0 then n else defaultValue
  | none => defaultValue

/-- The cast from `i32` to `u64`. -/
def asU64 (n : ℤ) : ℕ := (n % 2 ^ 64).toNat

/-- What `wait_for_vmm_ready` reports when the deadline passes. -/
def vmmTimedOut : Error :=
  .io { kind := .timedOut
        text := "timed out while waiting for the Firecracker VMM to become reachable" }

/-- One round of the polling loop: whether the VMM is reachable. -/
def pollVmm (deadline : ℕ) : Op W Bool := do
  match ← tryWait env with
  | some status => do
    -- reaped here, and taken out without a cleanup of its own
    Op.update fun m => { m with process := none }
    Prog.fail (.process
      ("firecracker exited before creating API socket: " ++ status.display))
  | none => do
    Op.await env .metadata
    let socket ← Op.ask env (.stat (← Op.cfg).socketPath)
    let reachable ← match socket with
      | .error _ => pure false
      | .ok () => do
        match ← (Op.getMachineConfiguration env).attempt with
        | .ok _ => pure true
        | .error _ => pure false
    if reachable then pure true
    else do
      -- the clock is read after the request, however long that took
      if deadline ≤ (← Op.now env) then Prog.fail vmmTimedOut
      else do
        Op.sleep env 10
        pure false

/-- The polling loop, for at most `rounds` rounds. -/
def waitForVmmReadyFrom (deadline : ℕ) : ℕ → Op W Unit
  | 0 => Prog.fail vmmTimedOut
  | rounds + 1 => do
    if ← pollVmm env deadline then pure () else waitForVmmReadyFrom deadline rounds

/-- `Machine::wait_for_vmm_ready`, with the timeout in seconds. Adding the timeout to
the current instant panics when the seconds no longer fit an `i64`. Each round
sleeps for ten milliseconds, so the deadline passes before the rounds run out. -/
def waitForVmmReady (timeoutSecs : ℕ) : Op W Unit := do
  let deadline := (← Op.now env) + 1000 * timeoutSecs
  if deadline / 1000 < 2 ^ 63 then
    waitForVmmReadyFrom env deadline (100 * timeoutSecs + 1)
  else Prog.drop

/-- What `start_vmm` does when a step after the spawn fails: give the start up and
return the error of that. -/
def orAbort (x : Op W Unit) : Op W Unit := do
  match ← x.attempt with
  | .ok () => pure ()
  | .error error => do Prog.fail (← abortStart env error)

/-- `Machine::start_vmm`. -/
def startVmm : Op W Unit := do
  match (← Op.machine).command with
  | none => Prog.fail (.process "machine command is not configured")
  | some command => do
    Op.update fun m => { m with exitEvent := false }
    -- nothing is owned before the spawn, and a failure returns as it is
    commandStdio env command.stdin true
    commandStdio env command.stdout false
    commandStdio env command.stderr false
    configureCommandNetns env
    spawn env command
    pushCleanupFunc (.removeFile (← Op.cfg).socketPath)
    -- from here on a failure stops the process again
    orAbort env (installSignalForwarder env)
    let value ← Op.ask env (.envVar firecrackerInitTimeoutEnv)
    orAbort env (waitForVmmReady env
      (asU64 (envValueOrDefaultInt value defaultFirecrackerInitTimeoutSeconds)))

end Machine

end FirecrackerSdk
