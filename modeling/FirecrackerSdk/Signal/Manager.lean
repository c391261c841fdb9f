import FirecrackerSdk.Error
import FirecrackerSdk.Lib.Prog
import Mathlib.Data.List.AList

/-!
# The signal forwarding manager

The part of `machine.rs` that forwards signals of the host process to the VMMs. One
manager, behind a mutex, keeps the registrations of all machines, how many of them want each
signal, the handlers that were installed before, and a worker thread with the pipe through
which the signal handler reaches it.

The functions that run under the mutex are embedded here, each cut into the pieces that no
other thread can see the inside of: `FirecrackerSdk.Signal.applySignal` and
`FirecrackerSdk.Signal.releaseSignal` are one round of the loops in `register_inner` and
`release_signals`. `signal(2)` and `pipe(2)` may succeed or fail at every call
(`FirecrackerSdk.SignalEnv`). A decrement that underflows panics, which ends the
program in `Prog.drop`.

Two fields of the state are not in the source and nothing reads them: how many registrations
have been issued, and the signals for which restoring the old handler failed.
-/

namespace FirecrackerSdk

/-! ### The state -/

/-- What a signal does to the process: the forwarding handler runs, or whatever was
installed before. -/
inductive Disposition where
  | forward
  | other (handler : ℕ)
  deriving DecidableEq

/-- `OwnedFd`: the write end of a pipe, with the number it has in the process. -/
structure OwnedFd where
  raw : ℕ
  pipe : ℕ
  deriving DecidableEq

/-- `JoinHandle` of the worker that reads a pipe. -/
structure JoinHandle where
  pipe : ℕ
  deriving DecidableEq

/-- `SignalRegistration`, with the number of registrations issued before it. -/
structure SignalRegistration where
  childPid : ℕ
  signals : List ℤ
  serial : ℕ
  deriving DecidableEq

/-- `SignalForwardManager`. -/
structure SignalForwardManager where
  nextRegistrationId : ℕ := 0
  registrations : AList (fun _ : ℕ => SignalRegistration) := ∅
  signalRefs : AList (fun _ : ℤ => ℕ) := ∅
  oldHandlers : AList (fun _ : ℤ => Disposition) := ∅
  writeFd : Option OwnedFd := none
  worker : Option JoinHandle := none

namespace SignalForwardManager

/-- Write the counter of a signal. -/
def setRef (m : SignalForwardManager) (signal : ℤ) (count : ℕ) : SignalForwardManager :=
  { m with signalRefs := m.signalRefs.insert signal count }

/-- Remove the counter of a signal. -/
def eraseRef (m : SignalForwardManager) (signal : ℤ) : SignalForwardManager :=
  { m with signalRefs := m.signalRefs.erase signal }

/-- `signal_refs.entry(signal).or_default()`. -/
def orDefault (m : SignalForwardManager) (signal : ℤ) : SignalForwardManager :=
  { m with signalRefs :=
      if signal ∈ m.signalRefs then m.signalRefs else m.signalRefs.insert signal 0 }

/-- Remember the handler that was installed before. -/
def remember (m : SignalForwardManager) (signal : ℤ) (previous : Disposition) :
    SignalForwardManager :=
  { m with oldHandlers := m.oldHandlers.insert signal previous }

/-- Forget it. -/
def forget (m : SignalForwardManager) (signal : ℤ) : SignalForwardManager :=
  { m with oldHandlers := m.oldHandlers.erase signal }

/-- How many times a signal is registered. -/
def refCount (m : SignalForwardManager) (signal : ℤ) : ℕ := (m.signalRefs.lookup signal).getD 0

end SignalForwardManager

/-- The manager, `SIGNAL_PIPE_WRITE_FD`, what the signals do to the process, and how many
pipes the manager has made. -/
structure SignalState where
  manager : SignalForwardManager := {}
  pipeWriteFd : ℤ := -1
  dispositions : ℤ → Disposition
  pipes : ℕ := 0
  issued : ℕ := 0
  unrestored : List ℤ := []

/-- What `ensure_worker` stores for a new pipe. -/
def SignalState.installWorker (s : SignalState) (writeFd : ℕ) : SignalState :=
  { s with
    pipeWriteFd := writeFd
    pipes := s.pipes + 1
    manager := { s.manager with
      writeFd := some ⟨writeFd, s.pipes⟩
      worker := some ⟨s.pipes⟩ } }

/-- What `take_shutdown_if_idle` leaves behind. -/
def SignalState.uninstallWorker (s : SignalState) : SignalState :=
  { s with
    pipeWriteFd := -1
    manager := { s.manager with writeFd := none, worker := none } }

/-- The state together with the world that answers the system calls. -/
structure SignalSys (W : Type) extends SignalState where
  world : W

/-- The outcomes of the system calls: the error of `signal(2)`, if it fails, and the two
descriptors of `pipe(2)`. -/
structure SignalEnv (W : Type) where
  signal : ℤ → W → Option IoError × W
  pipe : W → Except IoError (ℕ × ℕ) × W

/-- `SignalForwardWorkerShutdown`: what is needed to stop a worker. -/
structure SignalForwardWorkerShutdown where
  writeFd : OwnedFd
  worker : JoinHandle
  deriving DecidableEq

/-- An operation on the signal state. -/
abbrev SignalOp (W α : Type) : Type := Prog (SignalSys W) Error α

namespace Signal

variable {W : Type} (env : SignalEnv W)

/-- The manager. -/
def manager : SignalOp W SignalForwardManager := Prog.gets fun s => s.manager

/-- Write to fields of the manager. -/
def update (f : SignalForwardManager → SignalForwardManager) : SignalOp W Unit :=
  Prog.modify fun s => { s with manager := f s.manager }

/-! ### System calls -/

/-- `signal(2)`: the handler that was installed before, unless the call fails. -/
def libcSignal (signal : ℤ) (handler : Disposition) : SignalOp W (Except IoError Disposition) :=
  fun s =>
    match env.signal signal s.world with
    | (none, w) =>
      (.ok (.ok (s.dispositions signal)),
        { s with dispositions := Function.update s.dispositions signal handler, world := w })
    | (some error, w) => (.ok (.error error), { s with world := w })

/-- `pipe(2)`: the descriptors of the read end and of the write end. -/
def libcPipe : SignalOp W (Except IoError (ℕ × ℕ)) := fun s =>
  (.ok (env.pipe s.world).1, { s with world := (env.pipe s.world).2 })

/-! ### The worker -/

/-- `SignalForwardManager::ensure_worker`. -/
def ensureWorker : SignalOp W Unit := do
  if (← manager).worker.isSome then pure ()
  else
    match ← libcPipe env with
    | .error error => Prog.fail (.io error)
    | .ok (_, writeFd) =>
      Prog.modify fun s => { s with toSignalState := s.toSignalState.installWorker writeFd }

/-- `SignalForwardManager::take_shutdown_if_idle`. -/
def takeShutdownIfIdle : SignalOp W (Option SignalForwardWorkerShutdown) := do
  let m ← manager
  -- a counter left at zero keeps the worker alive as well
  if m.registrations.entries ≠ [] ∨ m.signalRefs.entries ≠ [] then pure none
  else
    match m.writeFd, m.worker with
    | none, _ => pure none
    | some _, none => do
      update fun m => { m with writeFd := none }
      pure none
    | some writeFd, some worker => do
      Prog.modify fun s => { s with toSignalState := s.toSignalState.uninstallWorker }
      pure (some ⟨writeFd, worker⟩)

/-! ### Signals -/

/-- One round of `release_signals`. The counter of a signal goes down, and with it the
handler when it was the last one; that the handler cannot be restored is ignored. -/
def releaseSignal (signal : ℤ) : SignalOp W Unit := do
  match (← manager).signalRefs.lookup signal with
  | none => pure ()
  -- taking one from zero overflows the `usize`
  | some 0 => Prog.drop
  | some (count + 1) =>
    if 0 < count then update fun m => m.setRef signal count
    else do
      update fun m => m.eraseRef signal
      match (← manager).oldHandlers.lookup signal with
      | none => pure ()
      | some previous => do
        update fun m => m.forget signal
        match ← libcSignal env signal previous with
        | .ok _ => pure ()
        | .error _ => Prog.modify fun s => { s with unrestored := signal :: s.unrestored }

/-- The loop of `release_signals`, on the signals in the order in which it takes them. -/
def releaseEach : List ℤ → SignalOp W Unit
  | [] => pure ()
  | signal :: signals => do
    releaseSignal env signal
    releaseEach signals

/-- `SignalForwardManager::release_signals`. -/
def releaseSignals (signals : List ℤ) : SignalOp W Unit := releaseEach env signals.reverse

/-- The last part of a round of the loop in `register_inner`, for a number that is in
range. The entry that `or_default` makes stays when the handler cannot be
installed. -/
def applySignal (signal : ℤ) : SignalOp W Unit := do
  update fun m => m.orDefault signal
  let count := (← manager).refCount signal
  if count = 0 then
    match ← libcSignal env signal .forward with
    | .error error => Prog.fail (.io error)
    | .ok previous => update fun m => (m.remember signal previous).setRef signal (count + 1)
  else update fun m => m.setRef signal (count + 1)

/-- What a registration reports for a number that is out of range. -/
def cannotBeForwarded (signal : ℤ) : Error :=
  .process ("signal " ++ toString signal ++ " cannot be forwarded")

/-- Whether a number is out of the range of a byte other than the sentinel. -/
def outOfRange (signal : ℤ) : Bool := signal ≤ 0 || 255 < signal

/-- The loop of `register_inner`: the signals that have been applied are released again when
one cannot be. -/
def applySignals (applied : List ℤ) : List ℤ → SignalOp W Unit
  | [] => pure ()
  | signal :: signals =>
    if outOfRange signal then do
      -- the signal itself has not been counted yet
      releaseSignals env applied
      Prog.fail (cannotBeForwarded signal)
    else do
      match ← (applySignal env signal).attempt with
      | .error error => do
        releaseSignals env applied
        Prog.fail error
      | .ok () => applySignals (applied ++ [signal]) signals

/-! ### Registrations -/

/-- The end of `register_inner`: the registration gets the next number, which wraps
around. -/
def insertRegistration (signals : List ℤ) (childPid : ℕ) : SignalOp W ℕ := fun s =>
  (.ok s.manager.nextRegistrationId,
    { s with
      issued := s.issued + 1
      manager := { s.manager with
        nextRegistrationId := (s.manager.nextRegistrationId + 1) % 2 ^ 64
        registrations := s.manager.registrations.insert s.manager.nextRegistrationId
          ⟨childPid, signals, s.issued⟩ } })

/-- `SignalForwardManager::register_inner`. -/
def registerInner (signals : List ℤ) (childPid : ℕ) : SignalOp W ℕ := do
  ensureWorker env
  applySignals env [] signals
  insertRegistration signals childPid

/-- The start of `unregister_inner`: the signals of the registration, if there is one. -/
def removeRegistration (registrationId : ℕ) : SignalOp W (List ℤ) := do
  match (← manager).registrations.lookup registrationId with
  | none => pure []
  | some registration => do
    update fun m => { m with registrations := m.registrations.erase registrationId }
    pure registration.signals

/-- `SignalForwardManager::unregister_inner`. -/
def unregisterInner (registrationId : ℕ) : SignalOp W Unit := do
  let signals ← removeRegistration registrationId
  releaseSignals env signals

/-- `SignalForwardManager::register`, as far as it holds the mutex. -/
def register (signals : List ℤ) (childPid : ℕ) : SignalOp W ℕ := do
  match ← (registerInner env signals childPid).attempt with
  | .ok registrationId => pure registrationId
  | .error error => do
    let _ ← takeShutdownIfIdle
    Prog.fail error

/-- `SignalForwardManager::unregister`, as far as it holds the mutex. -/
def unregister (registrationId : ℕ) : SignalOp W Unit := do
  unregisterInner env registrationId
  let _ ← takeShutdownIfIdle
  pure ()

end Signal

end FirecrackerSdk
