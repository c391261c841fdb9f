import FirecrackerSdk.Signal.Runs

/-!
# Forwarding a signal, step by step

The threads of the process around the signal forwarding manager: callers of `register` and
`unregister`, the handler that the operating system runs for each delivery of a signal, and
one worker for each pipe. A step of the system (`FirecrackerSdk.Signal.step`) is a step of one
of them. What the program does not decide is part of the action: which thread runs, what the
system calls answer, how much is read, and in which order the map of registrations
is walked.

The steps are as fine as other threads can tell. Under the mutex, a caller takes one step for
`ensure_worker`, one for each signal that it applies or releases, and one for each access to
the map of registrations; the handler, which does not take the mutex, may run between any
two of them. `ensure_worker` is one step because the store to `SIGNAL_PIPE_WRITE_FD` is the
only part of it that a handler reads, and `dispatch_signal` is one up to its kills because it
only reads the map. The shutdown of a worker happens outside the mutex, in three steps.

Descriptors are numbers in a table of the process. A number may be used again
once it is closed, also by other parts of the process, so a handler that loaded
`SIGNAL_PIPE_WRITE_FD` before a shutdown may write to something else.

Some of the state is there to speak about deliveries and nothing reads it: which delivery a
byte and a `kill(2)` belong to, how far each delivery has come, and which registrations were
live when its handler started and when its byte was dispatched.
-/

namespace FirecrackerSdk

namespace Signal

/-! ### The state -/

/-- What a descriptor of the process stands for. -/
inductive Descriptor where
  | readEnd (pipe : ℕ)
  | writeEnd (pipe : ℕ)
  | elsewhere
  deriving DecidableEq

/-- A byte in a pipe, and the delivery that it was written for. The sentinel is for none. -/
structure Cell where
  byte : ℕ
  delivery : Option ℕ
  deriving DecidableEq

/-- A call of `kill(2)`, and the delivery that it is for. -/
structure Kill where
  delivery : Option ℕ
  pid : ℤ
  signal : ℤ
  deriving DecidableEq

/-- A worker: what it has read and not yet looked at, and the calls of `kill(2)` that remain
for the byte it is looking at. -/
structure Worker where
  readFd : ℕ
  buffer : List Cell := []
  pending : List Kill := []
  stopped : Bool := false
  deriving DecidableEq

/-- How far a delivery has come. -/
inductive Progress where
  /-- The handler has started. -/
  | started
  /-- It has read `SIGNAL_PIPE_WRITE_FD`. -/
  | loaded (fd : ℤ)
  /-- It has returned, and no pipe holds its byte. -/
  | lost
  /-- Its byte is in a pipe or in the buffer of the worker of that pipe. -/
  | written (pipe : ℕ)
  /-- Its byte has been dispatched, with these registrations live. -/
  | dispatched (pipe : ℕ) (live : List SignalRegistration)
  deriving DecidableEq

/-- A delivery of a signal, and the registrations that were live when its handler started. -/
structure Delivery where
  signal : ℤ
  live : List SignalRegistration
  progress : Progress
  deriving DecidableEq

/-- Where a caller of the manager is. -/
inductive Pc where
  | idle
  /-- Before `ensure_worker`. -/
  | registering (signals : List ℤ) (childPid : ℕ)
  /-- In the loop of `register_inner`. -/
  | applying (applied todo : List ℤ) (childPid : ℕ)
  /-- Before the registration is removed. -/
  | unregistering (registrationId : ℕ)
  /-- In the loop of `release_signals`, with the signals that remain. -/
  | releasing (signals : List ℤ)
  /-- Before `take_shutdown_if_idle`. -/
  | settling
  /-- About to unlock the mutex. -/
  | unlocking (shutdown : Option SignalForwardWorkerShutdown)
  /-- Before the sentinel is written. -/
  | stopping (shutdown : SignalForwardWorkerShutdown)
  /-- Before the write end is dropped. -/
  | closing (shutdown : SignalForwardWorkerShutdown)
  | joining (worker : JoinHandle)
  | panicked
  deriving DecidableEq

/-- The process. -/
structure Net where
  sys : SignalState
  lock : Option ℕ := none
  poisoned : Bool := false
  threads : ℕ → Pc := fun _ => .idle
  fds : ℕ → Option Descriptor := fun _ => none
  pipes : ℕ → List Cell := fun _ => []
  writeOpen : ℕ → Bool := fun _ => false
  workers : ℕ → Option Worker := fun _ => none
  deliveries : ℕ → Option Delivery := fun _ => none
  kills : List Kill := []

/-- What the system calls of a step answer. -/
structure Answer where
  signal : Option IoError := none
  pipe : Except IoError (ℕ × ℕ)

/-- The answers as an environment. -/
def Answer.env (answer : Answer) : SignalEnv Unit where
  signal _ w := (answer.signal, w)
  pipe w := (answer.pipe, w)

/-- The registrations that are live. -/
def live (s : SignalState) : List SignalRegistration :=
  s.manager.registrations.entries.map fun e => e.2

/-- The process before the first call. -/
def Net.initial (original : ℤ → ℕ) : Net := { sys := (Signal.initial original ()).toSignalState }

namespace Net

variable (n : Net)

/-! ### Callers of the manager -/

/-- One step under the mutex. -/
def manage (env : SignalEnv Unit) : Pc → SignalOp Unit Pc
  | .registering signals childPid => do
    match ← (ensureWorker env).attempt with
    | .ok () => pure (.applying [] signals childPid)
    | .error _ => pure .settling
  | .applying applied [] childPid => do
    let _ ← insertRegistration applied childPid
    pure (.unlocking none)
  | .applying applied (signal :: todo) childPid =>
    if outOfRange signal then pure (.releasing applied.reverse)
    else do
      match ← (applySignal env signal).attempt with
      | .ok () => pure (.applying (applied ++ [signal]) todo childPid)
      | .error _ => pure (.releasing applied.reverse)
  | .unregistering registrationId => do
    let signals ← removeRegistration registrationId
    pure (.releasing signals.reverse)
  | .releasing [] => pure .settling
  | .releasing (signal :: signals) => do
    releaseSignal env signal
    pure (.releasing signals)
  | .settling => do
    let shutdown ← takeShutdownIfIdle
    pure (.unlocking shutdown)
  | pc => pure pc

/-- A thread goes on from another place. -/
def goto (thread : ℕ) (pc : Pc) : Net := { n with threads := Function.update n.threads thread pc }

/-- A call takes the mutex. A mutex that is poisoned makes it return at once. -/
def call (thread : ℕ) (call : Call) : Option Net :=
  if n.threads thread ≠ .idle ∨ n.lock ≠ none then none
  else if n.poisoned then some n
  else
    match call with
    | .register signals childPid =>
      some { n.goto thread (.registering signals childPid) with lock := some thread }
    | .unregister registrationId =>
      some { n.goto thread (.unregistering registrationId) with lock := some thread }

/-- A new pipe, with free descriptors, and its worker. -/
def spawn (pipe readFd writeFd : ℕ) : Net :=
  { n with
    fds := Function.update (Function.update n.fds readFd (some (.readEnd pipe))) writeFd
      (some (.writeEnd pipe))
    writeOpen := Function.update n.writeOpen pipe true
    workers := Function.update n.workers pipe (some { readFd := readFd }) }

/-- A step under the mutex, with the pipe that it may have made. A panic poisons the
mutex. -/
def runLocked (thread : ℕ) (answer : Answer) : Option Net :=
  match manage answer.env (n.threads thread) ⟨n.sys, ()⟩ with
  | (.ok pc, s) =>
    if s.pipes = n.sys.pipes then some { n.goto thread pc with sys := s.toSignalState }
    else
      match answer.pipe with
      | .error _ => none
      | .ok (readFd, writeFd) =>
        if n.fds readFd = none ∧ n.fds writeFd = none ∧ readFd ≠ writeFd then
          some ({ n.goto thread pc with sys := s.toSignalState }.spawn n.sys.pipes readFd writeFd)
        else none
  | (_, s) =>
    some { n.goto thread .panicked with sys := s.toSignalState, lock := none, poisoned := true }

/-! ### Pipes -/

/-- The pipe that a write to a descriptor reaches: there has to be someone to read it. -/
def reaches (fd : ℕ) : Option ℕ :=
  match n.fds fd with
  | some (.writeEnd pipe) =>
    match n.workers pipe with
    | some worker => if worker.stopped then none else some pipe
    | none => none
  | _ => none

/-- Put a byte into a pipe. -/
def push (pipe : ℕ) (cell : Cell) : Net :=
  { n with pipes := Function.update n.pipes pipe (n.pipes pipe ++ [cell]) }

/-- Write the sentinel. -/
def writeSentinel (fd : ℕ) : Net :=
  match n.reaches fd with
  | some pipe => n.push pipe ⟨0, none⟩
  | none => n

/-- Drop the write end of a pipe. -/
def dropWriteFd (writeFd : OwnedFd) : Net :=
  { n with
    fds := Function.update n.fds writeFd.raw none
    writeOpen := Function.update n.writeOpen writeFd.pipe false }

/-- Whether the worker of a pipe has returned. -/
def returned (pipe : ℕ) : Bool := (n.workers pipe).any (·.stopped)

/-- A step of a caller. -/
def run (thread : ℕ) (answer : Answer) : Option Net :=
  match n.threads thread with
  | .idle => none
  | .panicked => none
  | .unlocking none => some { n.goto thread .idle with lock := none }
  | .unlocking (some shutdown) => some { n.goto thread (.stopping shutdown) with lock := none }
  | .stopping shutdown =>
    some ((n.goto thread (.closing shutdown)).writeSentinel shutdown.writeFd.raw)
  | .closing shutdown =>
    some ((n.goto thread (.joining shutdown.worker)).dropWriteFd shutdown.writeFd)
  | .joining worker => if n.returned worker.pipe then some (n.goto thread .idle) else none
  | _ => n.runLocked thread answer

/-! ### The handler -/

/-- A delivery comes further. -/
def proceed (delivery : ℕ) (progress : Progress) : Net :=
  { n with
    deliveries := Function.update n.deliveries delivery
      ((n.deliveries delivery).map fun d => { d with progress := progress }) }

/-- A signal is delivered, and the forwarding handler starts. -/
def handle (delivery : ℕ) (signal : ℤ) : Option Net :=
  if n.deliveries delivery = none ∧ n.sys.dispositions signal = .forward then
    some
      { n with
        deliveries := Function.update n.deliveries delivery
          (some ⟨signal, live n.sys, .started⟩) }
  else none

/-- The handler loads `SIGNAL_PIPE_WRITE_FD`. -/
def load (delivery : ℕ) : Option Net :=
  match n.deliveries delivery with
  | some ⟨_, _, .started⟩ => some (n.proceed delivery (.loaded n.sys.pipeWriteFd))
  | _ => none

/-- The rest of `forward_signal_handler`: one byte is written, if there is somewhere to write
it to. -/
def write (delivery : ℕ) : Option Net :=
  match n.deliveries delivery with
  | some ⟨signal, _, .loaded fd⟩ =>
    if fd < 0 ∨ outOfRange signal then some (n.proceed delivery .lost)
    else
      match n.reaches fd.toNat with
      | some pipe =>
        some ((n.proceed delivery (.written pipe)).push pipe
          ⟨(signal % 256).toNat, some delivery⟩)
      | none => some (n.proceed delivery .lost)
  | _ => none

/-! ### The worker -/

/-- A worker that may go on. -/
def active (pipe : ℕ) : Option Worker := (n.workers pipe).filter fun w => !w.stopped

/-- Write the state of a worker. -/
def setWorker (pipe : ℕ) (worker : Worker) : Net :=
  { n with workers := Function.update n.workers pipe (some worker) }

/-- A worker returns, and its end of the pipe is dropped. -/
def stop (pipe : ℕ) (worker : Worker) : Net :=
  { n.setWorker pipe { worker with stopped := true } with
    fds := Function.update n.fds worker.readFd none }

/-- `read(2)` returns some bytes, at most as many as the buffer has room for. -/
def read (pipe size : ℕ) : Option Net :=
  match n.active pipe with
  | none => none
  | some worker =>
    if worker.buffer = [] ∧ worker.pending = [] ∧ 0 < size ∧ size ≤ 64 ∧
        size ≤ (n.pipes pipe).length then
      some { n.setWorker pipe { worker with buffer := (n.pipes pipe).take size } with
        pipes := Function.update n.pipes pipe ((n.pipes pipe).drop size) }
    else none

/-- `read(2)` fails, and is called again. -/
def readFails (pipe : ℕ) : Option Net :=
  match n.active pipe with
  | none => none
  | some worker => if worker.buffer = [] ∧ worker.pending = [] then some n else none

/-- `read(2)` returns nothing, which it does when no one can write any more. -/
def endOfFile (pipe : ℕ) : Option Net :=
  match n.active pipe with
  | none => none
  | some worker =>
    if worker.buffer = [] ∧ worker.pending = [] ∧ n.pipes pipe = [] ∧
        n.writeOpen pipe = false then
      some (n.stop pipe worker)
    else none

/-- The registrations that `dispatch_signal` finds for a signal. -/
def targets (signal : ℤ) : List SignalRegistration :=
  if n.poisoned then [] else (live n.sys).filter fun r => decide (signal ∈ r.signals)

/-- `child_pid as i32`. -/
def processId (r : SignalRegistration) : ℤ := (BitVec.ofNat 32 r.childPid).toInt

/-- The call of `kill(2)` for a registration. -/
def killOf (cell : Cell) (r : SignalRegistration) : Kill :=
  ⟨cell.delivery, processId r, cell.byte⟩

/-- The delivery of a byte, if it has one, comes further. -/
def proceedCell (cell : Cell) (progress : Progress) : Net :=
  match cell.delivery with
  | some delivery => n.proceed delivery progress
  | none => n

/-- The worker looks at the next byte. The sentinel makes it return; for any other byte it
takes the mutex and collects the registrations, in the order in which it finds them. -/
def dispatch (pipe : ℕ) (found : List SignalRegistration) : Option Net :=
  match n.active pipe with
  | none => none
  | some worker =>
    match worker.buffer with
    | [] => none
    | cell :: buffer =>
      if worker.pending ≠ [] then none
      else if cell.byte = 0 then some (n.stop pipe { worker with buffer := buffer })
      else if n.lock = none ∧ found.Perm (n.targets cell.byte) then
        some ((n.proceedCell cell (.dispatched pipe (live n.sys))).setWorker pipe
          { worker with buffer := buffer, pending := found.map (killOf cell) })
      else none

/-- The worker issues the next `kill(2)`. -/
def kill (pipe : ℕ) : Option Net :=
  match n.active pipe with
  | none => none
  | some worker =>
    match worker.pending with
    | [] => none
    | k :: pending =>
      some { n.setWorker pipe { worker with pending := pending } with kills := n.kills ++ [k] }

/-! ### The rest of the process -/

/-- Someone else opens a descriptor. -/
def openElsewhere (fd : ℕ) : Option Net :=
  if n.fds fd = none then
    some { n with fds := Function.update n.fds fd (some .elsewhere) }
  else none

/-- Someone else closes a descriptor of theirs. -/
def closeElsewhere (fd : ℕ) : Option Net :=
  if n.fds fd = some .elsewhere then some { n with fds := Function.update n.fds fd none }
  else none

end Net

/-! ### Steps and runs -/

/-- A step of one of the threads, with all that the program does not decide. -/
inductive Action where
  | call (thread : ℕ) (call : Call)
  | run (thread : ℕ) (answer : Answer)
  | handle (delivery : ℕ) (signal : ℤ)
  | load (delivery : ℕ)
  | write (delivery : ℕ)
  | read (pipe size : ℕ)
  | readFails (pipe : ℕ)
  | endOfFile (pipe : ℕ)
  | dispatch (pipe : ℕ) (found : List SignalRegistration)
  | kill (pipe : ℕ)
  | openElsewhere (fd : ℕ)
  | closeElsewhere (fd : ℕ)

/-- One step, if it can be taken. -/
def step (n : Net) : Action → Option Net
  | .call thread call => n.call thread call
  | .run thread answer => n.run thread answer
  | .handle delivery signal => n.handle delivery signal
  | .load delivery => n.load delivery
  | .write delivery => n.write delivery
  | .read pipe size => n.read pipe size
  | .readFails pipe => n.readFails pipe
  | .endOfFile pipe => n.endOfFile pipe
  | .dispatch pipe found => n.dispatch pipe found
  | .kill pipe => n.kill pipe
  | .openElsewhere fd => n.openElsewhere fd
  | .closeElsewhere fd => n.closeElsewhere fd

/-- A sequence of steps. -/
def steps (n : Net) : List Action → Option Net
  | [] => some n
  | action :: actions => (step n action).bind fun n' => steps n' actions

end Signal

end FirecrackerSdk
