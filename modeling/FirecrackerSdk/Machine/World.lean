import FirecrackerSdk.Lib.Prog
import FirecrackerSdk.Handlers

/-!
# The machine and the world it runs in

The state that the lifecycle operations of `machine.rs` act on, and the outside
world they ask.

The world is an arbitrary type `W` with an arbitrary environment
(`FirecrackerSdk.Env`) that answers queries (`FirecrackerSdk.Query`): system calls,
the API client, the CNI and netlink implementations, the signal forwarding manager,
handlers of the user. Nothing is assumed about the answers, so a statement about
every environment is a statement about every outcome of every call. One query,
`await`, asks whether a suspended future is dropped here; another, `exits`, which of
the spawned processes have ended since the last look.

What a run did is written to a trace (`FirecrackerSdk.Event`). The trace is not
part of the program – nothing reads it – and it is what the theorems about whole
runs are stated on.
-/

namespace FirecrackerSdk

/-! ### Cleanup functions and children -/

/-- What a cleanup function does: remove a file, or whatever an implementation of
`CniNetworkOperations` put in the closure. -/
inductive CleanupAction where
  | removeFile (path : String)
  | external (tag : String)
  deriving DecidableEq

/-- `CleanupFn`: a boxed closure. Two boxes with the same action are still two
functions, so each carries an identity. -/
structure CleanupFn where
  id : ℕ
  action : CleanupAction
  deriving DecidableEq

/-- `tokio::process::Child`: which of the machine's spawned processes it stands for,
its process id, and the exit status once it has been collected. -/
structure Child where
  uid : ℕ
  pid : ℕ
  done : Option ExitStatus := none
  deriving DecidableEq

/-- `Child::id`: the process id, until the exit status has been collected. -/
def Child.id (child : Child) : Option ℕ :=
  match child.done with
  | none => some child.pid
  | some _ => none

/-- A spawned process, as the operating system sees it. Dropping the `Child` does
not touch it: the crate never sets `kill_on_drop`. -/
structure Proc where
  pid : ℕ
  exit : Option ExitStatus := none
  reaped : Bool := false
  deriving DecidableEq

/-! ### The trace -/

/-- Who drains the cleanup functions: `finalize_exit_result` called by `wait`,
`stop_vmm` or `pid`; the same function reached through the `stop_vmm` that
`abort_start` calls; or `abort_start` itself. -/
inductive DrainSite where
  | finalize
  | abortStop
  | abort
  deriving DecidableEq

/-- One execution of a cleanup function: which one, how it failed, who drained,
whether an error was stored in `fatal_err` at that moment, and whether a process
spawned by the machine was still running. -/
structure Execution where
  cleanup : CleanupFn
  failure : Option Error
  site : DrainSite
  fatal : Option Error
  vmmRunning : Bool
  deriving DecidableEq

/-- What a run did. -/
inductive Event where
  /-- A client call, and the error it returned. -/
  | client (call : ClientCall) (failure : Option Error)
  /-- A network operation handed out a cleanup function. -/
  | acquired (cleanup : CleanupFn)
  /-- A cleanup function was registered on the machine. -/
  | pushed (cleanup : CleanupFn)
  /-- `do_cleanup` starts to drain. -/
  | drainBegin
  /-- A cleanup function was executed. -/
  | executed (execution : Execution)
  /-- `do_cleanup` has drained. -/
  | drainEnd
  /-- `abort_start` was entered with this `fatal_err` stored, to report `cause`. -/
  | aborting (fatal : Option Error) (cause : Error)
  /-- Waiting for a running child ended without its exit status: the future was
  dropped, or the wait failed. -/
  | abandoned (uid : ℕ)
  deriving DecidableEq

/-! ### The machine -/

/-- `SignalForwarder`. -/
structure SignalForwarder where
  registrationId : ℕ
  deriving DecidableEq

/-- `Machine`, without the trait objects that the environment stands for. -/
structure Machine where
  cfg : Config
  handlers : Handlers
  command : Option VMCommand := none
  process : Option Child := none
  machineConfig : MachineConfiguration := {}
  exitEvent : Bool := false
  signalForwarder : Option SignalForwarder := none
  cleanupFuncs : List CleanupFn := []
  cleanupDone : Bool := false
  started : Bool := false
  fatalErr : Option Error := none

/-- A machine in its world: the processes it has spawned, the clock in milliseconds,
the identity of the next closure, and the trace. -/
structure Sys (W : Type) where
  machine : Machine
  procs : List Proc := []
  clock : ℕ := 0
  fresh : ℕ := 0
  trace : List Event := []
  world : W

/-! ### The environment -/

/-- The points at which a future of the lifecycle suspends. -/
inductive AwaitPoint where
  | childWait
  | metadata
  | client
  | sleep
  deriving DecidableEq

/-- The questions a machine asks of the world, each with the type of its answer. -/
inductive Query : Type → Type where
  /-- `fs::metadata`. -/
  | stat (path : String) : Query (Except IoError Unit)
  /-- `OpenOptions::open`, to read or to append. -/
  | openFile (path : String) (append : Bool) : Query (Except IoError Unit)
  /-- `mkfifo(2)`. -/
  | mkfifo (path : String) : Query (Except IoError Unit)
  /-- `fs::remove_file`. -/
  | removeFile (path : String) : Query (Except IoError Unit)
  /-- `fs::hard_link`. -/
  | hardLink (original link : String) : Query (Except IoError Unit)
  /-- `chown(2)`. -/
  | chown (path : String) (uid gid : ℤ) : Query (Except IoError Unit)
  /-- `env::var`. -/
  | envVar (name : String) : Query (Option String)
  /-- Milliseconds that pass. -/
  | elapse : Query ℕ
  /-- `Command::spawn`: the process id. -/
  | spawn (command : VMCommand) : Query (Except IoError ℕ)
  /-- The spawned processes that have ended since the last look. -/
  | exits : Query (List (ℕ × ExitStatus))
  /-- An error of `waitpid(2)` without blocking. -/
  | tryWaitError (pid : ℕ) : Query (Option IoError)
  /-- The status a process ends with while it is awaited, or an error. -/
  | childWait (pid : ℕ) : Query (Except IoError ExitStatus)
  /-- `kill(2)`. -/
  | kill (pid : ℕ) (signal : ℤ) : Query (Option IoError)
  /-- A call of `ClientOps` that returns nothing. -/
  | client (call : ClientCall) : Query (Except Error Unit)
  /-- `ClientOps::get_machine_configuration`. -/
  | getMachineConfiguration : Query (Except Error MachineConfiguration)
  /-- `SignalForwardManager::register`. -/
  | register (signals : List ℤ) (pid : ℕ) : Query (Except Error ℕ)
  /-- `SignalForwardManager::unregister`. -/
  | unregister (registrationId : ℕ) : Query Unit
  /-- `CniNetworkOperations::initialize_netns`: the actions of the closures. -/
  | initializeNetns (netNsPath : String) : Query (Except Error (List String))
  /-- `CniNetworkOperations::invoke_cni`. -/
  | invokeCni (config : CniConfiguration) : Query (Except Error (CniResult × List String))
  /-- `NetlinkOps::get_link`, as the function it is at this moment. -/
  | getLink : Query GetLink
  /-- Run the closure of a network operation. -/
  | external (tag : String) : Query (Except Error Unit)
  /-- Run a handler of the user. -/
  | userHandler (tag : String) : Query (Except Error Unit)
  /-- Whether the future is dropped while it is suspended here. -/
  | await (point : AwaitPoint) : Query Bool

/-- **An environment**: an answer to every question, which may depend on the world
and may change it, and the characters that the format `{:?}` escapes. -/
structure Env (W : Type) where
  answer : {α : Type} → Query α → W → α × W
  unprintable : Char → Bool := fun _ => false

/-- The answers of a world in which nothing goes wrong: every call succeeds, no future is
dropped, and a process runs until it is awaited, when it exits with status 0. -/
def Query.smooth : {α : Type} → Query α → α
  | _, .stat _ => .ok ()
  | _, .openFile _ _ => .ok ()
  | _, .mkfifo _ => .ok ()
  | _, .removeFile _ => .ok ()
  | _, .hardLink _ _ => .ok ()
  | _, .chown _ _ _ => .ok ()
  | _, .envVar _ => none
  | _, .elapse => 0
  | _, .spawn _ => .ok 4242
  | _, .exits => []
  | _, .tryWaitError _ => none
  | _, .childWait _ => .ok (.code 0)
  | _, .kill _ _ => none
  | _, .client _ => .ok ()
  | _, .getMachineConfiguration => .ok {}
  | _, .register _ _ => .ok 0
  | _, .unregister _ => ()
  | _, .initializeNetns _ => .ok []
  | _, .invokeCni _ => .ok ({}, [])
  | _, .getLink => fun _ name => .ok ⟨name, none, 1500⟩
  | _, .external _ => .ok ()
  | _, .userHandler _ => .ok ()
  | _, .await _ => false

/-- The environment that always gives the same answers. -/
def Env.answering (answers : {α : Type} → Query α → α) : Env Unit where
  answer query world := (answers query, world)

/-- A lifecycle operation. -/
abbrev Op (W α : Type) : Type := Prog (Sys W) Error α

namespace Op

variable {W : Type}

/-! ### Asking, and writing to the state -/

/-- Ask the world. -/
def ask {α : Type} (env : Env W) (query : Query α) : Op W α := fun s =>
  (.ok (env.answer query s.world).1, { s with world := (env.answer query s.world).2 })

/-- Ask the world for something that can fail, and fail with it. -/
def askIo {α : Type} (env : Env W) (query : Query (Except IoError α)) : Op W α := do
  match ← ask env query with
  | .ok a => pure a
  | .error error => Prog.fail (.io error)

/-- The machine. -/
def machine : Op W Machine := Prog.gets Sys.machine

/-- The configuration of the machine. -/
def cfg : Op W Config := Prog.gets fun s => s.machine.cfg

/-- Write to fields of the machine. -/
def update (f : Machine → Machine) : Op W Unit :=
  Prog.modify fun s => { s with machine := f s.machine }

/-- Append an event to the trace. -/
def emit (event : Event) : Op W Unit :=
  Prog.modify fun s => { s with trace := s.trace ++ [event] }

/-- Suspend; the future may be dropped here. -/
def await (env : Env W) (point : AwaitPoint) : Op W Unit := do
  if ← ask env (.await point) then Prog.drop else pure ()

/-- Put a closure into a box of its own. -/
def box (action : CleanupAction) : Op W CleanupFn := fun s =>
  (.ok ⟨s.fresh, action⟩, { s with fresh := s.fresh + 1 })

section Bind

variable {α β : Type}

theorem ask_bind (env : Env W) (q : Query α) (f : α → Op W β) (s : Sys W) :
    (ask env q >>= f) s =
      f (env.answer q s.world).1 { s with world := (env.answer q s.world).2 } := rfl

theorem machine_bind (f : Machine → Op W β) (s : Sys W) : (machine >>= f) s = f s.machine s := rfl

theorem cfg_bind (f : Config → Op W β) (s : Sys W) : (cfg >>= f) s = f s.machine.cfg s := rfl

theorem update_bind (g : Machine → Machine) (f : Unit → Op W β) (s : Sys W) :
    (update g >>= f) s = f () { s with machine := g s.machine } := rfl

theorem emit_bind (e : Event) (f : Unit → Op W β) (s : Sys W) :
    (emit e >>= f) s = f () { s with trace := s.trace ++ [e] } := rfl

end Bind

/-! ### Time and processes -/

/-- `Instant::now`: some time has passed. -/
def now (env : Env W) : Op W ℕ := do
  let elapsed ← ask env .elapse
  Prog.modify fun s => { s with clock := s.clock + elapsed }
  Prog.gets Sys.clock

/-- `tokio::time::sleep`: at least that long. -/
def sleep (env : Env W) (milliseconds : ℕ) : Op W Unit := do
  await env .sleep
  let elapsed ← ask env .elapse
  Prog.modify fun s => { s with clock := s.clock + milliseconds + elapsed }

/-- The process ends, unless it has ended already. -/
def endProc (status : ExitStatus) (proc : Proc) : Proc :=
  if proc.exit.isSome then proc else { proc with exit := some status }

/-- Processes end on their own. -/
def settle (env : Env W) : Op W Unit := do
  let exits ← ask env .exits
  Prog.modify fun s =>
    { s with procs := exits.foldl (fun procs e => procs.modify e.1 (endProc e.2)) s.procs }

/-- The exit status of a spawned process. -/
def exitOf (procs : List Proc) (uid : ℕ) : Option ExitStatus :=
  procs[uid]?.bind Proc.exit

/-- Whether a process spawned by the machine is still running. -/
def anyRunning (procs : List Proc) : Bool := procs.any fun proc => proc.exit.isNone

/-- Collect the exit status of a process. -/
def reap (uid : ℕ) : Op W Unit :=
  Prog.modify fun s =>
    { s with procs := s.procs.modify uid fun proc => { proc with reaped := true } }

/-- A client call that returns nothing. -/
def call (env : Env W) (c : ClientCall) : Op W Unit := do
  await env .client
  match ← ask env (.client c) with
  | .ok () => emit (.client c none)
  | .error error => do
    emit (.client c (some error))
    Prog.fail error

/-- `ClientOps::get_machine_configuration`. -/
def getMachineConfiguration (env : Env W) : Op W MachineConfiguration := do
  await env .client
  match ← ask env .getMachineConfiguration with
  | .ok config => do
    emit (.client .getMachineConfiguration none)
    pure config
  | .error error => do
    emit (.client .getMachineConfiguration (some error))
    Prog.fail error

end Op

end FirecrackerSdk
