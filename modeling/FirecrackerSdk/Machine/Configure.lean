import FirecrackerSdk.Machine.Lifecycle

/-!
# Configuring and starting a machine

The rest of what a start does: validating the configuration, setting up the network
and the log files, configuring the VMM through its API, and the handlers that put
these steps in order. The file ends with `Machine::start`, with the construction of a
machine from a configuration and options, and with the public calls that the theorems
about whole runs quantify over (`FirecrackerSdk.Call`).
-/

namespace FirecrackerSdk

namespace Machine

variable {W : Type} (env : Env W)

/-! ### Validation -/

/-- `Config::validate_existing_path`. -/
def validateExistingPath (kind path : String) : Op W Unit := do
  match ← Op.ask env (.stat path) with
  | .ok () => pure ()
  | .error error =>
    Prog.fail (.invalidConfig
      ("failed to stat " ++ kind ++ ", " ++ Text.debugStr env.unprintable path ++ ": " ++
        error.text))

/-- Check a path that may be absent. -/
def validateIfSome (kind : String) : Option String → Op W Unit
  | some path => validateExistingPath env kind path
  | none => pure ()

/-- The check, in both validations, that the socket does not exist yet. -/
def validateSocketAbsent (socketPath : String) : Op W Unit := do
  match ← Op.ask env (.stat socketPath) with
  | .ok () => Prog.fail (.invalidConfig ("socket " ++ socketPath ++ " already exists"))
  | .error _ => pure ()

/-- The first root drive's path, which is all that `Config::validate` looks at among
the drives. -/
def rootDrivePath (drives : List Drive) : Option String :=
  (drives.find? fun drive => drive.isRootDevice == some true).map (·.pathOnHost.getD "")

/-- `Config::validate`. -/
def validate : Op W Unit := do
  let cfg ← Op.cfg
  if cfg.disableValidation then pure ()
  else do
    validateExistingPath env "kernel image path" cfg.kernelImagePath
    validateIfSome env "initrd image path" cfg.initrdPath
    validateIfSome env "host drive path" (rootDrivePath cfg.drives)
    validateSocketAbsent env cfg.socketPath
    if cfg.machineCfg.vcpuCount.getD 0 < 1 then
      Prog.fail (.invalidConfig "machine needs a nonzero VcpuCount")
    else if cfg.machineCfg.memSizeMib.getD 0 < 1 then
      Prog.fail (.invalidConfig "machine needs a nonzero amount of memory")
    else pure ()

/-- Check that each of a list of paths exists. -/
def validateExistingPaths (kind : String) : List String → Op W Unit
  | [] => pure ()
  | path :: paths => do
    validateExistingPath env kind path
    validateExistingPaths kind paths

/-- `Config::validate_load_snapshot`. -/
def validateLoadSnapshot : Op W Unit := do
  let cfg ← Op.cfg
  if cfg.disableValidation then pure ()
  else do
    validateExistingPaths env "drive path" (cfg.drives.map (·.pathOnHost.getD ""))
    validateSocketAbsent env cfg.socketPath
    validateExistingPath env "snapshot memory path" (cfg.snapshot.getMemBackendPath.getD "")
    validateExistingPath env "snapshot path" (cfg.snapshot.snapshotPath.getD "")

/-- The function of `load_snapshot_config_validation_handler`. -/
def loadSnapshotConfigValidation : Op W Unit := do
  let cfg ← Op.cfg
  if cfg.snapshot.getMemBackendPath.isNone || cfg.snapshot.snapshotPath.isNone then
    Prog.fail (.invalidConfig "snapshot load requires both memory backend and snapshot path")
  else validateLoadSnapshot env

/-- The function of `jailer_config_validation_handler`. -/
def jailerConfigValidation (cfg : Config) : Except Error Unit :=
  match cfg.jailerCfg with
  | none => .ok ()
  | some jailerCfg =>
    if !cfg.rootDrivePresent then
      .error (.invalidConfig "A root drive must be present in the drive list")
    else if jailerCfg.chrootStrategy.isNone then
      .error (.invalidConfig "ChrootStrategy cannot be nil")
    else if jailerCfg.execFile = "" then
      .error (.invalidConfig "exec file must be specified when using jailer mode")
    else if jailerCfg.id = "" then
      .error (.invalidConfig "id must be specified when using jailer mode")
    else if jailerCfg.gid.isNone then
      .error (.invalidConfig "GID must be specified when using jailer mode")
    else if jailerCfg.uid.isNone then
      .error (.invalidConfig "UID must be specified when using jailer mode")
    else if jailerCfg.numaNode.isNone then
      .error (.invalidConfig "NUMA node must be specified when using jailer mode")
    else .ok ()

/-! ### The network -/

/-- Box the closures that a network operation returned. -/
def acquire : List String → Op W (List CleanupFn)
  | [] => pure []
  | tag :: tags => do
    let cleanup ← Op.box (.external tag)
    Op.emit (.acquired cleanup)
    let cleanups ← acquire tags
    pure (cleanup :: cleanups)

/-- Write to the network interfaces of the configuration. -/
def updateInterfaces (f : NetworkInterfaces → NetworkInterfaces) : Op W Unit :=
  Op.update fun m =>
    { m with cfg := { m.cfg with networkInterfaces := f m.cfg.networkInterfaces } }

/-- The configuration that `setup_cni` invokes CNI with. -/
def prepareCni (vmId netNsPath : String) (cni : CniConfiguration) : CniConfiguration :=
  CniConfiguration.setDefaults
    { cni with containerId := some vmId, netNsPath := some netNsPath }

/-- The part of `setup_cni` that asks the network operations, for the interface that
carries the CNI configuration. What they hand out lives in a local vector until the
function returns. -/
def invokeCniFor (netNsPath : String) (cni : CniConfiguration) (iface : NetworkInterface) :
    Op W (List CleanupFn) := do
  let tags ← Prog.ofExcept (← Op.ask env (.initializeNetns netNsPath))
  let cleanupFuncs ← acquire tags
  let added ← Prog.ofExcept (← Op.ask env (.invokeCni cni))
  let cniCleanupFuncs ← acquire added.2
  let getLink ← Op.ask env .getLink
  let iface ← Prog.ofExcept (iface.applyCniResult env.unprintable added.1 getLink)
  -- written back to the first interface with a CNI configuration
  updateInterfaces (NetworkInterfaces.modifyCniInterface fun current =>
    { current with staticConfiguration := iface.staticConfiguration })
  pure (cleanupFuncs ++ cniCleanupFuncs)

/-- `NetworkInterfaces::setup_cni`. -/
def setupCni (vmId netNsPath : String) : Op W (List CleanupFn) := do
  match (← Op.cfg).networkInterfaces.cniInterface with
  | none => pure []
  | some iface =>
    match iface.cniConfiguration with
    | none => Prog.fail (.invalidConfig "missing CNIConfiguration")
    | some cni => do
      updateInterfaces (NetworkInterfaces.modifyCniInterface fun iface =>
        { iface with cniConfiguration := some (prepareCni vmId netNsPath cni) })
      invokeCniFor env netNsPath (prepareCni vmId netNsPath cni)
        { iface with cniConfiguration := some (prepareCni vmId netNsPath cni) }

/-- `Machine::default_net_ns_path`. -/
def defaultNetNsPath (cfg : Config) : String := defaultNetNsDir ++ "/" ++ cfg.vmid

/-- `Machine::setup_network`. -/
def setupNetwork : Op W Unit := do
  let cfg ← Op.cfg
  if cfg.networkInterfaces.cniInterface.isNone then pure ()
  else do
    Op.update fun m =>
      { m with cfg := { m.cfg with netNs := some (cfg.netNs.getD (defaultNetNsPath cfg)) } }
    let cleanups ← setupCni env cfg.vmid (cfg.netNs.getD (defaultNetNsPath cfg))
    pushCleanupFuncs cleanups

/-- What `setup_kernel_args` makes of the boot line. -/
def kernelArgsFor (cfg : Config) : String :=
  let kernelArgs := parseKernelArgs cfg.kernelArgs
  match cfg.networkInterfaces.staticIpInterface with
  | none => kernelArgs.display
  | some iface =>
    match iface.staticConfiguration.bind (·.ipConfiguration) with
    | none => kernelArgs.display
    | some ip => (kernelArgs.insert "ip" (some ip.ipBootParam)).display

/-- `Machine::setup_kernel_args`. -/
def setupKernelArgs : Op W Unit :=
  Op.update fun m => { m with cfg := { m.cfg with kernelArgs := kernelArgsFor m.cfg } }

/-! ### Log files -/

/-- `Machine::path_cstring`. -/
def pathCstring (unprintable : Char → Bool) (path : String) : Except Error Unit :=
  if path.toList.any (·.toNat == 0) then
    .error (.invalidConfig
      ("path contains interior NUL byte: " ++ Text.debugStr unprintable path))
  else .ok ()

/-- `Machine::create_fifo_or_file`; an empty path counts as absent. -/
def createFifoOrFile (fifoPath filePath : Option String) : Op W Unit :=
  match fifoPath.filter (· ≠ ""), filePath.filter (· ≠ "") with
  | some fifoPath, _ => do
    Prog.ofExcept (pathCstring env.unprintable fifoPath)
    Op.askIo env (.mkfifo fifoPath)
    pushCleanupFunc (.removeFile fifoPath)
  | none, some filePath => Op.askIo env (.openFile filePath true)
  | none, none => pure ()

/-- `Machine::create_log_files`. A capture that cannot be started is only warned
about. -/
def createLogFiles : Op W Unit := do
  let cfg ← Op.cfg
  createFifoOrFile env cfg.metricsFifo cfg.metricsPath
  createFifoOrFile env cfg.logFifo cfg.logPath
  match cfg.logFifo.filter (· ≠ ""), cfg.fifoLogWriter with
  | some logFifo, true => do
    let _ ← Op.ask env (.openFile logFifo false)
    pure ()
  | _, _ => pure ()

/-! ### The jail -/

/-- Link a file into the jail under its last component, and return that name. -/
def linkInto (rootfs : String) (fallback hostPath : String) : Op W String := do
  let name := (fileName hostPath).getD fallback
  Op.askIo env (.hardLink hostPath (pathJoin rootfs name))
  pure name

/-- Link the drive at position `index` into the jail, and rewrite its path. -/
def linkDrive (rootfs : String) (index : ℕ) (drive : Drive) : Op W Unit :=
  match drive.pathOnHost.filter (· ≠ "") with
  | none => pure ()
  | some hostPath => do
    let name ← linkInto env rootfs "drive" hostPath
    Op.update fun m =>
      { m with cfg := { m.cfg with
        drives := m.cfg.drives.modify index fun drive =>
          { drive with pathOnHost := some name } } }

/-- Link the drives into the jail one after the other, from position `index` on. -/
def linkDrives (rootfs : String) (index : ℕ) : List Drive → Op W Unit
  | [] => pure ()
  | drive :: drives => do
    linkDrive env rootfs index drive
    linkDrives rootfs (index + 1) drives

/-- Link the initial RAM disk into the jail, and return its path there. -/
def linkInitrd (rootfs : String) (initrdPath : Option String) : Op W (Option String) :=
  match initrdPath.filter (· ≠ "") with
  | none => pure initrdPath
  | some hostPath => do
    let name ← linkInto env rootfs "initrd" hostPath
    pure (some name)

/-- Link a FIFO into the jail and hand it to the jailed user. -/
def linkFifo (rootfs : String) (jailerCfg : JailerConfig) (fifoPath : Option String) :
    Op W (Option String) :=
  match fifoPath.filter (· ≠ "") with
  | none => pure fifoPath
  | some hostPath => do
    let name ← linkInto env rootfs "fifo" hostPath
    Op.askIo env (.chown (pathJoin rootfs name) (jailerCfg.uid.getD 0) (jailerCfg.gid.getD 0))
    pure (some name)

/-- Link everything the configuration names into the jail. -/
def linkFilesInto (rootfs : String) (jailerCfg : JailerConfig) (cfg : Config)
    (kernelImageFileName : String) : Op W Unit := do
  Op.askIo env (.hardLink cfg.kernelImagePath (pathJoin rootfs kernelImageFileName))
  let initrdPath ← linkInitrd env rootfs cfg.initrdPath
  linkDrives env rootfs 0 cfg.drives
  Op.update fun m =>
    { m with cfg := { m.cfg with
      kernelImagePath := kernelImageFileName
      initrdPath := initrdPath } }
  -- the path of a FIFO is rewritten as soon as it is linked
  let logFifo ← linkFifo env rootfs jailerCfg cfg.logFifo
  Op.update fun m => { m with cfg := { m.cfg with logFifo := logFifo } }
  let metricsFifo ← linkFifo env rootfs jailerCfg cfg.metricsFifo
  Op.update fun m => { m with cfg := { m.cfg with metricsFifo := metricsFifo } }

/-- The function of `link_files_handler`. -/
def linkFiles (kernelImageFileName : String) : Op W Unit := do
  let cfg ← Op.cfg
  match cfg.jailerCfg with
  | none => Prog.fail (.invalidConfig "jailer config was not set for use")
  | some jailerCfg => linkFilesInto env (jailerRootfs jailerCfg) jailerCfg cfg kernelImageFileName

/-! ### The API calls -/

/-- `Machine::setup_logging`. -/
def setupLogging : Op W Unit := do
  let cfg ← Op.cfg
  match cfg.logFifo.or cfg.logPath with
  | none => pure ()
  | some path =>
    Op.call env (.putLogger
      { logPath := some path
        level := cfg.logLevel
        showLevel := some true
        showLogOrigin := some false })

/-- `Machine::setup_metrics`. -/
def setupMetrics : Op W Unit := do
  let cfg ← Op.cfg
  match cfg.metricsFifo.or cfg.metricsPath with
  | none => pure ()
  | some path => Op.call env (.putMetrics { metricsPath := some path })

/-- `Machine::create_machine`, with `refresh_machine_configuration`. -/
def createMachine : Op W Unit := do
  Op.call env (.putMachineConfiguration (← Op.cfg).machineCfg)
  let config ← Op.getMachineConfiguration env
  Op.update fun m => { m with machineConfig := config }

/-- `Machine::create_boot_source`, as its handler calls it. -/
def createBootSource : Op W Unit := do
  let cfg ← Op.cfg
  Op.call env (.putGuestBootSource
    { kernelImagePath := some cfg.kernelImagePath
      initrdPath := cfg.initrdPath
      bootArgs := some cfg.kernelArgs })

/-- The model of an interface that `create_network_interface` sends. -/
def interfaceModel (iface : NetworkInterface) (config : StaticNetworkConfiguration)
    (index : ℕ) : NetworkInterfaceModel where
  ifaceId := some (toString index)
  guestMac := config.macAddress
  hostDevName := some config.hostDevName
  rxRateLimiter := iface.inRateLimiter
  txRateLimiter := iface.outRateLimiter

/-- `Machine::create_network_interface`. -/
def createNetworkInterface (iface : NetworkInterface) (index : ℕ) : Op W Unit :=
  match iface.staticConfiguration with
  | none => Prog.fail (.invalidConfig "invalid nil state for network interface")
  | some config =>
    Op.call env
      (.putGuestNetworkInterfaceById (toString index) (interfaceModel iface config index))

/-- The loop of `create_network_interfaces`, from position `index` on. -/
def createNetworkInterfacesFrom (index : ℕ) : List NetworkInterface → Op W Unit
  | [] => pure ()
  | iface :: ifaces => do
    -- interfaces are numbered from one
    createNetworkInterface env iface (index + 1)
    createNetworkInterfacesFrom (index + 1) ifaces

/-- `Machine::create_network_interfaces`. -/
def createNetworkInterfaces : Op W Unit := do
  createNetworkInterfacesFrom env 0 (← Op.cfg).networkInterfaces

/-- Make a list of calls, up to the first that fails. -/
def callAll : List ClientCall → Op W Unit
  | [] => pure ()
  | c :: cs => do
    Op.call env c
    callAll cs

/-- The call of `attach_drive`. -/
def driveCall (drive : Drive) : ClientCall :=
  .putGuestDriveById (drive.driveId.getD "") drive

/-- `Machine::attach_drives`. -/
def attachDrives : Op W Unit := do
  callAll env ((← Op.cfg).drives.map driveCall)

/-- The call of `add_vsock`. -/
def vsockCall (device : VsockDevice) : ClientCall :=
  .putGuestVsock
    { vsockId := some device.id
      guestCid := some device.cid.toNat
      udsPath := some device.path }

/-- `Machine::add_vsocks`. -/
def addVsocks : Op W Unit := do
  callAll env ((← Op.cfg).vsockDevices.map vsockCall)

/-- The ids of the interfaces that allow MMDS, by their position from `index` on. -/
def mmdsInterfaceIds (index : ℕ) : List NetworkInterface → List String
  | [] => []
  | iface :: ifaces =>
    if iface.allowMmds then toString (index + 1) :: mmdsInterfaceIds (index + 1) ifaces
    else mmdsInterfaceIds (index + 1) ifaces

/-- `Machine::set_mmds_config`, as its handler calls it. -/
def setMmdsConfig : Op W Unit := do
  let cfg ← Op.cfg
  match mmdsInterfaceIds 0 cfg.networkInterfaces with
  | [] => pure ()
  | ids =>
    Op.call env (.putMmdsConfig
      { ipv4Address := cfg.mmdsAddress.map Ipv4Addr.display
        networkInterfaces := ids
        version := some cfg.mmdsVersion.toModel })

/-- `Machine::load_snapshot`. -/
def loadSnapshot : Op W Unit := do
  let snapshot := (← Op.cfg).snapshot
  Op.call env (.loadSnapshot
    { memFilePath := snapshot.memFilePath
      memBackend := snapshot.memBackend
      snapshotPath := snapshot.snapshotPath
      enableDiffSnapshots := snapshot.enableDiffSnapshots
      resumeVm := snapshot.resumeVm })

/-- The call that boots the guest. -/
def instanceStart : ClientCall :=
  .createSyncAction { actionType := some instanceActionInstanceStart }

/-- `Machine::start_instance`. -/
def startInstance : Op W Unit := do
  if (← Op.cfg).hasSnapshot then pure () else Op.call env instanceStart

/-! ### Handlers and the start -/

/-- What a handler's function does. -/
def runHandler : HandlerFn → Op W Unit
  | .configValidation => validate env
  | .loadSnapshotConfigValidation => loadSnapshotConfigValidation env
  | .jailerConfigValidation => do Prog.ofExcept (jailerConfigValidation (← Op.cfg))
  | .networkConfigValidation => do Prog.ofExcept (← Op.cfg).validateNetwork
  | .startVmm => startVmm env
  | .createLogFiles => createLogFiles env
  | .bootstrapLogging => do
    setupLogging env
    setupMetrics env
  | .createMachine => createMachine env
  | .createBootSource => createBootSource env
  | .attachDrives => attachDrives env
  | .createNetworkInterfaces => createNetworkInterfaces env
  | .addVsocks => addVsocks env
  | .setMetadata metadata => Op.call env (.putMmds metadata)
  | .configMmds => setMmdsConfig env
  | .setupNetwork => setupNetwork env
  | .setupKernelArgs => setupKernelArgs
  | .loadSnapshot => loadSnapshot env
  | .linkFiles kernelImageFileName => linkFiles env kernelImageFileName
  | .user tag => do Prog.ofExcept (← Op.ask env (.userHandler tag))

/-- `HandlerList::run`. -/
def runHandlerList : List Handler → Op W Unit
  | [] => pure ()
  | handler :: handlers => do
    runHandler env handler.func
    runHandlerList handlers

/-- `Handlers::run`. -/
def runHandlers (handlers : Handlers) : Op W Unit := do
  if (← Op.cfg).disableValidation then runHandlerList env handlers.fcInit
  else do
    runHandlerList env handlers.validation
    runHandlerList env handlers.fcInit

/-- `Machine::start`. -/
def start : Op W Unit := do
  if (← Op.machine).started then Prog.fail .alreadyStarted
  else do
    Op.update fun m => { m with started := true }
    orAbort env (runHandlers env (← Op.machine).handlers)
    orAbort env (startInstance env)

end Machine

/-! ### Construction -/

/-- `jail`: the socket moves into the jail, the jailer becomes the command, and the
strategy adapts the handlers. `cpuset` is what the NUMA node's file says. -/
def jail (machine : Machine) (cpuset : String) : Except Error Machine :=
  match machine.cfg.jailerCfg with
  | none => .error (.invalidConfig "jailer config was not set for use")
  | some jailerCfg =>
    -- the path inside the jail is the one that was given; only the client's path moves
    let socketPath :=
      if machine.cfg.socketPath = "" then defaultSocketPath else machine.cfg.socketPath
    let cfg := { machine.cfg with socketPath := joinChrootPath (jailerRootfs jailerCfg) socketPath }
    let firecrackerArgs :=
      seccompArgs cfg.seccomp.enabled cfg.seccomp.filter ++ ["--api-sock", socketPath]
    let command := jailerCommand jailerCfg cfg.netNs firecrackerArgs cpuset
    match jailerCfg.chrootStrategy with
    | none => .ok { machine with cfg := cfg, command := some command }
    | some strategy =>
      match strategy.adaptHandlers machine.handlers with
      | .error error => .error error
      | .ok handlers =>
        .ok { machine with cfg := cfg, command := some command, handlers := handlers }

/-- The handlers that `new_with_client` installs before jailing. -/
def initialHandlers (cfg : Config) : Handlers :=
  let handlers :=
    { defaultHandlers with
      validation := defaultHandlers.validation ++
        [if cfg.jailerCfg.isSome then jailerConfigValidationHandler
          else configValidationHandler] }
  if cfg.hasSnapshot then adaptHandlersForSnapshot handlers else handlers

/-- The configuration as `new_with_client` completes it; `uuid` is the identifier made
up for a machine that has none. -/
def completeConfig (cfg : Config) (uuid : String) : Config :=
  let vmid := if cfg.vmid = "" then uuid else cfg.vmid
  { cfg with
    vmid := vmid
    forwardSignals := some cfg.normalizedForwardSignals
    netNs := if cfg.netNs.isNone && cfg.networkInterfaces.cniInterface.isSome then
      some (defaultNetNsDir ++ "/" ++ vmid) else cfg.netNs }

/-- The command of a machine without a jailer. -/
def plainCommand (cfg : Config) : VMCommand where
  bin := defaultFcBin
  args := ["--api-sock", cfg.socketPath, "--id", cfg.vmid] ++
    seccompArgs cfg.seccomp.enabled cfg.seccomp.filter

/-- `Machine::new_with_client`. -/
def newWithClient (cfg : Config) (uuid cpuset : String) : Except Error Machine :=
  let cfg := completeConfig cfg uuid
  let machine : Machine :=
    { cfg := cfg, handlers := initialHandlers cfg, machineConfig := cfg.machineCfg }
  if cfg.jailerCfg.isSome then jail machine cpuset
  else .ok { machine with command := some (plainCommand cfg) }

/-- The options of `opts.rs` that reach the machine: the others replace a part of the
environment. A snapshot option is any function on the snapshot configuration. -/
inductive Opt where
  | withProcessRunner (command : VMCommand)
  | withSnapshot (memFilePath snapshotPath : String)
      (opts : List (SnapshotConfig → SnapshotConfig))
  | withEnvironment

/-- `with_memory_backend`. -/
def withMemoryBackend (backendType backendPath : String) (snapshot : SnapshotConfig) :
    SnapshotConfig :=
  { snapshot with
    memBackend := some { backendType := some backendType, backendPath := some backendPath } }

/-- Apply an option to a machine. -/
def Opt.apply : Opt → Machine → Machine
  | .withProcessRunner command, machine => { machine with command := some command }
  | .withSnapshot memFilePath snapshotPath opts, machine =>
    { machine with
      cfg := { machine.cfg with
        snapshot := opts.foldl (fun snapshot opt => opt snapshot)
          (SnapshotConfig.withPaths memFilePath snapshotPath) }
      handlers := adaptHandlersForSnapshot machine.handlers }
  | .withEnvironment, machine => machine

/-- `new_machine`. -/
def newMachine (cfg : Config) (uuid cpuset : String) (opts : List Opt) : Except Error Machine :=
  (newWithClient cfg uuid cpuset).map fun machine =>
    opts.foldl (fun machine opt => opt.apply machine) machine

/-- What a machine is made of before its first call. The fields are public, so a user
may have put anything into them. -/
structure Blueprint where
  cfg : Config
  handlers : Handlers
  command : Option VMCommand
  machineConfig : MachineConfiguration

/-- The machine made of it: it owns nothing yet. -/
def Blueprint.machine (b : Blueprint) : Machine where
  cfg := b.cfg
  handlers := b.handlers
  command := b.command
  machineConfig := b.machineConfig

/-- A machine in its world before the first call. -/
def Blueprint.initial {W : Type} (b : Blueprint) (clock : ℕ) (world : W) : Sys W where
  machine := b.machine
  clock := clock
  world := world

/-- The machine that `new_with_client` makes without a jailer. -/
def plainBlueprint (cfg : Config) (uuid : String) : Blueprint where
  cfg := completeConfig cfg uuid
  handlers := initialHandlers (completeConfig cfg uuid)
  command := some (plainCommand (completeConfig cfg uuid))
  machineConfig := cfg.machineCfg

/-- A machine with little more than a socket. -/
def sampleMachine : Sys Unit :=
  (plainBlueprint { socketPath := "/run/fc.sock", disableValidation := true } "vm").initial 0 ()

theorem newWithClient_plain {cfg : Config} (h : cfg.jailerCfg = none) (uuid cpuset : String) :
    newWithClient cfg uuid cpuset = .ok (plainBlueprint cfg uuid).machine := by
  have hjailer : (completeConfig cfg uuid).jailerCfg.isSome = false := by
    change cfg.jailerCfg.isSome = false
    rw [h]
    rfl
  unfold newWithClient
  dsimp only
  rw [hjailer]
  rfl

/-- **What `new_with_client` makes**: a machine that owns nothing, with the completed configuration;
only the socket may have moved, into a jail. -/
theorem newWithClient_blueprint {cfg : Config} {uuid cpuset : String} {m : Machine}
    (h : newWithClient cfg uuid cpuset = .ok m) :
    ∃ (b : Blueprint) (socketPath : String), m = b.machine ∧
      b.cfg = { completeConfig cfg uuid with socketPath := socketPath } := by
  unfold newWithClient at h
  dsimp only at h
  split at h
  · unfold jail at h
    dsimp only at h
    split at h
    · cases h
    · split at h
      · obtain rfl := Except.ok.inj h
        exact ⟨⟨_, _, _, _⟩, _, rfl, rfl⟩
      · split at h
        · cases h
        · obtain rfl := Except.ok.inj h
          exact ⟨⟨_, _, _, _⟩, _, rfl, rfl⟩
  · obtain rfl := Except.ok.inj h
    exact ⟨⟨_, _, _, _⟩, _, rfl, rfl⟩

/-- A new machine is one that `new_with_client` makes, after the options. -/
theorem newMachine_eq_ok {cfg : Config} {uuid cpuset : String} {opts : List Opt} {m : Machine}
    (h : newMachine cfg uuid cpuset opts = .ok m) :
    ∃ m₀, newWithClient cfg uuid cpuset = .ok m₀ ∧
      m = opts.foldl (fun machine opt => opt.apply machine) m₀ := by
  unfold newMachine at h
  cases h₀ : newWithClient cfg uuid cpuset with
  | error e =>
    rw [h₀] at h
    cases h
  | ok m₀ =>
    rw [h₀] at h
    exact ⟨m₀, rfl, (Except.ok.inj h).symm⟩

/-- What holds of the machine that `new_with_client` makes and survives every option holds
of the machine that `new_machine` makes. -/
theorem newMachine_induct {P : Machine → Prop} {cfg : Config} {uuid cpuset : String}
    {opts : List Opt} {m : Machine} (h : newMachine cfg uuid cpuset opts = .ok m)
    (hnew : ∀ m₀, newWithClient cfg uuid cpuset = .ok m₀ → P m₀)
    (hopt : ∀ (opt : Opt) m, P m → P (opt.apply m)) : P m := by
  obtain ⟨m₀, h₀, rfl⟩ := newMachine_eq_ok h
  have hopts : ∀ m', P m' → P (opts.foldl (fun machine opt => opt.apply machine) m') := by
    clear h
    induction opts with
    | nil => exact fun _ hm => hm
    | cons opt opts ih => exact fun m' hm => ih _ (hopt opt m' hm)
  exact hopts m₀ (hnew m₀ h₀)

/-- **A new machine owns nothing.** -/
theorem newMachine_machine {cfg : Config} {uuid cpuset : String} {opts : List Opt} {m : Machine}
    (h : newMachine cfg uuid cpuset opts = .ok m) : ∃ b : Blueprint, m = b.machine := by
  refine newMachine_induct (P := fun m => ∃ b : Blueprint, m = b.machine) h (fun m₀ h₀ => ?_) ?_
  · obtain ⟨b, -, hb, -⟩ := newWithClient_blueprint h₀
    exact ⟨b, hb⟩
  · rintro opt _ ⟨b, rfl⟩
    cases opt with
    | withProcessRunner command => exact ⟨⟨_, _, _, _⟩, rfl⟩
    | withSnapshot memFilePath snapshotPath snapshotOpts => exact ⟨⟨_, _, _, _⟩, rfl⟩
    | withEnvironment => exact ⟨b, rfl⟩

/-! ### Calls and runs -/

/-- The public calls of a machine that touch its lifecycle. -/
inductive Call where
  | setupNetwork
  | createLogFiles
  | startVmm
  | start
  | stopVmm
  | wait
  | pid
  deriving DecidableEq

/-- What a call does; the process id that `pid` returns is the only value. -/
def Call.exec {W : Type} (env : Env W) : Call → Op W (Option ℕ)
  | .setupNetwork => do Machine.setupNetwork env; pure none
  | .createLogFiles => do Machine.createLogFiles env; pure none
  | .startVmm => do Machine.startVmm env; pure none
  | .start => do Machine.start env; pure none
  | .stopVmm => do Machine.stopVmm env; pure none
  | .wait => do Machine.wait env; pure none
  | .pid => do
    let pid ← Machine.pid env
    pure (some pid)

/-- The state after a sequence of calls, whichever way each of them ended. -/
def runCalls {W : Type} (env : Env W) : List Call → Sys W → Sys W
  | [], s => s
  | c :: cs, s => runCalls env cs (c.exec env s).2

end FirecrackerSdk
