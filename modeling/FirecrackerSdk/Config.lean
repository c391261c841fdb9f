import FirecrackerSdk.Network

/-!
# Configurations and commands

`config.rs`, `snapshot.rs`, `command_builder.rs` and the records of `jailer.rs`: what
a machine is built from. The checks of `Config` that look at the file system are in
`FirecrackerSdk.Machine.Configure`; here are the records and their pure functions.
-/

namespace FirecrackerSdk

/-! ### Commands -/

/-- `CommandStdio`. -/
inductive CommandStdio where
  | inherit
  | null
  | path (path : String)
  deriving DecidableEq

/-- `VMCommand`. -/
structure VMCommand where
  bin : String := ""
  args : List String := []
  stdin : CommandStdio := .inherit
  stdout : CommandStdio := .inherit
  stderr : CommandStdio := .inherit
  deriving DecidableEq

/-- `DEFAULT_FC_BIN`. -/
def defaultFcBin : String := "firecracker"

/-- `seccomp_args`. -/
def seccompArgs (enabled : Bool) (filter : Option String) : List String :=
  match enabled, filter with
  | false, _ => ["--no-seccomp"]
  | true, some filter => if filter = "" then [] else ["--seccomp-filter", filter]
  | true, none => []

/-! ### Snapshots -/

/-- `SnapshotConfig`. -/
structure SnapshotConfig where
  memFilePath : Option String := none
  memBackend : Option MemoryBackend := none
  snapshotPath : Option String := none
  enableDiffSnapshots : Bool := false
  resumeVm : Bool := false
  deriving DecidableEq

/-- `SnapshotConfig::with_paths`: an empty path is no path. -/
def SnapshotConfig.withPaths (memFilePath snapshotPath : String) : SnapshotConfig where
  memFilePath := if memFilePath = "" then none else some memFilePath
  snapshotPath := if snapshotPath = "" then none else some snapshotPath

/-- `SnapshotConfig::get_mem_backend_path`. -/
def SnapshotConfig.getMemBackendPath (snapshot : SnapshotConfig) : Option String :=
  (snapshot.memBackend.bind (·.backendPath)).or snapshot.memFilePath

/-! ### Jails -/

/-- `NaiveChrootStrategy`, the one `HandlersAdapter` of the crate. -/
structure NaiveChrootStrategy where
  kernelImagePath : String := ""
  deriving DecidableEq

/-- `JailerConfig`. -/
structure JailerConfig where
  gid : Option ℤ := none
  uid : Option ℤ := none
  id : String := ""
  numaNode : Option ℤ := none
  execFile : String := ""
  jailerBinary : Option String := none
  chrootBaseDir : Option String := none
  daemonize : Bool := false
  chrootStrategy : Option NaiveChrootStrategy := none
  cgroupVersion : Option String := none
  cgroupArgs : List String := []
  parentCgroup : Option String := none
  stdin : CommandStdio := .inherit
  stdout : CommandStdio := .inherit
  stderr : CommandStdio := .inherit
  deriving DecidableEq

/-! ### Configurations -/

/-- `MMDSVersion`. -/
inductive MMDSVersion where
  | v1
  | v2
  deriving DecidableEq

/-- The version string that the API knows, as `set_mmds_config` sends it. -/
def MMDSVersion.toModel : MMDSVersion → String
  | .v1 => "V1"
  | .v2 => "V2"

/-- `VsockDevice`. -/
structure VsockDevice where
  id : String := ""
  path : String := ""
  cid : UInt32 := 0
  deriving DecidableEq

/-- `SeccompConfig`. -/
structure SeccompConfig where
  enabled : Bool := false
  filter : Option String := none
  deriving DecidableEq

/-- `DEFAULT_NET_NS_DIR`. -/
def defaultNetNsDir : String := "/var/run/netns"

/-- `FIRECRACKER_INIT_TIMEOUT_ENV`. -/
def firecrackerInitTimeoutEnv : String := "FIRECRACKER_GO_SDK_INIT_TIMEOUT_SECONDS"

/-- `DEFAULT_FIRECRACKER_INIT_TIMEOUT_SECONDS`. -/
def defaultFirecrackerInitTimeoutSeconds : ℤ := 3

/-- `DEFAULT_FORWARD_SIGNALS`. -/
def defaultForwardSignals : List ℤ := [2, 3, 15, 1, 6]

/-- `Config`. Of the FIFO log writer only its presence matters here. -/
structure Config where
  socketPath : String := ""
  logPath : Option String := none
  logFifo : Option String := none
  logLevel : Option String := none
  metricsPath : Option String := none
  metricsFifo : Option String := none
  kernelImagePath : String := ""
  initrdPath : Option String := none
  kernelArgs : String := ""
  drives : List Drive := []
  networkInterfaces : NetworkInterfaces := []
  fifoLogWriter : Bool := false
  vsockDevices : List VsockDevice := []
  machineCfg : MachineConfiguration := {}
  disableValidation : Bool := false
  jailerCfg : Option JailerConfig := none
  vmid : String := ""
  netNs : Option String := none
  forwardSignals : Option (List ℤ) := none
  seccomp : SeccompConfig := {}
  mmdsAddress : Option Ipv4Addr := none
  mmdsVersion : MMDSVersion := .v1
  snapshot : SnapshotConfig := {}

namespace Config

/-- `Config::has_snapshot`. -/
def hasSnapshot (cfg : Config) : Bool :=
  cfg.snapshot.getMemBackendPath.isSome || cfg.snapshot.snapshotPath.isSome

/-- `Config::validate_network`. -/
def validateNetwork (cfg : Config) : Except Error Unit :=
  cfg.networkInterfaces.validate (parseKernelArgs cfg.kernelArgs)

/-- `Config::root_drive_present`. -/
def rootDrivePresent (cfg : Config) : Bool :=
  cfg.initrdPath.isSome || cfg.drives.any fun drive => drive.isRootDevice == some true

/-- `Config::normalized_forward_signals`. -/
def normalizedForwardSignals (cfg : Config) : List ℤ :=
  cfg.forwardSignals.getD defaultForwardSignals

/-- The configuration without what preparing the network and the boot line writes: the
interfaces keep their order, their rate limits and whether they allow MMDS. -/
def devices (cfg : Config) : Config :=
  { cfg with
    networkInterfaces := cfg.networkInterfaces.map NetworkInterface.unconfigured
    netNs := none
    kernelArgs := "" }

end Config

/-! ### The command of a jailed machine -/

/-- `Path::join`: an absolute path replaces the base. -/
def pathJoin (base path : String) : String :=
  if path.toList.head? = some '/' then path
  else if base = "" || base.toList.getLast? = some '/' then base ++ path
  else base ++ "/" ++ path

/-- `Path::file_name`: the last component, unless there is none or it is `..`. -/
def fileName (path : String) : Option String :=
  let components := (Text.splitBy (· == '/') path.toList).filter fun component =>
    component ≠ [] && component ≠ ['.']
  match components.getLast? with
  | some component => if component = ['.', '.'] then none else some (String.ofList component)
  | none => none

/-- `DEFAULT_JAILER_PATH`. -/
def defaultJailerPath : String := "/srv/jailer"

/-- `DEFAULT_JAILER_BIN`. -/
def defaultJailerBin : String := "jailer"

/-- `ROOTFS_FOLDER_NAME`. -/
def rootfsFolderName : String := "root"

/-- `DEFAULT_SOCKET_PATH`. -/
def defaultSocketPath : String := "/run/firecracker.socket"

/-- `join_chroot_path`. -/
def joinChrootPath (rootfs socketPath : String) : String :=
  pathJoin rootfs (String.ofList (socketPath.toList.dropWhile (· == '/')))

/-- `jailer_rootfs`. -/
def jailerRootfs (jailerCfg : JailerConfig) : String :=
  pathJoin
    (pathJoin
      (pathJoin (jailerCfg.chrootBaseDir.getD defaultJailerPath)
        ((fileName jailerCfg.execFile).getD "firecracker"))
      jailerCfg.id)
    rootfsFolderName

/-- A flag with its value, when there is one. -/
def flagArgs (flag : String) : Option String → List String
  | some value => [flag, value]
  | none => []

/-- `JailerCommandBuilder::build` on the builder that `jail` fills from a jailer
configuration; `cpuset` is what the NUMA node's `cpulist` file says, empty when it
cannot be read. -/
def jailerCommand (jailerCfg : JailerConfig) (netns : Option String)
    (firecrackerArgs : List String) (cpuset : String) : VMCommand where
  bin := jailerCfg.jailerBinary.getD defaultJailerBin
  args :=
    ["--id", jailerCfg.id, "--uid", toString (jailerCfg.uid.getD 0), "--gid",
      toString (jailerCfg.gid.getD 0), "--exec-file", jailerCfg.execFile] ++
    (if cpuset = "" then []
      else ["--cgroup", "cpuset.mems=" ++ toString (jailerCfg.numaNode.getD 0), "--cgroup",
        "cpuset.cpus=" ++ cpuset]) ++
    jailerCfg.cgroupArgs.flatMap (fun arg => ["--cgroup", arg]) ++
    flagArgs "--cgroup-version" jailerCfg.cgroupVersion ++
    flagArgs "--parent-cgroup" jailerCfg.parentCgroup ++
    flagArgs "--chroot-base-dir" jailerCfg.chrootBaseDir ++
    flagArgs "--netns" netns ++
    (if jailerCfg.daemonize then ["--daemonize"] else []) ++
    (if firecrackerArgs = [] then [] else "--" :: firecrackerArgs)
  stdin := jailerCfg.stdin
  stdout := jailerCfg.stdout
  stderr := jailerCfg.stderr

end FirecrackerSdk
