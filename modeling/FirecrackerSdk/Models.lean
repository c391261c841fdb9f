import Mathlib.Data.Int.Notation

/-!
# The records of the Firecracker API

The request bodies that the lifecycle of a machine sends, field by field as
`src/models` declares them, and the calls of `ClientOps` that carry them. A call is
data here: the model of the client is the environment, which answers each call as
it likes.
-/

namespace FirecrackerSdk

/-- `models::TokenBucket`. -/
structure TokenBucket where
  size : Option ℤ := none
  oneTimeBurst : Option ℤ := none
  refillTime : Option ℤ := none
  deriving DecidableEq

/-- `models::RateLimiter`. -/
structure RateLimiter where
  bandwidth : Option TokenBucket := none
  ops : Option TokenBucket := none
  deriving DecidableEq

/-- `models::Drive`. -/
structure Drive where
  driveId : Option String := none
  pathOnHost : Option String := none
  isRootDevice : Option Bool := none
  isReadOnly : Option Bool := none
  partuuid : Option String := none
  rateLimiter : Option RateLimiter := none
  cacheType : Option String := none
  ioEngine : Option String := none
  deriving DecidableEq

/-- `models::MachineConfiguration`. -/
structure MachineConfiguration where
  vcpuCount : Option ℤ := none
  memSizeMib : Option ℤ := none
  smt : Option Bool := none
  trackDirtyPages : Option Bool := none
  cpuTemplate : Option String := none
  deriving DecidableEq

/-- `models::BootSource`. -/
structure BootSource where
  kernelImagePath : Option String := none
  initrdPath : Option String := none
  bootArgs : Option String := none
  deriving DecidableEq

/-- `models::Logger`. -/
structure Logger where
  logPath : Option String := none
  level : Option String := none
  showLevel : Option Bool := none
  showLogOrigin : Option Bool := none
  deriving DecidableEq

/-- `models::Metrics`. -/
structure Metrics where
  metricsPath : Option String := none
  deriving DecidableEq

/-- `models::NetworkInterfaceModel`. -/
structure NetworkInterfaceModel where
  ifaceId : Option String := none
  guestMac : Option String := none
  hostDevName : Option String := none
  rxRateLimiter : Option RateLimiter := none
  txRateLimiter : Option RateLimiter := none
  deriving DecidableEq

/-- `models::VsockModel`. -/
structure VsockModel where
  vsockId : Option String := none
  guestCid : Option ℤ := none
  udsPath : Option String := none
  deriving DecidableEq

/-- `models::MmdsConfig`. -/
structure MmdsConfig where
  ipv4Address : Option String := none
  networkInterfaces : List String := []
  version : Option String := none
  deriving DecidableEq

/-- `models::MemoryBackend`. -/
structure MemoryBackend where
  backendType : Option String := none
  backendPath : Option String := none
  deriving DecidableEq

/-- `models::SnapshotLoadParams`. -/
structure SnapshotLoadParams where
  memFilePath : Option String := none
  memBackend : Option MemoryBackend := none
  snapshotPath : Option String := none
  enableDiffSnapshots : Bool := false
  resumeVm : Bool := false
  deriving DecidableEq

/-- `models::InstanceActionInfo`. -/
structure InstanceActionInfo where
  actionType : Option String := none
  deriving DecidableEq

/-- `INSTANCE_ACTION_INSTANCE_START`. -/
def instanceActionInstanceStart : String := "InstanceStart"

/-- The calls of `ClientOps` that starting a machine can make. The metadata of
`put_mmds` is the serialised JSON value. -/
inductive ClientCall where
  | getMachineConfiguration
  | putLogger (logger : Logger)
  | putMetrics (metrics : Metrics)
  | putMachineConfiguration (config : MachineConfiguration)
  | putGuestBootSource (bootSource : BootSource)
  | putGuestDriveById (driveId : String) (drive : Drive)
  | putGuestNetworkInterfaceById (ifaceId : String) (iface : NetworkInterfaceModel)
  | putGuestVsock (vsock : VsockModel)
  | putMmds (metadata : String)
  | putMmdsConfig (config : MmdsConfig)
  | loadSnapshot (snapshot : SnapshotLoadParams)
  | createSyncAction (action : InstanceActionInfo)
  deriving DecidableEq

end FirecrackerSdk
