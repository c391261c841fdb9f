import FirecrackerSdk.Models
import FirecrackerSdk.Serde

/-!
# The models on the wire

The tables of fields of the models that the client sends and receives, and with them how each is
written and read (`…codec`).

`BalloonStats` and `InstanceInfo` collect the entries that they have no field for
(`#[serde(flatten)]`). What is collected is written between the other fields, so that an entry of
the name of a field is in the way; `FirecrackerSdk.InstanceInfo.read_back_iff` says when such a
record is read back, and that a record that was read always is.
-/

namespace FirecrackerSdk

/-! ### More models -/

/-- `models::PartialDrive`. -/
structure PartialDrive where
  driveId : Option String := none
  pathOnHost : Option String := none
  deriving DecidableEq

/-- `models::EntropyDevice`. -/
structure EntropyDevice where
  rateLimiter : Option RateLimiter := none
  deriving DecidableEq

/-- `models::PartialNetworkInterface`. -/
structure PartialNetworkInterface where
  ifaceId : Option String := none
  rxRateLimiter : Option RateLimiter := none
  txRateLimiter : Option RateLimiter := none
  deriving DecidableEq

/-- `models::Vm`. -/
structure Vm where
  state : Option String := none
  deriving DecidableEq

/-- `models::SnapshotCreateParams`. -/
structure SnapshotCreateParams where
  memFilePath : Option String := none
  snapshotPath : Option String := none
  deriving DecidableEq

/-- `models::FirecrackerVersion`. -/
structure FirecrackerVersion where
  firecrackerVersion : String := ""
  deriving DecidableEq

/-- `models::Balloon`. -/
structure Balloon where
  amountMib : Option Int64 := none
  deflateOnOom : Option Bool := none
  statsPollingIntervals : Int64 := 0
  deriving DecidableEq

/-- `models::BalloonUpdate`. -/
structure BalloonUpdate where
  amountMib : Option Int64 := none
  deriving DecidableEq

/-- `models::BalloonStatsUpdate`. -/
structure BalloonStatsUpdate where
  statsPollingIntervals : Option Int64 := none
  deriving DecidableEq

/-- `models::FullVmConfiguration`. -/
structure FullVmConfiguration where
  balloon : Option Balloon := none
  drives : List Drive := []
  bootSource : Option BootSource := none
  logger : Option Logger := none
  machineConfig : Option MachineConfiguration := none
  metrics : Option Metrics := none
  mmdsConfig : Option MmdsConfig := none
  networkInterfaces : List NetworkInterfaceModel := []
  vsock : Option VsockModel := none
  deriving DecidableEq

/-- `models::BalloonStats`. -/
structure BalloonStats where
  raw : List (String × JsonValue) := []

/-- `models::InstanceInfo`. -/
structure InstanceInfo where
  appName : Option String := none
  id : Option String := none
  state : Option String := none
  vmmVersion : Option String := none
  raw : List (String × JsonValue) := []

/-! ### Records with fields only -/

open FirecrackerSdk.Field (optional defaulted unlessEmpty)

/-- The fields of `TokenBucket`. -/
def TokenBucket.table : Table TokenBucket where
  fields :=
    [optional "size" .i64 (·.size) fun a x => { x with size := a },
      optional "one_time_burst" .i64 (·.oneTimeBurst) fun a x => { x with oneTimeBurst := a },
      optional "refill_time" .i64 (·.refillTime) fun a x => { x with refillTime := a }]
  blank := {}
  complete := ⟨by decide, fun x => by cases x; rfl⟩

/-- `TokenBucket`. -/
def TokenBucket.codec : Codec TokenBucket := TokenBucket.table.codec

/-- The fields of `RateLimiter`. -/
def RateLimiter.table : Table RateLimiter where
  fields :=
    [optional "bandwidth" TokenBucket.codec (·.bandwidth) fun a x => { x with bandwidth := a },
      optional "ops" TokenBucket.codec (·.ops) fun a x => { x with ops := a }]
  blank := {}
  complete := ⟨by decide, fun x => by cases x; rfl⟩

/-- `RateLimiter`. -/
def RateLimiter.codec : Codec RateLimiter := RateLimiter.table.codec

/-- The fields of `Drive`. -/
def Drive.table : Table Drive where
  fields :=
    [optional "drive_id" .string (·.driveId) fun a x => { x with driveId := a },
      optional "path_on_host" .string (·.pathOnHost) fun a x => { x with pathOnHost := a },
      optional "is_root_device" .bool (·.isRootDevice) fun a x => { x with isRootDevice := a },
      optional "is_read_only" .bool (·.isReadOnly) fun a x => { x with isReadOnly := a },
      optional "partuuid" .string (·.partuuid) fun a x => { x with partuuid := a },
      optional "rate_limiter" RateLimiter.codec (·.rateLimiter)
        fun a x => { x with rateLimiter := a },
      optional "cache_type" .string (·.cacheType) fun a x => { x with cacheType := a },
      optional "io_engine" .string (·.ioEngine) fun a x => { x with ioEngine := a }]
  blank := {}
  complete := ⟨by decide, fun x => by cases x; rfl⟩

/-- `Drive`. -/
def Drive.codec : Codec Drive := Drive.table.codec

/-- The fields of `PartialDrive`. -/
def PartialDrive.table : Table PartialDrive where
  fields :=
    [optional "drive_id" .string (·.driveId) fun a x => { x with driveId := a },
      optional "path_on_host" .string (·.pathOnHost) fun a x => { x with pathOnHost := a }]
  blank := {}
  complete := ⟨by decide, fun x => by cases x; rfl⟩

/-- `PartialDrive`. -/
def PartialDrive.codec : Codec PartialDrive := PartialDrive.table.codec

/-- The fields of `MachineConfiguration`. -/
def MachineConfiguration.table : Table MachineConfiguration where
  fields :=
    [optional "vcpu_count" .i64 (·.vcpuCount) fun a x => { x with vcpuCount := a },
      optional "mem_size_mib" .i64 (·.memSizeMib) fun a x => { x with memSizeMib := a },
      optional "smt" .bool (·.smt) fun a x => { x with smt := a },
      optional "track_dirty_pages" .bool (·.trackDirtyPages)
        fun a x => { x with trackDirtyPages := a },
      optional "cpu_template" .string (·.cpuTemplate) fun a x => { x with cpuTemplate := a }]
  blank := {}
  complete := ⟨by decide, fun x => by cases x; rfl⟩

/-- `MachineConfiguration`. -/
def MachineConfiguration.codec : Codec MachineConfiguration := MachineConfiguration.table.codec

/-- The fields of `BootSource`. -/
def BootSource.table : Table BootSource where
  fields :=
    [optional "kernel_image_path" .string (·.kernelImagePath)
        fun a x => { x with kernelImagePath := a },
      optional "initrd_path" .string (·.initrdPath) fun a x => { x with initrdPath := a },
      optional "boot_args" .string (·.bootArgs) fun a x => { x with bootArgs := a }]
  blank := {}
  complete := ⟨by decide, fun x => by cases x; rfl⟩

/-- `BootSource`. -/
def BootSource.codec : Codec BootSource := BootSource.table.codec

/-- The fields of `Logger`. -/
def Logger.table : Table Logger where
  fields :=
    [optional "log_path" .string (·.logPath) fun a x => { x with logPath := a },
      optional "level" .string (·.level) fun a x => { x with level := a },
      optional "show_level" .bool (·.showLevel) fun a x => { x with showLevel := a },
      optional "show_log_origin" .bool (·.showLogOrigin) fun a x => { x with showLogOrigin := a }]
  blank := {}
  complete := ⟨by decide, fun x => by cases x; rfl⟩

/-- `Logger`. -/
def Logger.codec : Codec Logger := Logger.table.codec

/-- The fields of `Metrics`. -/
def Metrics.table : Table Metrics where
  fields :=
    [optional "metrics_path" .string (·.metricsPath) fun a x => { x with metricsPath := a }]
  blank := {}
  complete := ⟨by decide, fun x => by cases x; rfl⟩

/-- `Metrics`. -/
def Metrics.codec : Codec Metrics := Metrics.table.codec

/-- The fields of `EntropyDevice`. -/
def EntropyDevice.table : Table EntropyDevice where
  fields :=
    [optional "rate_limiter" RateLimiter.codec (·.rateLimiter)
        fun a x => { x with rateLimiter := a }]
  blank := {}
  complete := ⟨by decide, fun x => by cases x; rfl⟩

/-- `EntropyDevice`. -/
def EntropyDevice.codec : Codec EntropyDevice := EntropyDevice.table.codec

/-- The fields of `NetworkInterfaceModel`. -/
def NetworkInterfaceModel.table : Table NetworkInterfaceModel where
  fields :=
    [optional "iface_id" .string (·.ifaceId) fun a x => { x with ifaceId := a },
      optional "guest_mac" .string (·.guestMac) fun a x => { x with guestMac := a },
      optional "host_dev_name" .string (·.hostDevName) fun a x => { x with hostDevName := a },
      optional "rx_rate_limiter" RateLimiter.codec (·.rxRateLimiter)
        fun a x => { x with rxRateLimiter := a },
      optional "tx_rate_limiter" RateLimiter.codec (·.txRateLimiter)
        fun a x => { x with txRateLimiter := a }]
  blank := {}
  complete := ⟨by decide, fun x => by cases x; rfl⟩

/-- `NetworkInterfaceModel`. -/
def NetworkInterfaceModel.codec : Codec NetworkInterfaceModel := NetworkInterfaceModel.table.codec

/-- The fields of `PartialNetworkInterface`. -/
def PartialNetworkInterface.table : Table PartialNetworkInterface where
  fields :=
    [optional "iface_id" .string (·.ifaceId) fun a x => { x with ifaceId := a },
      optional "rx_rate_limiter" RateLimiter.codec (·.rxRateLimiter)
        fun a x => { x with rxRateLimiter := a },
      optional "tx_rate_limiter" RateLimiter.codec (·.txRateLimiter)
        fun a x => { x with txRateLimiter := a }]
  blank := {}
  complete := ⟨by decide, fun x => by cases x; rfl⟩

/-- `PartialNetworkInterface`. -/
def PartialNetworkInterface.codec : Codec PartialNetworkInterface :=
  PartialNetworkInterface.table.codec

/-- The fields of `VsockModel`. -/
def VsockModel.table : Table VsockModel where
  fields :=
    [optional "vsock_id" .string (·.vsockId) fun a x => { x with vsockId := a },
      optional "guest_cid" .i64 (·.guestCid) fun a x => { x with guestCid := a },
      optional "uds_path" .string (·.udsPath) fun a x => { x with udsPath := a }]
  blank := {}
  complete := ⟨by decide, fun x => by cases x; rfl⟩

/-- `VsockModel`. -/
def VsockModel.codec : Codec VsockModel := VsockModel.table.codec

/-- The fields of `MmdsConfig`. -/
def MmdsConfig.table : Table MmdsConfig where
  fields :=
    [optional "ipv4_address" .string (·.ipv4Address) fun a x => { x with ipv4Address := a },
      defaulted "network_interfaces" [] (.vec .string) (·.networkInterfaces)
        fun a x => { x with networkInterfaces := a },
      optional "version" .string (·.version) fun a x => { x with version := a }]
  blank := {}
  complete := ⟨by decide, fun x => by cases x; rfl⟩

/-- `MmdsConfig`. -/
def MmdsConfig.codec : Codec MmdsConfig := MmdsConfig.table.codec

/-- The fields of `Vm`. -/
def Vm.table : Table Vm where
  fields :=
    [optional "state" .string (·.state) fun a x => { x with state := a }]
  blank := {}
  complete := ⟨by decide, fun x => by cases x; rfl⟩

/-- `Vm`. -/
def Vm.codec : Codec Vm := Vm.table.codec

/-- The fields of `MemoryBackend`. -/
def MemoryBackend.table : Table MemoryBackend where
  fields :=
    [optional "backend_type" .string (·.backendType) fun a x => { x with backendType := a },
      optional "backend_path" .string (·.backendPath) fun a x => { x with backendPath := a }]
  blank := {}
  complete := ⟨by decide, fun x => by cases x; rfl⟩

/-- `MemoryBackend`. -/
def MemoryBackend.codec : Codec MemoryBackend := MemoryBackend.table.codec

/-- The fields of `SnapshotCreateParams`. -/
def SnapshotCreateParams.table : Table SnapshotCreateParams where
  fields :=
    [optional "mem_file_path" .string (·.memFilePath) fun a x => { x with memFilePath := a },
      optional "snapshot_path" .string (·.snapshotPath) fun a x => { x with snapshotPath := a }]
  blank := {}
  complete := ⟨by decide, fun x => by cases x; rfl⟩

/-- `SnapshotCreateParams`. -/
def SnapshotCreateParams.codec : Codec SnapshotCreateParams := SnapshotCreateParams.table.codec

/-- The fields of `SnapshotLoadParams`. -/
def SnapshotLoadParams.table : Table SnapshotLoadParams where
  fields :=
    [optional "mem_file_path" .string (·.memFilePath) fun a x => { x with memFilePath := a },
      optional "mem_backend" MemoryBackend.codec (·.memBackend)
        fun a x => { x with memBackend := a },
      optional "snapshot_path" .string (·.snapshotPath) fun a x => { x with snapshotPath := a },
      Field.required "enable_diff_snapshots" .bool (·.enableDiffSnapshots)
        fun a x => { x with enableDiffSnapshots := a },
      Field.required "resume_vm" .bool (·.resumeVm) fun a x => { x with resumeVm := a }]
  blank := {}
  complete := ⟨by decide, fun x => by cases x; rfl⟩

/-- `SnapshotLoadParams`. -/
def SnapshotLoadParams.codec : Codec SnapshotLoadParams := SnapshotLoadParams.table.codec

/-- The fields of `InstanceActionInfo`. -/
def InstanceActionInfo.table : Table InstanceActionInfo where
  fields :=
    [optional "action_type" .string (·.actionType) fun a x => { x with actionType := a }]
  blank := {}
  complete := ⟨by decide, fun x => by cases x; rfl⟩

/-- `InstanceActionInfo`. -/
def InstanceActionInfo.codec : Codec InstanceActionInfo := InstanceActionInfo.table.codec

/-- The fields of `Balloon`. -/
def Balloon.table : Table Balloon where
  fields :=
    [optional "amount_mib" .int64 (·.amountMib) fun a x => { x with amountMib := a },
      optional "deflate_on_oom" .bool (·.deflateOnOom) fun a x => { x with deflateOnOom := a },
      defaulted "stats_polling_intervals" 0 .int64 (·.statsPollingIntervals)
        fun a x => { x with statsPollingIntervals := a }]
  blank := {}
  complete := ⟨by decide, fun x => by cases x; rfl⟩

/-- `Balloon`. -/
def Balloon.codec : Codec Balloon := Balloon.table.codec

/-- The fields of `BalloonUpdate`. -/
def BalloonUpdate.table : Table BalloonUpdate where
  fields :=
    [optional "amount_mib" .int64 (·.amountMib) fun a x => { x with amountMib := a }]
  blank := {}
  complete := ⟨by decide, fun x => by cases x; rfl⟩

/-- `BalloonUpdate`. -/
def BalloonUpdate.codec : Codec BalloonUpdate := BalloonUpdate.table.codec

/-- The fields of `BalloonStatsUpdate`. -/
def BalloonStatsUpdate.table : Table BalloonStatsUpdate where
  fields :=
    [optional "stats_polling_intervals" .int64 (·.statsPollingIntervals)
        fun a x => { x with statsPollingIntervals := a }]
  blank := {}
  complete := ⟨by decide, fun x => by cases x; rfl⟩

/-- `BalloonStatsUpdate`. -/
def BalloonStatsUpdate.codec : Codec BalloonStatsUpdate := BalloonStatsUpdate.table.codec

/-- The fields of `FirecrackerVersion`. -/
def FirecrackerVersion.table : Table FirecrackerVersion where
  fields :=
    [Field.required "firecracker_version" .string (·.firecrackerVersion)
        fun a x => { x with firecrackerVersion := a }]
  blank := {}
  complete := ⟨by decide, fun x => by cases x; rfl⟩

/-- `FirecrackerVersion`. -/
def FirecrackerVersion.codec : Codec FirecrackerVersion := FirecrackerVersion.table.codec

/-- The fields of `FullVmConfiguration`. -/
def FullVmConfiguration.table : Table FullVmConfiguration where
  fields :=
    [optional "balloon" Balloon.codec (·.balloon) fun a x => { x with balloon := a },
      unlessEmpty "drives" Drive.codec (·.drives) fun a x => { x with drives := a },
      optional "boot-source" BootSource.codec (·.bootSource) fun a x => { x with bootSource := a },
      optional "logger" Logger.codec (·.logger) fun a x => { x with logger := a },
      optional "machine-config" MachineConfiguration.codec (·.machineConfig)
        fun a x => { x with machineConfig := a },
      optional "metrics" Metrics.codec (·.metrics) fun a x => { x with metrics := a },
      optional "mmds-config" MmdsConfig.codec (·.mmdsConfig) fun a x => { x with mmdsConfig := a },
      unlessEmpty "network-interfaces" NetworkInterfaceModel.codec (·.networkInterfaces)
        fun a x => { x with networkInterfaces := a },
      optional "vsock" VsockModel.codec (·.vsock) fun a x => { x with vsock := a }]
  blank := {}
  complete := ⟨by decide, fun x => by cases x; rfl⟩

/-- `FullVmConfiguration`. -/
def FullVmConfiguration.codec : Codec FullVmConfiguration := FullVmConfiguration.table.codec

/-- The records that have fields only. -/
inductive Model where
  | tokenBucket
  | rateLimiter
  | drive
  | partialDrive
  | machineConfiguration
  | bootSource
  | logger
  | metrics
  | entropyDevice
  | networkInterfaceModel
  | partialNetworkInterface
  | vsockModel
  | mmdsConfig
  | vm
  | memoryBackend
  | snapshotCreateParams
  | snapshotLoadParams
  | instanceActionInfo
  | balloon
  | balloonUpdate
  | balloonStatsUpdate
  | firecrackerVersion
  | fullVmConfiguration
  deriving DecidableEq

/-- The type of a record. -/
def Model.type : Model → Type
  | tokenBucket => TokenBucket
  | rateLimiter => RateLimiter
  | drive => Drive
  | partialDrive => PartialDrive
  | machineConfiguration => MachineConfiguration
  | bootSource => BootSource
  | logger => Logger
  | metrics => Metrics
  | entropyDevice => EntropyDevice
  | networkInterfaceModel => NetworkInterfaceModel
  | partialNetworkInterface => PartialNetworkInterface
  | vsockModel => VsockModel
  | mmdsConfig => MmdsConfig
  | vm => Vm
  | memoryBackend => MemoryBackend
  | snapshotCreateParams => SnapshotCreateParams
  | snapshotLoadParams => SnapshotLoadParams
  | instanceActionInfo => InstanceActionInfo
  | balloon => Balloon
  | balloonUpdate => BalloonUpdate
  | balloonStatsUpdate => BalloonStatsUpdate
  | firecrackerVersion => FirecrackerVersion
  | fullVmConfiguration => FullVmConfiguration

/-- The fields of a record. -/
def Model.table : (model : Model) → Table model.type
  | tokenBucket => TokenBucket.table
  | rateLimiter => RateLimiter.table
  | drive => Drive.table
  | partialDrive => PartialDrive.table
  | machineConfiguration => MachineConfiguration.table
  | bootSource => BootSource.table
  | logger => Logger.table
  | metrics => Metrics.table
  | entropyDevice => EntropyDevice.table
  | networkInterfaceModel => NetworkInterfaceModel.table
  | partialNetworkInterface => PartialNetworkInterface.table
  | vsockModel => VsockModel.table
  | mmdsConfig => MmdsConfig.table
  | vm => Vm.table
  | memoryBackend => MemoryBackend.table
  | snapshotCreateParams => SnapshotCreateParams.table
  | snapshotLoadParams => SnapshotLoadParams.table
  | instanceActionInfo => InstanceActionInfo.table
  | balloon => Balloon.table
  | balloonUpdate => BalloonUpdate.table
  | balloonStatsUpdate => BalloonStatsUpdate.table
  | firecrackerVersion => FirecrackerVersion.table
  | fullVmConfiguration => FullVmConfiguration.table

/-- **How a model is read**: from its fields in whatever order and with whatever other fields among
them, and never if one of its fields occurs twice. `models::Error`, which the client reads nothing
into, is not among the models. -/
theorem models_read_back (model : Model) :
    (∀ (x : model.type) (entries others : List (String × JsonValue)),
      Record.Valid model.table.fields x → (∀ entry ∈ others, entry.1 ∉ model.table.names) →
      entries.Perm (Record.encode model.table.fields x ++ others) →
      model.table.codec.fromValue (.object entries) = some x) ∧
    ∀ (name : String) (entries : List (String × JsonValue)), name ∈ model.table.names →
      2 ≤ (entries.filter fun entry => entry.1 = name).length →
      model.table.codec.fromValue (.object entries) = none := by
  constructor
  · intro x entries others hvalid hothers hperm
    exact Record.decode_of_perm model.table.complete.nodup (model.table.complete.rebuild x) hvalid
      hothers hperm
  · intro name entries hname htwice
    exact Record.decode_of_twice hname htwice model.table.blank

/-- The configuration of the MMDS in another order, with a field that it does not have, and with a
field that occurs twice. -/
theorem models_read_back_mmds :
    MmdsConfig.codec.fromValue (.object [("version", .string "V2"), ("mode", .null),
        ("network_interfaces", .array [.string "1", .string "2"])]) =
      some { networkInterfaces := ["1", "2"], version := some "V2" } ∧
    MmdsConfig.codec.fromValue (.object [("version", .string "V2"),
        ("network_interfaces", .array []), ("version", .string "V2")]) = none := by
  have hvalid : Record.Valid MmdsConfig.table.fields
      ({ networkInterfaces := ["1", "2"], version := some "V2" } : MmdsConfig) := by
    intro field hfield
    simp only [MmdsConfig.table, List.mem_cons, List.not_mem_nil, or_false] at hfield
    rcases hfield with rfl | rfl | rfl <;> exact fun _ _ => trivial
  have hothers : ∀ entry ∈ [("mode", JsonValue.null)], entry.1 ∉ MmdsConfig.table.names := by
    intro entry hentry
    obtain rfl := List.mem_singleton.mp hentry
    decide
  have hperm : ∀ l l' : List (String × JsonValue), (l ++ l').Perm (l' ++ l) :=
    fun _ _ => List.perm_append_comm
  constructor
  · exact (models_read_back .mmdsConfig).1 _ _ _ hvalid hothers
      (hperm [("version", .string "V2"), ("mode", .null)] _)
  · exact (models_read_back .mmdsConfig).2 "version" _ (by decide) (by decide)

/-! ### Records that collect -/

/-- The fields of `InstanceInfo`, and its map. -/
def InstanceInfo.flattened : Flattened InstanceInfo where
  fields := [optional "app_name" .string (·.appName) fun a x => { x with appName := a },
    optional "id" .string (·.id) fun a x => { x with id := a },
    optional "state" .string (·.state) fun a x => { x with state := a },
    optional "vmm_version" .string (·.vmmVersion) fun a x => { x with vmmVersion := a }]
  raw := (·.raw)
  blank raw := { raw := raw }
  nodup := by decide
  rebuild x := by cases x; rfl
  raw_blank _ := rfl
  raw_set field hfield := by
    intro a x
    simp only [List.mem_cons, List.not_mem_nil, or_false] at hfield
    rcases hfield with rfl | rfl | rfl | rfl <;> rfl

/-- `InstanceInfo`. -/
def InstanceInfo.codec : Codec InstanceInfo := InstanceInfo.flattened.codec

/-- `BalloonStats` has no other fields. -/
def BalloonStats.flattened : Flattened BalloonStats where
  fields := []
  raw := (·.raw)
  blank raw := { raw := raw }
  nodup := List.nodup_nil
  rebuild _ := rfl
  raw_blank _ := rfl
  raw_set _ h := absurd h List.not_mem_nil

/-- `BalloonStats`. -/
def BalloonStats.codec : Codec BalloonStats := BalloonStats.flattened.codec

/-- **When what an instance says of itself is read back**: exactly if nothing that was collected has
the name of a field. So it is with all that was read before. -/
theorem InstanceInfo.read_back_iff (info : InstanceInfo) :
    (InstanceInfo.codec.fromValue (InstanceInfo.codec.toValue info) = some info ↔
      JsonValue.IsMap info.raw ∧ InstanceInfo.flattened.Apart info) ∧
    ∀ value, InstanceInfo.codec.fromValue value = some info →
      InstanceInfo.codec.fromValue (InstanceInfo.codec.toValue info) = some info := by
  have hvalid : Record.Valid InstanceInfo.flattened.fields info := by
    intro field hfield
    simp only [InstanceInfo.flattened, List.mem_cons, List.not_mem_nil, or_false] at hfield
    rcases hfield with rfl | rfl | rfl | rfl <;> exact fun _ _ => trivial
  have hiff : InstanceInfo.codec.fromValue (InstanceInfo.codec.toValue info) = some info ↔
      JsonValue.IsMap info.raw ∧ InstanceInfo.flattened.Apart info := by
    constructor
    · intro h
      have hread : InstanceInfo.flattened.fromValue (InstanceInfo.codec.toValue info) =
          some info := h
      exact InstanceInfo.flattened.apart_of_fromValue hread
    · rintro ⟨hmap, hapart⟩
      exact (InstanceInfo.flattened.fromValue_toValue_iff hvalid hmap).mpr hapart
  refine ⟨hiff, fun value h => hiff.mpr ?_⟩
  have hread : InstanceInfo.flattened.fromValue value = some info := h
  exact InstanceInfo.flattened.apart_of_fromValue hread

end FirecrackerSdk
