import FirecrackerSdk.Config

/-!
# Handler lists

`handlers.rs` as data: a handler is a name and the function it runs, and the lists
of handlers that a start runs are edited by name. The functions are an enumeration
(`FirecrackerSdk.HandlerFn`); what each of them does to a machine is
`FirecrackerSdk.Machine.runHandler`. A handler written by the user is the constructor
`user`, which the environment answers for.
-/

namespace FirecrackerSdk

/-- The functions that the crate's handlers run, and those of the user. -/
inductive HandlerFn where
  | configValidation
  | loadSnapshotConfigValidation
  | jailerConfigValidation
  | networkConfigValidation
  | startVmm
  | createLogFiles
  | bootstrapLogging
  | createMachine
  | createBootSource
  | attachDrives
  | createNetworkInterfaces
  | addVsocks
  | setMetadata (metadata : String)
  | configMmds
  | setupNetwork
  | setupKernelArgs
  | loadSnapshot
  | linkFiles (kernelImageFileName : String)
  | user (tag : String)
  deriving DecidableEq

/-- `Handler`. -/
structure Handler where
  name : String
  func : HandlerFn
  deriving DecidableEq

/-! ### Names -/

/-- `START_VMM_HANDLER_NAME`. -/
def startVmmHandlerName : String := "fcinit.StartVMM"

/-- `BOOTSTRAP_LOGGING_HANDLER_NAME`. -/
def bootstrapLoggingHandlerName : String := "fcinit.BootstrapLogging"

/-- `CREATE_LOG_FILES_HANDLER_NAME`. -/
def createLogFilesHandlerName : String := "fcinit.CreateLogFilesHandler"

/-- `CREATE_MACHINE_HANDLER_NAME`. -/
def createMachineHandlerName : String := "fcinit.CreateMachine"

/-- `CREATE_BOOT_SOURCE_HANDLER_NAME`. -/
def createBootSourceHandlerName : String := "fcinit.CreateBootSource"

/-- `ATTACH_DRIVES_HANDLER_NAME`. -/
def attachDrivesHandlerName : String := "fcinit.AttachDrives"

/-- `CREATE_NETWORK_INTERFACES_HANDLER_NAME`. -/
def createNetworkInterfacesHandlerName : String := "fcinit.CreateNetworkInterfaces"

/-- `ADD_VSOCKS_HANDLER_NAME`. -/
def addVsocksHandlerName : String := "fcinit.AddVsocks"

/-- `NEW_SET_METADATA_HANDLER_NAME`. -/
def newSetMetadataHandlerName : String := "fcinit.SetMetadata"

/-- `CONFIG_MMDS_HANDLER_NAME`. -/
def configMmdsHandlerName : String := "fcinit.ConfigMmds"

/-- `LINK_FILES_TO_ROOTFS_HANDLER_NAME`. -/
def linkFilesToRootfsHandlerName : String := "fcinit.LinkFilesToRootFS"

/-- `SETUP_NETWORK_HANDLER_NAME`. -/
def setupNetworkHandlerName : String := "fcinit.SetupNetwork"

/-- `SETUP_KERNEL_ARGS_HANDLER_NAME`. -/
def setupKernelArgsHandlerName : String := "fcinit.SetupKernelArgs"

/-- `LOAD_SNAPSHOT_HANDLER_NAME`. -/
def loadSnapshotHandlerName : String := "fcinit.LoadSnapshot"

/-- `VALIDATE_CFG_HANDLER_NAME`. -/
def validateCfgHandlerName : String := "validate.Cfg"

/-- `VALIDATE_JAILER_CFG_HANDLER_NAME`. -/
def validateJailerCfgHandlerName : String := "validate.JailerCfg"

/-- `VALIDATE_NETWORK_CFG_HANDLER_NAME`. -/
def validateNetworkCfgHandlerName : String := "validate.NetworkCfg"

/-- `VALIDATE_LOAD_SNAPSHOT_CFG_HANDLER_NAME`. -/
def validateLoadSnapshotCfgHandlerName : String := "validate.LoadSnapshotCfg"

/-! ### The handlers of the crate -/

/-- `config_validation_handler`. -/
def configValidationHandler : Handler := ⟨validateCfgHandlerName, .configValidation⟩

/-- `load_snapshot_config_validation_handler`. -/
def loadSnapshotConfigValidationHandler : Handler :=
  ⟨validateLoadSnapshotCfgHandlerName, .loadSnapshotConfigValidation⟩

/-- `jailer_config_validation_handler`. -/
def jailerConfigValidationHandler : Handler :=
  ⟨validateJailerCfgHandlerName, .jailerConfigValidation⟩

/-- `network_config_validation_handler`. -/
def networkConfigValidationHandler : Handler :=
  ⟨validateNetworkCfgHandlerName, .networkConfigValidation⟩

/-- `start_vmm_handler`. -/
def startVmmHandler : Handler := ⟨startVmmHandlerName, .startVmm⟩

/-- `create_log_files_handler`. -/
def createLogFilesHandler : Handler := ⟨createLogFilesHandlerName, .createLogFiles⟩

/-- `bootstrap_logging_handler`. -/
def bootstrapLoggingHandler : Handler := ⟨bootstrapLoggingHandlerName, .bootstrapLogging⟩

/-- `create_machine_handler`. -/
def createMachineHandler : Handler := ⟨createMachineHandlerName, .createMachine⟩

/-- `create_boot_source_handler`. -/
def createBootSourceHandler : Handler := ⟨createBootSourceHandlerName, .createBootSource⟩

/-- `attach_drives_handler`. -/
def attachDrivesHandler : Handler := ⟨attachDrivesHandlerName, .attachDrives⟩

/-- `create_network_interfaces_handler`. -/
def createNetworkInterfacesHandler : Handler :=
  ⟨createNetworkInterfacesHandlerName, .createNetworkInterfaces⟩

/-- `add_vsocks_handler`. -/
def addVsocksHandler : Handler := ⟨addVsocksHandlerName, .addVsocks⟩

/-- `new_set_metadata_handler`. -/
def newSetMetadataHandler (metadata : String) : Handler :=
  ⟨newSetMetadataHandlerName, .setMetadata metadata⟩

/-- `config_mmds_handler`. -/
def configMmdsHandler : Handler := ⟨configMmdsHandlerName, .configMmds⟩

/-- `setup_network_handler`. -/
def setupNetworkHandler : Handler := ⟨setupNetworkHandlerName, .setupNetwork⟩

/-- `setup_kernel_args_handler`. -/
def setupKernelArgsHandler : Handler := ⟨setupKernelArgsHandlerName, .setupKernelArgs⟩

/-- `load_snapshot_handler`. -/
def loadSnapshotHandler : Handler := ⟨loadSnapshotHandlerName, .loadSnapshot⟩

/-- `link_files_handler`. -/
def linkFilesHandler (kernelImageFileName : String) : Handler :=
  ⟨linkFilesToRootfsHandlerName, .linkFiles kernelImageFileName⟩

/-! ### Editing lists by name -/

namespace HandlerList

/-- `HandlerList::append_after`: one copy behind every handler of that name. When
there is none the list stays as it was, which is what inserting nothing gives. -/
def appendAfter (afterName : String) (handler : Handler) (list : List Handler) : List Handler :=
  list.flatMap fun existing =>
    if existing.name = afterName then [existing, handler] else [existing]

/-- `HandlerList::has`. -/
def has (name : String) (list : List Handler) : Bool :=
  list.any fun handler => handler.name == name

/-- `HandlerList::remove`. -/
def remove (name : String) (list : List Handler) : List Handler :=
  list.filter fun handler => handler.name ≠ name

end HandlerList

/-- `Handlers`: what a start runs first to validate, then to initialise. -/
structure Handlers where
  validation : List Handler := []
  fcInit : List Handler := []
  deriving DecidableEq

/-- `default_handlers`. -/
def defaultHandlers : Handlers where
  validation := [networkConfigValidationHandler]
  fcInit :=
    [setupNetworkHandler, setupKernelArgsHandler, startVmmHandler, createLogFilesHandler,
      bootstrapLoggingHandler, createMachineHandler, createBootSourceHandler,
      attachDrivesHandler, createNetworkInterfacesHandler, addVsocksHandler, configMmdsHandler]

/-- The handlers that only a boot from a kernel needs. -/
def bootOnlyHandlerNames : List String :=
  [setupKernelArgsHandlerName, createMachineHandlerName, createBootSourceHandlerName,
    attachDrivesHandlerName, createNetworkInterfacesHandlerName, configMmdsHandlerName]

/-- `adapt_handlers_for_snapshot`. -/
def adaptHandlersForSnapshot (handlers : Handlers) : Handlers where
  validation :=
    HandlerList.remove validateLoadSnapshotCfgHandlerName
      (HandlerList.remove validateCfgHandlerName handlers.validation) ++
      [loadSnapshotConfigValidationHandler]
  fcInit :=
    HandlerList.remove loadSnapshotHandlerName
      (bootOnlyHandlerNames.foldl (fun list name => HandlerList.remove name list)
        handlers.fcInit) ++
      [loadSnapshotHandler]

/-- `NaiveChrootStrategy::adapt_handlers`. -/
def NaiveChrootStrategy.adaptHandlers (strategy : NaiveChrootStrategy) (handlers : Handlers) :
    Except Error Handlers :=
  if HandlerList.has createLogFilesHandlerName handlers.fcInit then
    .ok { handlers with
      fcInit := HandlerList.appendAfter createLogFilesHandlerName
        (linkFilesHandler ((fileName strategy.kernelImagePath).getD "vmlinux"))
        handlers.fcInit }
  else .error (.invalidConfig "required handler is missing from FcInit's list")

end FirecrackerSdk
