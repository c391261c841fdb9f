import FirecrackerSdk.Cni
import FirecrackerSdk.KernelArgs
import FirecrackerSdk.Models

/-!
# Network interfaces

`network.rs` without its system calls: the interfaces of a configuration, how they
are validated, and how a CNI result turns a CNI interface into one with a static
configuration.
-/

namespace FirecrackerSdk

/-- `DEFAULT_CNI_BIN_DIR`. -/
def defaultCniBinDir : String := "/opt/cni/bin"

/-- `DEFAULT_CNI_CONF_DIR`. -/
def defaultCniConfDir : String := "/etc/cni/conf.d"

/-- `DEFAULT_CNI_CACHE_DIR`. -/
def defaultCniCacheDir : String := "/var/lib/cni"

/-! ### IP configurations -/

/-- `IPConfiguration`. -/
structure IPConfiguration where
  ipAddr : Ipv4Net
  gateway : Ipv4Addr
  nameservers : List String := []
  ifName : Option String := none
  deriving DecidableEq

/-- `IPConfiguration::validate`. -/
def IPConfiguration.validate (ip : IPConfiguration) : Except Error Unit :=
  if ip.nameservers.length > 2 then
    .error (.invalidConfig "cannot specify more than 2 nameservers")
  else .ok ()

/-- `IPConfiguration::ip_boot_param`. -/
def IPConfiguration.ipBootParam (ip : IPConfiguration) : String :=
  ":".intercalate
    [ip.ipAddr.addr.display, "", ip.gateway.display, ip.ipAddr.netmask, "",
      ip.ifName.getD "", "off", ip.nameservers[0]?.getD "", ip.nameservers[1]?.getD "", ""]

/-! ### Static and CNI configurations -/

/-- `StaticNetworkConfiguration`. -/
structure StaticNetworkConfiguration where
  macAddress : Option String := none
  hostDevName : String := ""
  ipConfiguration : Option IPConfiguration := none
  deriving DecidableEq

/-- `StaticNetworkConfiguration::validate`. -/
def StaticNetworkConfiguration.validate (config : StaticNetworkConfiguration) :
    Except Error Unit :=
  if config.hostDevName = "" then
    .error (.invalidConfig
      "HostDevName must be provided if StaticNetworkConfiguration is provided")
  else match config.ipConfiguration with
    | some ip => ip.validate
    | none => .ok ()

/-- `CniConfiguration`. -/
structure CniConfiguration where
  networkName : Option String := none
  networkConfig : Option String := none
  ifName : Option String := none
  vmIfName : Option String := none
  args : List (String × String) := []
  binPath : List String := []
  confDir : Option String := none
  cacheDir : Option String := none
  containerId : Option String := none
  netNsPath : Option String := none
  force : Bool := false
  deriving DecidableEq

/-- `CniConfiguration::validate`. -/
def CniConfiguration.validate (config : CniConfiguration) : Except Error Unit :=
  match config.networkName, config.networkConfig with
  | none, none =>
    .error (.invalidConfig "must specify either NetworkName or NetworkConfig in CNIConfiguration")
  | some _, some _ =>
    .error (.invalidConfig
      "must not specify both NetworkName and NetworkConfig in CNIConfiguration")
  | _, _ => .ok ()

/-- `CniConfiguration::set_defaults`. -/
def CniConfiguration.setDefaults (config : CniConfiguration) : CniConfiguration :=
  { config with
    binPath := if config.binPath = [] then [defaultCniBinDir] else config.binPath
    confDir := some (config.confDir.getD defaultCniConfDir)
    cacheDir := some (config.cacheDir.getD
      (defaultCniCacheDir ++ "/" ++ config.containerId.getD "")) }

/-! ### Interfaces -/

/-- `NetworkInterface`. -/
structure NetworkInterface where
  staticConfiguration : Option StaticNetworkConfiguration := none
  cniConfiguration : Option CniConfiguration := none
  allowMmds : Bool := false
  inRateLimiter : Option RateLimiter := none
  outRateLimiter : Option RateLimiter := none
  deriving DecidableEq

namespace NetworkInterface

/-- The interface without its configurations, static or CNI. -/
def unconfigured (iface : NetworkInterface) : NetworkInterface :=
  { iface with staticConfiguration := none, cniConfiguration := none }

/-- Whether an interface carries a static IP configuration. -/
def hasStaticIp (iface : NetworkInterface) : Bool :=
  (iface.staticConfiguration.bind (·.ipConfiguration)).isSome

/-- The check that `NetworkInterfaces::validate` makes of one interface, in a list
of `count` of them. -/
def validateIn (count : ℕ) (kernelArgs : KernelArgs) (iface : NetworkInterface) :
    Except Error Unit := do
  let hasCni := iface.cniConfiguration.isSome
  let hasStatic := iface.staticConfiguration.isSome
  if !hasCni && !hasStatic then
    throw (.invalidConfig "must specify at least one of CNIConfiguration or StaticConfiguration")
  if hasCni && hasStatic then
    throw (.invalidConfig "cannot provide both CNIConfiguration and StaticConfiguration")
  if hasCni || iface.hasStaticIp then
    if count > 1 then
      throw (.invalidConfig ("cannot specify CNIConfiguration or IPConfiguration when " ++
        "multiple network interfaces are provided"))
    if kernelArgs.containsKey "ip" then
      throw (.invalidConfig ("CNIConfiguration or IPConfiguration cannot be specified when " ++
        "\"ip=\" is already present in kernel boot args"))
  match iface.cniConfiguration with
  | some cni => cni.validate
  | none => pure ()
  match iface.staticConfiguration with
  | some config => config.validate
  | none => pure ()

/-- `NetworkInterface::apply_cni_result`. -/
def applyCniResult (iface : NetworkInterface) (unprintable : Char → Bool) (result : CniResult)
    (getLink : GetLink) : Except Error NetworkInterface :=
  if iface.staticConfiguration.isSome then .ok iface
  else match iface.cniConfiguration with
    | none => .error (.invalidConfig "missing CNIConfiguration")
    | some cni =>
      match cni.containerId with
      | none => .error (.invalidConfig "missing CNI container id")
      | some containerId =>
        match staticNetworkConfFrom result containerId getLink with
        | .error error => .error (.invalidConfig (error.display unprintable))
        | .ok conf =>
          .ok { iface with
            staticConfiguration := some
              { hostDevName := conf.tapName
                macAddress := conf.vmMacAddr
                ipConfiguration := conf.vmIpConfig.map fun ip =>
                  { ipAddr := ip.address
                    gateway := ip.gateway
                    nameservers := conf.vmNameservers.take 2
                    ifName := cni.vmIfName } } }

end NetworkInterface

/-- `NetworkInterfaces`. -/
abbrev NetworkInterfaces : Type := List NetworkInterface

namespace NetworkInterfaces

/-- `NetworkInterfaces::validate`. -/
def validate (ifaces : NetworkInterfaces) (kernelArgs : KernelArgs) : Except Error Unit :=
  ifaces.forM (NetworkInterface.validateIn ifaces.length kernelArgs)

/-- `NetworkInterfaces::cni_interface`. -/
def cniInterface (ifaces : NetworkInterfaces) : Option NetworkInterface :=
  ifaces.find? fun iface => iface.cniConfiguration.isSome

/-- `NetworkInterfaces::static_ip_interface`. -/
def staticIpInterface (ifaces : NetworkInterfaces) : Option NetworkInterface :=
  ifaces.find? NetworkInterface.hasStaticIp

/-- Update the interface that `cni_interface_mut` borrows: the first one with a CNI
configuration. -/
def modifyCniInterface (f : NetworkInterface → NetworkInterface) :
    NetworkInterfaces → NetworkInterfaces
  | [] => []
  | iface :: rest =>
    if iface.cniConfiguration.isSome then f iface :: rest
    else iface :: modifyCniInterface f rest

end NetworkInterfaces

end FirecrackerSdk
