import FirecrackerSdk.Error

/-!
# CNI results, and the network configuration read off them

`cni/mod.rs`, `cni/internal/cniutil.rs` and `cni/vmconf/vmconf.rs`: the result of a
CNI invocation, the search in it for the pair of interfaces that belong to the
virtual machine – one inside the sandbox named after it, one tap of the same name
outside – and the static configuration assembled from that pair. The netlink lookup
is a parameter.
-/

namespace FirecrackerSdk

/-! ### Addresses -/

/-- `std::net::Ipv4Addr`: its four octets. -/
structure Ipv4Addr where
  a : UInt8
  b : UInt8
  c : UInt8
  d : UInt8
  deriving DecidableEq

/-- `Display for Ipv4Addr`. -/
def Ipv4Addr.display (ip : Ipv4Addr) : String :=
  toString ip.a ++ "." ++ toString ip.b ++ "." ++ toString ip.c ++ "." ++ toString ip.d

/-- `ipnet::Ipv4Net`: an address and a prefix length of at most 32. -/
structure Ipv4Net where
  addr : Ipv4Addr
  prefixLen : Fin 33
  deriving DecidableEq

/-- The octet of a netmask of which the first `n` bits, at most eight, are set. -/
def maskOctet (n : ℕ) : ℕ := 256 - 2 ^ (8 - min n 8)

/-- `netmask().octets()` as the source formats it: four dotted numbers. -/
def Ipv4Net.netmask (net : Ipv4Net) : String :=
  let n := net.prefixLen.val
  toString (maskOctet n) ++ "." ++ toString (maskOctet (n - 8)) ++ "." ++
    toString (maskOctet (n - 16)) ++ "." ++ toString (maskOctet (n - 24))

/-- `Display for Ipv4Net`. -/
def Ipv4Net.display (net : Ipv4Net) : String :=
  net.addr.display ++ "/" ++ toString net.prefixLen.val

/-! ### Results -/

/-- `cni::CniInterface`. -/
structure CniInterface where
  name : String := ""
  sandbox : String := ""
  mac : Option String := none
  deriving DecidableEq

/-- `cni::CniIpConfig`. -/
structure CniIpConfig where
  interface : Option ℕ
  address : Ipv4Net
  gateway : Ipv4Addr
  deriving DecidableEq

/-- `cni::CniRoute`. -/
structure CniRoute where
  dst : Ipv4Net
  gw : Ipv4Addr
  deriving DecidableEq

/-- `cni::CniDnsConfig`. -/
structure CniDnsConfig where
  nameservers : List String := []
  domain : Option String := none
  search : List String := []
  options : List String := []
  deriving DecidableEq

/-- `cni::CniResult`. -/
structure CniResult where
  interfaces : List CniInterface := []
  ips : List CniIpConfig := []
  routes : List CniRoute := []
  dns : CniDnsConfig := {}
  deriving DecidableEq

/-- `cni::internal::Link`. -/
structure Link where
  name : String
  macAddress : Option String
  mtu : ℤ
  deriving DecidableEq

/-- `NetlinkOps::get_link`: from a namespace path and a device name, the link, or
the device that was not found. -/
abbrev GetLink : Type := String → String → Except String Link

/-! ### The interfaces of a virtual machine -/

/-- `CniUtilError`, with `LinkNotFoundError` flattened into its device. -/
inductive CniUtilError where
  | multipleInterfacesInSandbox (sandbox : String) (count : ℕ)
  | multipleInterfacesWithName (name : String) (count : ℕ)
  | linkNotFound (device : String)
  deriving DecidableEq

/-- `Display for LinkNotFoundError`. -/
def displayLinkNotFound (unprintable : Char → Bool) (device : String) : String :=
  "did not find expected link on device " ++ Text.debugStr unprintable device

/-- `Display for CniUtilError`. -/
def CniUtilError.display (unprintable : Char → Bool) : CniUtilError → String
  | .multipleInterfacesInSandbox sandbox count =>
    "expected to find at most 1 interface in sandbox " ++ Text.debugStr unprintable sandbox ++
      ", but instead found " ++ toString count
  | .multipleInterfacesWithName name count =>
    "expected to find at most 1 interface with name " ++ Text.debugStr unprintable name ++
      ", but instead found " ++ toString count
  | .linkNotFound device => displayLinkNotFound unprintable device

/-- `interface_ips`: the addresses whose index points at an interface of that name
and sandbox. -/
def interfaceIps (result : CniResult) (ifaceName sandbox : String) : List CniIpConfig :=
  result.ips.filter fun ipConfig =>
    match ipConfig.interface.bind fun index => result.interfaces[index]? with
    | some iface => iface.name == ifaceName && iface.sandbox == sandbox
    | none => false

/-- `filter_by_sandbox`: the interfaces inside and outside a sandbox. -/
def filterBySandbox (sandbox : String) (ifaces : List CniInterface) :
    List CniInterface × List CniInterface :=
  ifaces.partition fun iface => iface.sandbox == sandbox

/-- `ifaces_with_name`. -/
def ifacesWithName (name : String) (ifaces : List CniInterface) : List CniInterface :=
  ifaces.filter fun iface => iface.name == name

/-- `vm_tap_pair`. -/
def vmTapPair (result : CniResult) (vmId : String) :
    Except CniUtilError (CniInterface × CniInterface) :=
  let (vmIfaces, otherIfaces) := filterBySandbox vmId result.interfaces
  if vmIfaces.length > 1 then
    .error (.multipleInterfacesInSandbox vmId vmIfaces.length)
  else match vmIfaces with
    | [] => .error (.linkNotFound ("pseudo-device for " ++ vmId))
    | vmIface :: _ =>
      let tapIfaces := ifacesWithName vmIface.name otherIfaces
      if tapIfaces.length > 1 then
        .error (.multipleInterfacesWithName vmIface.name tapIfaces.length)
      else match tapIfaces with
        | [] => .error (.linkNotFound vmIface.name)
        | tapIface :: _ => .ok (vmIface, tapIface)

/-! ### The static configuration -/

/-- `vmconf::StaticNetworkConf`. -/
structure StaticNetworkConf where
  tapName : String := ""
  netnsPath : String := ""
  vmIfName : Option String := none
  vmMacAddr : Option String := none
  vmMtu : ℤ := 0
  vmIpConfig : Option CniIpConfig := none
  vmRoutes : List CniRoute := []
  vmNameservers : List String := []
  vmDomain : Option String := none
  vmSearchDomains : List String := []
  vmResolverOptions : List String := []
  deriving DecidableEq

/-- The loop of `ip_boot_param` that writes nameservers into slots, as far as there are both. -/
def fillSlots : List String → List String → List String
  | _ :: slots, nameserver :: nameservers => nameserver :: fillSlots slots nameservers
  | slots, _ => slots

/-- `StaticNetworkConf::ip_boot_param`. -/
def StaticNetworkConf.ipBootParam (conf : StaticNetworkConf) : String :=
  match conf.vmIpConfig with
  | none => ""
  | some ip =>
    let nameservers := fillSlots ["", ""] conf.vmNameservers
    ":".intercalate
      [ip.address.addr.display, "", ip.gateway.display, ip.address.netmask, "",
        conf.vmIfName.getD "", "off", nameservers[0]?.getD "", nameservers[1]?.getD "", ""]

/-- `vmconf::VmConfError`. -/
inductive VmConfError where
  | cniUtil (error : CniUtilError)
  | unexpectedVmIpCount (ifaceName : String) (ips : List CniIpConfig)
  | linkLookup (ifaceName netnsPath device : String)
  deriving DecidableEq

/-- An address entry as the format `{:?}` shows it. -/
def CniIpConfig.debug (ip : CniIpConfig) : String :=
  let index := match ip.interface with
    | some n => "Some(" ++ toString n ++ ")"
    | none => "None"
  "CniIpConfig \x7b interface: " ++ index ++ ", address: " ++ ip.address.display ++
    ", gateway: " ++ ip.gateway.display ++ " \x7d"

/-- `Display for VmConfError`. -/
def VmConfError.display (unprintable : Char → Bool) : VmConfError → String
  | .cniUtil error => error.display unprintable
  | .unexpectedVmIpCount ifaceName ips =>
    "expected to find 1 IP for vm interface " ++ Text.debugStr unprintable ifaceName ++
      ", but instead found [" ++ ", ".intercalate (ips.map CniIpConfig.debug) ++ "]"
  | .linkLookup ifaceName netnsPath device =>
    "failed to find device " ++ Text.debugStr unprintable ifaceName ++ " in netns " ++
      Text.debugStr unprintable netnsPath ++ ": " ++ displayLinkNotFound unprintable device

/-- `mtu_of`. -/
def mtuOf (ifaceName netnsPath : String) (getLink : GetLink) : Except VmConfError ℤ :=
  match getLink netnsPath ifaceName with
  | .ok link => .ok link.mtu
  | .error device => .error (.linkLookup ifaceName netnsPath device)

/-- `static_network_conf_from`. -/
def staticNetworkConfFrom (result : CniResult) (containerId : String) (getLink : GetLink) :
    Except VmConfError StaticNetworkConf :=
  match vmTapPair result containerId with
  | .error error => .error (.cniUtil error)
  | .ok (vmIface, tapIface) =>
    match interfaceIps result vmIface.name vmIface.sandbox with
    | [vmIp] =>
      match mtuOf tapIface.name tapIface.sandbox getLink with
      | .error error => .error error
      | .ok tapMtu =>
        .ok { tapName := tapIface.name
              netnsPath := tapIface.sandbox
              vmMacAddr := vmIface.mac
              vmMtu := tapMtu
              vmIpConfig := some vmIp
              vmRoutes := result.routes
              vmNameservers := result.dns.nameservers
              vmDomain := result.dns.domain
              vmSearchDomains := result.dns.search
              vmResolverOptions := result.dns.options }
    | vmIps => .error (.unexpectedVmIpCount vmIface.name vmIps)

end FirecrackerSdk
