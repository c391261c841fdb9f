import FirecrackerSdk.Validation
import FirecrackerSdk.VmConf

/-!
# The boot parameter of an IP configuration

The guest gets its address from the boot parameter `ip`, a list of ten fields with colons between
them. Two functions write it, `IPConfiguration::ip_boot_param` from what the user or a CNI result
has set, and `StaticNetworkConf::ip_boot_param` from a CNI result. They give the same text, however
many nameservers there are: the one cuts the list after two, the other has two slots to fill.

The addresses and the netmask are made of digits and dots. The name of the interface and the
nameservers are any texts, and nothing looks whether they contain a colon themselves: an IPv6
nameserver makes fields of its own, and the ones after it are read from the wrong place.
-/

namespace FirecrackerSdk

/-! ### Texts without colons -/

/-- A text has no colon in it. -/
def NoColon (text : String) : Prop := ':' ∉ text.toList

theorem noColon_append {a b : String} (ha : NoColon a) (hb : NoColon b) : NoColon (a ++ b) := by
  rw [NoColon, String.toList_append, List.mem_append]
  exact fun h => h.elim ha hb

theorem noColon_toString (n : ℕ) : NoColon (toString n) := by
  rw [NoColon, Nat.toString_eq_ofList_toDigits, String.toList_ofList]
  intro hmem
  have hdigit := Nat.isDigit_of_mem_toDigits (by decide) (by decide) hmem
  revert hdigit
  decide

theorem noColon_dot : NoColon "." := by
  unfold NoColon
  decide

theorem noColon_dotted (a b c d : ℕ) :
    NoColon (toString a ++ "." ++ toString b ++ "." ++ toString c ++ "." ++ toString d) := by
  have hdot : ∀ {text : String} (n : ℕ), NoColon text → NoColon (text ++ "." ++ toString n) :=
    fun n h => noColon_append (noColon_append h noColon_dot) (noColon_toString n)
  exact hdot d (hdot c (hdot b (noColon_toString a)))

theorem Ipv4Addr.noColon_display (ip : Ipv4Addr) : NoColon ip.display :=
  noColon_dotted ip.a.toNat ip.b.toNat ip.c.toNat ip.d.toNat

theorem Ipv4Net.noColon_netmask (net : Ipv4Net) : NoColon net.netmask :=
  noColon_dotted _ _ _ _

/-! ### Reading the parameter back -/

/-- The fields of a boot parameter: the text between the colons. -/
def bootFields (param : String) : List (List Char) := Text.splitBy (· == ':') param.toList

/-- A text that is one field. -/
theorem splitBy_colon_eq_singleton {text : String} (h : NoColon text) :
    Text.splitBy (· == ':') text.toList = [text.toList] := by
  refine Text.splitBy_eq_singleton fun c hc => beq_eq_false_iff_ne.mpr ?_
  rintro rfl
  exact h hc

theorem noColon_of_countP {text : String} (h : text.toList.countP (· == ':') = 0) :
    NoColon text := fun hmem =>
  List.countP_eq_zero.mp h ':' hmem (beq_self_eq_true ':')

namespace IPConfiguration

/-- **The guest reads the configuration back**: there are ten fields, with the address, the
gateway, the netmask, the interface and the nameservers in their places, and nothing in the others
but `off`. -/
def ReadsBack (ip : IPConfiguration) : Prop :=
  ∃ server hostname autoconf ntp : String,
    (∀ field ∈ [server, hostname, autoconf, ntp], field = "" ∨ field = "off") ∧
    bootFields ip.ipBootParam =
      [ip.ipAddr.addr.display, server, ip.gateway.display, ip.ipAddr.netmask, hostname,
        ip.ifName.getD "", autoconf, ip.nameservers[0]?.getD "", ip.nameservers[1]?.getD "",
        ntp].map String.toList

/-- The fields that a configuration is written as, with those that its texts add. -/
theorem bootFields_ipBootParam (ip : IPConfiguration) :
    bootFields ip.ipBootParam =
      [ip.ipAddr.addr.display, "", ip.gateway.display, ip.ipAddr.netmask, "", ip.ifName.getD "",
        "off", ip.nameservers[0]?.getD "", ip.nameservers[1]?.getD "", ""].flatMap
        fun field => Text.splitBy (· == ':') field.toList := by
  rw [bootFields, ipBootParam, String.toList_intercalate]
  refine (Text.splitBy_intercalate (by decide) _ _).trans ?_
  rw [← List.map_cons, List.flatMap_map]

/-- A configuration with no colon in its texts is read back. -/
theorem readsBack_of_noColon {ip : IPConfiguration} (hifName : NoColon (ip.ifName.getD ""))
    (hfirst : NoColon (ip.nameservers[0]?.getD ""))
    (hsecond : NoColon (ip.nameservers[1]?.getD "")) : ip.ReadsBack := by
  have hempty : NoColon "" := List.not_mem_nil
  have hoff : NoColon "off" := by
    unfold NoColon
    decide
  refine ⟨"", "", "off", "", by simp, ?_⟩
  rw [bootFields_ipBootParam]
  simp only [List.flatMap_cons, List.flatMap_nil, List.map_cons, List.map_nil,
    splitBy_colon_eq_singleton (Ipv4Addr.noColon_display _),
    splitBy_colon_eq_singleton (Ipv4Net.noColon_netmask _), splitBy_colon_eq_singleton hempty,
    splitBy_colon_eq_singleton hoff, splitBy_colon_eq_singleton hifName,
    splitBy_colon_eq_singleton hfirst, splitBy_colon_eq_singleton hsecond]
  rfl

/-- A configuration that is read back has ten fields, so none of its texts adds one. -/
theorem ReadsBack.noColon {ip : IPConfiguration} (h : ip.ReadsBack) :
    NoColon (ip.ifName.getD "") ∧ NoColon (ip.nameservers[0]?.getD "") ∧
      NoColon (ip.nameservers[1]?.getD "") := by
  obtain ⟨server, hostname, autoconf, ntp, -, hfields⟩ := h
  have hlength := congrArg List.length hfields
  rw [bootFields_ipBootParam] at hlength
  simp only [List.flatMap_cons, List.flatMap_nil, List.length_append, Text.length_splitBy,
    List.length_nil, List.length_map, List.length_cons] at hlength
  refine ⟨noColon_of_countP ?_, noColon_of_countP ?_, noColon_of_countP ?_⟩ <;> omega

/-- **When the guest reads the configuration back**: exactly if the name of the interface and the
nameservers have no colon in them. -/
theorem boot_param_reads_back_iff (ip : IPConfiguration) (hvalid : ip.validate = .ok ()) :
    ip.ReadsBack ↔
      (∀ ifName, ip.ifName = some ifName → ':' ∉ ifName.toList) ∧
      ∀ nameserver ∈ ip.nameservers, ':' ∉ nameserver.toList := by
  have hempty : NoColon "" := List.not_mem_nil
  have hifName : NoColon (ip.ifName.getD "") ↔
      ∀ ifName, ip.ifName = some ifName → ':' ∉ ifName.toList := by
    cases ip.ifName with
    | none => exact iff_of_true hempty nofun
    | some ifName => simp [NoColon]
  -- the validation leaves no nameserver that has no field
  have hnameservers : NoColon (ip.nameservers[0]?.getD "") ∧ NoColon (ip.nameservers[1]?.getD "") ↔
      ∀ nameserver ∈ ip.nameservers, ':' ∉ nameserver.toList := by
    have hfew := validate_eq_ok_iff.mp hvalid
    generalize ip.nameservers = nameservers at hfew ⊢
    rcases nameservers with _ | ⟨first, _ | ⟨second, _ | ⟨third, rest⟩⟩⟩
    · simp [hempty]
    · simp [NoColon]
    · simp [NoColon]
    · simp at hfew
  rw [← hifName, ← hnameservers]
  constructor
  · exact fun h => h.noColon
  · rintro ⟨h, hfirst, hsecond⟩
    exact readsBack_of_noColon h hfirst hsecond

/-- A configuration with one nameserver. -/
def withNameserver (nameserver : String) : IPConfiguration where
  ipAddr := ⟨⟨10, 0, 0, 2⟩, Fin.last 32⟩
  gateway := ⟨10, 0, 0, 1⟩
  nameservers := [nameserver]
  ifName := some "eth0"

theorem boot_param_reads_back_ipv4 : (withNameserver "8.8.8.8").ReadsBack :=
  (boot_param_reads_back_iff (withNameserver "8.8.8.8") rfl).mpr (by decide)

/-- An IPv6 nameserver is accepted, and gives the parameter four fields more. -/
theorem boot_param_splits_ipv6 :
    (withNameserver "2001:4860:4860::8888").validate = .ok () ∧
      (bootFields (withNameserver "2001:4860:4860::8888").ipBootParam).length = 14 ∧
      ¬ (withNameserver "2001:4860:4860::8888").ReadsBack := by
  refine ⟨rfl, by decide +kernel, fun h => ?_⟩
  have hcolon := h.noColon.2.1
  revert hcolon
  unfold NoColon
  decide

end IPConfiguration

/-! ### The two encoders -/

/-- Two slots are filled with the first two nameservers. -/
theorem fillSlots_two (nameservers : List String) (i : ℕ) :
    (fillSlots ["", ""] nameservers)[i]?.getD "" = (nameservers.take 2)[i]?.getD "" := by
  rcases nameservers with _ | ⟨first, _ | ⟨second, rest⟩⟩
  · rcases i with _ | _ | i <;> rfl
  · rcases i with _ | _ | i <;> rfl
  · rcases i with _ | _ | i <;> rfl

/-- The IP configuration that `apply_cni_result` makes of an address in a CNI result. -/
def ipConfigurationOf (conf : StaticNetworkConf) (vmIfName : Option String) (ip : CniIpConfig) :
    IPConfiguration where
  ipAddr := ip.address
  gateway := ip.gateway
  nameservers := conf.vmNameservers.take 2
  ifName := vmIfName

theorem NetworkInterface.applyCniResult_eq {iface : NetworkInterface} {cni : CniConfiguration}
    {unprintable : Char → Bool} {result : CniResult} {containerId : String} {getLink : GetLink}
    {conf : StaticNetworkConf}
    (hstatic : iface.staticConfiguration = none) (hcni : iface.cniConfiguration = some cni)
    (hcontainer : cni.containerId = some containerId)
    (hconf : staticNetworkConfFrom result containerId getLink = .ok conf) :
    iface.applyCniResult unprintable result getLink =
      .ok { iface with
        staticConfiguration := some
          { hostDevName := conf.tapName
            macAddress := conf.vmMacAddr
            ipConfiguration := conf.vmIpConfig.map (ipConfigurationOf conf cni.vmIfName) } } := by
  unfold applyCniResult
  rw [hstatic, hcni]
  dsimp only [Option.isSome_none, Bool.false_eq_true, if_false]
  rw [hcontainer]
  dsimp only
  rw [hconf]
  rfl

/-- The same address, gateway, interface name and nameservers are encoded alike. -/
theorem ipBootParam_ipConfigurationOf {conf : StaticNetworkConf} {ip : CniIpConfig}
    (hip : conf.vmIpConfig = some ip) (vmIfName : Option String) :
    (ipConfigurationOf conf vmIfName ip).ipBootParam =
      { conf with vmIfName := vmIfName }.ipBootParam := by
  rw [StaticNetworkConf.ipBootParam]
  dsimp only
  rw [hip]
  dsimp only
  rw [fillSlots_two, fillSlots_two]
  rfl

/-- **The two encoders agree.** Where a CNI result gives a configuration, it can be applied to an
interface with a CNI configuration for the same container. The interface then has an IP
configuration that passes its validation, and the boot parameter of that is the one of the CNI
result under the interface name that was asked for. -/
theorem boot_params_agree {unprintable : Char → Bool} {result : CniResult} {containerId : String}
    {getLink : GetLink} {conf : StaticNetworkConf} {iface : NetworkInterface}
    {cni : CniConfiguration}
    (hconf : staticNetworkConfFrom result containerId getLink = .ok conf)
    (hstatic : iface.staticConfiguration = none) (hcni : iface.cniConfiguration = some cni)
    (hcontainer : cni.containerId = some containerId) :
    ∃ iface' config ip, iface.applyCniResult unprintable result getLink = .ok iface' ∧
      iface'.staticConfiguration = some config ∧ config.ipConfiguration = some ip ∧
      ip.ipBootParam = { conf with vmIfName := cni.vmIfName }.ipBootParam ∧
      ip.validate = .ok () := by
  obtain ⟨ip, hip⟩ : ∃ ip, conf.vmIpConfig = some ip := by
    obtain ⟨v, t, ip, link, -, -, -, rfl⟩ := staticNetworkConfFrom_eq_ok_iff.mp hconf
    exact ⟨ip, rfl⟩
  refine ⟨_, _, ipConfigurationOf conf cni.vmIfName ip,
    NetworkInterface.applyCniResult_eq hstatic hcni hcontainer hconf, rfl, ?_,
    ipBootParam_ipConfigurationOf hip cni.vmIfName, ?_⟩
  · rw [hip]
    rfl
  · exact IPConfiguration.validate_eq_ok_iff.mpr (List.length_take_le 2 _)

/-- A CNI result for the container `vm`, with three nameservers. -/
def sampleResult : CniResult where
  interfaces := [⟨"tap0", "", none⟩, ⟨"tap0", "vm", some "02:00:00:00:00:01"⟩]
  ips :=
    [⟨some 1, ⟨⟨10, 0, 0, 2⟩, Fin.last 32⟩, ⟨10, 0, 0, 1⟩⟩,
      ⟨some 7, ⟨⟨10, 0, 0, 9⟩, Fin.last 32⟩, ⟨10, 0, 0, 1⟩⟩]
  dns := { nameservers := ["8.8.8.8", "8.8.4.4", "1.1.1.1"] }

/-- An interface that CNI is to configure for the container `vm`. -/
def sampleInterface : NetworkInterface where
  cniConfiguration := some { vmIfName := some "eth0", containerId := some "vm" }

/-- What a lookup of its tap finds. -/
def sampleLink : GetLink := fun _ name => .ok ⟨name, none, 1500⟩

theorem boot_params_agree_sample :
    ∃ iface' config ip,
      sampleInterface.applyCniResult (fun _ => false) sampleResult sampleLink = .ok iface' ∧
      iface'.staticConfiguration = some config ∧ config.ipConfiguration = some ip ∧
      ip.ipBootParam = "10.0.0.2::10.0.0.1:255.255.255.255::eth0:off:8.8.8.8:8.8.4.4:" ∧
      ip.validate = .ok () := by
  have hconf : staticNetworkConfFrom sampleResult "vm" sampleLink =
      .ok (confOf sampleResult ⟨"tap0", "vm", some "02:00:00:00:00:01"⟩ ⟨"tap0", "", none⟩
        ⟨some 1, ⟨⟨10, 0, 0, 2⟩, Fin.last 32⟩, ⟨10, 0, 0, 1⟩⟩ ⟨"tap0", none, 1500⟩) := rfl
  obtain ⟨iface', config, ip, happly, hstatic, hip, hparam, hvalid⟩ :=
    @boot_params_agree _ _ _ _ _ sampleInterface _ hconf rfl rfl rfl
  refine ⟨iface', config, ip, happly, hstatic, hip, hparam.trans ?_, hvalid⟩
  decide +kernel

end FirecrackerSdk
