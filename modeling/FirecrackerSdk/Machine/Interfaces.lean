import FirecrackerSdk.Machine.NetworkSetup
import FirecrackerSdk.Validation

/-!
# What validation promises to the network setup

Three later steps rely on what `NetworkInterfaces::validate` has checked before anything ran:
`create_network_interface` expects every interface to have a static configuration,
`setup_kernel_args` looks at the first interface with an IP configuration only, and it inserts
the parameter `ip` into the boot line without looking whether there is one.

The validation looks at interfaces that CNI has not touched yet. An interface of a list that passes
has one of the two configurations, and one that has or will get an IP configuration is the only
one, with no `ip` in the boot line (`FirecrackerSdk.NetworkInterface.Valid`). So a list that passes
has no CNI interface at all, or only one interface
(`FirecrackerSdk.NetworkInterfaces.valid_cases`), and this is what the setup keeps
(`FirecrackerSdk.setup_network_keeps_promises`).
-/

namespace FirecrackerSdk

open Prog

/-! ### Validation -/

namespace NetworkInterface

/-- **A valid interface**, in a list of `count` of them and beside a boot line. -/
structure Valid (count : ℕ) (kernelArgs : KernelArgs) (iface : NetworkInterface) : Prop where
  one : iface.staticConfiguration.isSome = !iface.cniConfiguration.isSome
  alone : iface.cniConfiguration.isSome = true ∨ iface.hasStaticIp = true →
    count ≤ 1 ∧ kernelArgs.containsKey "ip" = false

/-- A CNI result that can be applied leaves a static configuration. -/
theorem isSome_of_applyCniResult {iface iface' : NetworkInterface} {result : CniResult}
    {unprintable : Char → Bool} {getLink : GetLink}
    (h : iface.applyCniResult unprintable result getLink = .ok iface') :
    iface'.staticConfiguration.isSome = true := by
  unfold applyCniResult at h
  split at h
  · rename_i hsome
    cases h
    exact hsome
  · split at h
    · cases h
    · split at h
      · cases h
      · split at h
        · cases h
        · cases h
          rfl

end NetworkInterface

namespace NetworkInterfaces

/-- A validation that returns has checked every interface. -/
theorem valid_of_validate {ifaces : NetworkInterfaces} {kernelArgs : KernelArgs}
    (h : ifaces.validate kernelArgs = .ok ()) :
    ∀ iface ∈ ifaces, iface.Valid ifaces.length kernelArgs := by
  intro iface hmem
  obtain ⟨hcomplete, halone⟩ := validate_eq_ok_iff.mp h
  refine ⟨?_, fun htakes => ?_⟩
  · have hone := (hcomplete iface hmem).one
    revert hone
    cases iface.staticConfiguration <;> cases iface.cniConfiguration <;> simp
  · obtain ⟨hlength, hargs⟩ := halone ⟨iface, hmem, htakes⟩
    exact ⟨hlength.le, hargs⟩

/-- **What the steps after the network setup rely on**: every interface has a static
configuration, and if one has an IP configuration, it is the only interface, with no `ip` in the
boot line. -/
structure Ready (kernelArgs : KernelArgs) (ifaces : NetworkInterfaces) : Prop where
  static : ∀ iface ∈ ifaces, iface.staticConfiguration.isSome = true
  alone : ∀ iface ∈ ifaces, iface.hasStaticIp = true →
    ifaces.length ≤ 1 ∧ kernelArgs.containsKey "ip" = false

/-- **A validated list is ready, or it is one interface for CNI** and there is no `ip` in the boot
line. -/
theorem valid_cases {ifaces : NetworkInterfaces} {kernelArgs : KernelArgs}
    (h : ifaces.validate kernelArgs = .ok ()) :
    (ifaces.cniInterface = none ∧ Ready kernelArgs ifaces) ∨
    ∃ iface cni, ifaces = [iface] ∧ iface.cniConfiguration = some cni ∧
      kernelArgs.containsKey "ip" = false := by
  have hvalid := valid_of_validate h
  cases hcni : ifaces.cniInterface with
  | none =>
    have hnone := List.find?_eq_none.mp hcni
    refine .inl ⟨rfl, fun iface hmem => ?_, fun iface hmem hip => ?_⟩
    · rw [(hvalid iface hmem).one, Bool.not_eq_true']
      exact Bool.eq_false_iff.mpr (hnone iface hmem)
    · exact (hvalid iface hmem).alone (.inr hip)
  | some iface =>
    have hmem : iface ∈ ifaces := List.mem_of_find?_eq_some hcni
    have hsome : iface.cniConfiguration.isSome = true := by simpa using List.find?_some hcni
    obtain ⟨hcount, hargs⟩ := (hvalid iface hmem).alone (.inl hsome)
    obtain ⟨cni, hiface⟩ := Option.isSome_iff_exists.mp hsome
    refine .inr ⟨iface, cni, ?_, hiface, hargs⟩
    -- one interface at most, and this is one
    cases ifaces with
    | nil => exact absurd hmem List.not_mem_nil
    | cons first rest =>
      rw [List.length_cons] at hcount
      have hrest : rest = [] := List.length_eq_zero_iff.mp (by omega)
      rw [hrest, List.mem_singleton] at hmem
      rw [hrest, hmem]

end NetworkInterfaces

/-! ### The setup -/

namespace Machine

variable {W : Type} (env : Env W)

/-- The machine is as it was. -/
def SameMachine (s s' : Sys W) : Prop := s'.machine = s.machine

instance : Std.Refl (SameMachine (W := W)) := ⟨fun _ => rfl⟩

instance : IsTrans (Sys W) SameMachine := ⟨fun _ _ _ h h' => Eq.trans h' h⟩

theorem machine_of_within {α : Type} {x : Op W α} (hx : Within SameMachine x) {s s' : Sys W}
    {o : Outcome Error α} (h : x s = (o, s')) : s'.machine = s.machine := by
  have hsame := hx s
  rw [h] at hsame
  exact hsame

theorem sameMachine_ask {α : Type} (query : Query α) : Within SameMachine (Op.ask env query) :=
  fun _ => rfl

theorem sameMachine_acquire : ∀ tags : List String, Within SameMachine (acquire tags : Op W _)
  | [] => within_pure []
  | tag :: tags => by
    refine within_bind (fun _ => rfl) fun cleanup => ?_
    refine within_bind (fun _ => rfl) fun _ => ?_
    exact within_bind (sameMachine_acquire tags) fun cleanups => within_pure _

/-- **CNI gives the first CNI interface a static configuration**, and changes nothing else. -/
theorem invokeCniFor_ok {netNsPath : String} {cni : CniConfiguration} {iface : NetworkInterface}
    {s s' : Sys W} {cleanups : List CleanupFn}
    (h : invokeCniFor env netNsPath cni iface s = (.ok cleanups, s')) :
    ∃ config, s'.machine.cfg = { s.machine.cfg with
      networkInterfaces := s.machine.cfg.networkInterfaces.modifyCniInterface fun current =>
        { current with staticConfiguration := some config } } := by
  obtain ⟨_, s₁, h₁, h⟩ := bind_eq_ok.mp h
  obtain ⟨tags, s₂, h₂, h⟩ := bind_eq_ok.mp h
  obtain ⟨xs, s₃, h₃, h⟩ := bind_eq_ok.mp h
  obtain ⟨_, s₄, h₄, h⟩ := bind_eq_ok.mp h
  obtain ⟨added, s₅, h₅, h⟩ := bind_eq_ok.mp h
  obtain ⟨ys, s₆, h₆, h⟩ := bind_eq_ok.mp h
  obtain ⟨getLink, s₇, h₇, h⟩ := bind_eq_ok.mp h
  obtain ⟨iface', s₈, h₈, h⟩ := bind_eq_ok.mp h
  -- the machine is not touched before the result is applied
  have hmachine : s₈.machine = s.machine := by
    rw [machine_of_within (within_ofExcept _) h₈, machine_of_within (sameMachine_ask env _) h₇,
      machine_of_within (sameMachine_acquire _) h₆, machine_of_within (within_ofExcept _) h₅,
      machine_of_within (sameMachine_ask env _) h₄, machine_of_within (sameMachine_acquire _) h₃,
      machine_of_within (within_ofExcept _) h₂, machine_of_within (sameMachine_ask env _) h₁]
  have happly : iface.applyCniResult env.unprintable added.1 getLink = .ok iface' := by
    rw [ofExcept_fst] at h₈
    cases hresult : iface.applyCniResult env.unprintable added.1 getLink with
    | error e =>
      rw [hresult] at h₈
      cases h₈
    | ok result =>
      rw [hresult] at h₈
      cases h₈
      rfl
  obtain ⟨config, hconfig⟩ :=
    Option.isSome_iff_exists.mp (NetworkInterface.isSome_of_applyCniResult happly)
  obtain ⟨_, s₉, h₉, h⟩ := bind_eq_ok.mp h
  cases h
  refine ⟨config, ?_⟩
  rw [hconfig] at h₉
  cases h₉
  dsimp only
  rw [hmachine]

/-- **CNI makes one interface ready.** -/
theorem setupCni_single {iface : NetworkInterface} {cni : CniConfiguration}
    {vmId netNsPath : String} {s s' : Sys W} {cleanups : List CleanupFn}
    (h : setupCni env vmId netNsPath s = (.ok cleanups, s'))
    (hifaces : s.machine.cfg.networkInterfaces = [iface])
    (hcni : iface.cniConfiguration = some cni) :
    s'.machine.cfg.kernelArgs = s.machine.cfg.kernelArgs ∧
      ∃ iface', s'.machine.cfg.networkInterfaces = [iface'] ∧
        iface'.staticConfiguration.isSome = true := by
  have hmodify : ∀ f, NetworkInterfaces.modifyCniInterface f [iface] = [f iface] := by
    intro f
    rw [NetworkInterfaces.modifyCniInterface, hcni]
    rfl
  -- the interface that CNI configures is the only one
  have hfirst : s.machine.cfg.networkInterfaces.cniInterface = some iface := by
    rw [hifaces]
    simp [NetworkInterfaces.cniInterface, hcni]
  unfold setupCni at h
  rw [Op.cfg_bind, hfirst] at h
  dsimp only at h
  rw [hcni] at h
  dsimp only at h
  rw [updateInterfaces, Op.update_bind] at h
  obtain ⟨config, hcfg⟩ := invokeCniFor_ok env h
  rw [hcfg]
  dsimp only
  rw [hifaces, hmodify]
  exact ⟨rfl, _, rfl, rfl⟩

/-- **The network setup makes one interface for CNI ready**, and leaves the boot line alone. -/
theorem setupNetwork_single {iface : NetworkInterface} {cni : CniConfiguration} {s s' : Sys W}
    (hifaces : s.machine.cfg.networkInterfaces = [iface]) (hcni : iface.cniConfiguration = some cni)
    (h : setupNetwork env s = (.ok (), s')) :
    s'.machine.cfg.kernelArgs = s.machine.cfg.kernelArgs ∧
      ∃ iface', s'.machine.cfg.networkInterfaces = [iface'] ∧
        iface'.staticConfiguration.isSome = true := by
  have hfirst : s.machine.cfg.networkInterfaces.cniInterface.isNone = false := by
    rw [hifaces]
    simp [NetworkInterfaces.cniInterface, hcni]
  unfold setupNetwork at h
  rw [Op.cfg_bind, hfirst, if_neg Bool.false_ne_true, Op.update_bind] at h
  obtain ⟨cleanups, s₁, hsetup, h⟩ := bind_eq_ok.mp h
  have hready := setupCni_single env hsetup hifaces hcni
  cases h
  exact hready

/-- A machine without an interface for CNI has no network to set up. -/
theorem setupNetwork_of_none {s : Sys W}
    (h : s.machine.cfg.networkInterfaces.cniInterface = none) :
    setupNetwork env s = (.ok (), s) := by
  unfold setupNetwork
  rw [Op.cfg_bind, h]
  rfl

/-- **After the network setup the interfaces are ready.** -/
theorem setupNetwork_ready {s s' : Sys W} (hvalid : s.machine.cfg.validateNetwork = .ok ())
    (h : setupNetwork env s = (.ok (), s')) :
    s'.machine.cfg.kernelArgs = s.machine.cfg.kernelArgs ∧
      NetworkInterfaces.Ready (parseKernelArgs s.machine.cfg.kernelArgs)
        s'.machine.cfg.networkInterfaces := by
  obtain ⟨hnone, hready⟩ | ⟨iface, cni, hifaces, hcni, hargs⟩ :=
    NetworkInterfaces.valid_cases hvalid
  · rw [setupNetwork_of_none env hnone] at h
    cases h
    exact ⟨rfl, hready⟩
  · obtain ⟨hkernel, iface', hifaces', hstatic⟩ := setupNetwork_single env hifaces hcni h
    refine ⟨hkernel, ?_, ?_⟩
    · rw [hifaces']
      intro i hi
      rw [List.mem_singleton.mp hi]
      exact hstatic
    · intro i hi hip
      rw [hifaces']
      exact ⟨le_rfl, hargs⟩

/-! ### What the later steps make of it -/

/-- With a static configuration, an interface is sent to the VMM. -/
theorem createNetworkInterface_of_static {iface : NetworkInterface}
    (h : iface.staticConfiguration.isSome = true) (index : ℕ) :
    ∃ config, iface.staticConfiguration = some config ∧
      createNetworkInterface env iface index = Op.call env
        (.putGuestNetworkInterfaceById (toString index) (interfaceModel iface config index)) := by
  obtain ⟨config, hconfig⟩ := Option.isSome_iff_exists.mp h
  refine ⟨config, hconfig, ?_⟩
  rw [createNetworkInterface, hconfig]

/-- The boot line gets the IP configuration of the interface that has one. -/
theorem kernelArgsFor_of_ready {cfg : Config} {iface : NetworkInterface}
    {config : StaticNetworkConfiguration} {ip : IPConfiguration}
    (hready : NetworkInterfaces.Ready (parseKernelArgs cfg.kernelArgs) cfg.networkInterfaces)
    (hmem : iface ∈ cfg.networkInterfaces) (hconfig : iface.staticConfiguration = some config)
    (hip : config.ipConfiguration = some ip) :
    kernelArgsFor cfg =
      ((parseKernelArgs cfg.kernelArgs).insert "ip" (some ip.ipBootParam)).display := by
  have hhas : iface.hasStaticIp = true := by
    rw [NetworkInterface.hasStaticIp, hconfig, Option.bind_some, hip]
    rfl
  have hone := (hready.alone iface hmem hhas).1
  -- it is the first one because it is the only one
  have hlist : cfg.networkInterfaces = [iface] := by
    cases hifaces : cfg.networkInterfaces with
    | nil =>
      rw [hifaces] at hmem
      exact absurd hmem List.not_mem_nil
    | cons first rest =>
      rw [hifaces, List.length_cons] at hone
      have hrest : rest = [] := List.length_eq_zero_iff.mp (by omega)
      rw [hifaces, hrest, List.mem_singleton] at hmem
      rw [hrest, hmem]
  unfold kernelArgsFor
  rw [hlist, NetworkInterfaces.staticIpInterface, List.find?_cons_of_pos hhas]
  dsimp only
  rw [hconfig, Option.bind_some, hip]

end Machine

variable {W : Type} (env : Env W)

/-- **A validated network stays sound through its setup.** Whatever CNI and netlink answer, if the
setup of a validated network returns:

* every interface has a static configuration, so that each is sent to the VMM;
* at most one interface has an IP configuration;
* if one has, there was no `ip` in the boot line, and preparing the boot line adds the one of this
  interface to what the user supplied, of which everything stays. -/
theorem setup_network_keeps_promises {s s' : Sys W}
    (hvalid : s.machine.cfg.validateNetwork = .ok ())
    (hrun : Machine.setupNetwork env s = (.ok (), s')) :
    (∀ iface ∈ s'.machine.cfg.networkInterfaces, ∀ index,
      ∃ config, iface.staticConfiguration = some config ∧
        Machine.createNetworkInterface env iface index = Op.call env
          (.putGuestNetworkInterfaceById (toString index)
            (Machine.interfaceModel iface config index))) ∧
    (s'.machine.cfg.networkInterfaces.filter (·.hasStaticIp)).length ≤ 1 ∧
    ∀ iface ∈ s'.machine.cfg.networkInterfaces, ∀ config ip,
      iface.staticConfiguration = some config → config.ipConfiguration = some ip →
      (parseKernelArgs s.machine.cfg.kernelArgs).containsKey "ip" = false ∧
      ∃ kernelArgs : KernelArgs,
        (Machine.setupKernelArgs s').2.machine.cfg.kernelArgs = kernelArgs.display ∧
        kernelArgs.entries.Perm
          (("ip", some ip.ipBootParam) :: (parseKernelArgs s.machine.cfg.kernelArgs).entries) := by
  obtain ⟨hkernel, hready⟩ := Machine.setupNetwork_ready env hvalid hrun
  refine ⟨fun iface hmem index => ?_, ?_, fun iface hmem config ip hconfig hip => ?_⟩
  · exact Machine.createNetworkInterface_of_static env (hready.static iface hmem) index
  · cases hfilter : s'.machine.cfg.networkInterfaces.filter (·.hasStaticIp) with
    | nil => exact Nat.zero_le 1
    | cons iface rest =>
      -- one of them is enough for there to be one interface only
      have hmem : iface ∈ s'.machine.cfg.networkInterfaces.filter (·.hasStaticIp) := by
        rw [hfilter]
        exact List.mem_cons_self
      rw [← hfilter]
      have hone := (hready.alone iface (List.mem_filter.mp hmem).1 (List.mem_filter.mp hmem).2).1
      exact (List.length_filter_le _ _).trans hone
  · have hhas : iface.hasStaticIp = true := by
      rw [NetworkInterface.hasStaticIp, hconfig, Option.bind_some, hip]
      rfl
    have hargs := (hready.alone iface hmem hhas).2
    refine ⟨hargs, (parseKernelArgs s.machine.cfg.kernelArgs).insert "ip" (some ip.ipBootParam),
      ?_, KernelArgs.insert_perm hargs _⟩
    rw [← hkernel] at hready ⊢
    exact Machine.kernelArgsFor_of_ready hready hmem hconfig hip

/-- A world in which CNI attaches the machine with the address 10.0.0.2. -/
def workingCni : Env Unit := .answering fun
  | .invokeCni config => .ok
      ({ interfaces := [{ name := "eth0", sandbox := config.containerId.getD "" },
          { name := "eth0", sandbox := "/netns" }]
         ips := [⟨some 0, ⟨⟨10, 0, 0, 2⟩, 24⟩, ⟨10, 0, 0, 1⟩⟩] }, [])
  | query => query.smooth

/-- The address that CNI gave to the one interface goes into the boot line. -/
theorem setup_network_keeps_promises_cni :
    ∃ s', Machine.setupNetwork workingCni cniMachine = (.ok (), s') ∧
      (s'.machine.cfg.networkInterfaces.filter (·.hasStaticIp)).length ≤ 1 ∧
      (Machine.setupKernelArgs s').2.machine.cfg.kernelArgs =
        "ip=10.0.0.2::10.0.0.1:255.255.255.0:::off:::" := by
  have hrun : Machine.setupNetwork workingCni cniMachine =
      (.ok (), (Machine.setupNetwork workingCni cniMachine).2) := eq_of_fst (by decide +kernel)
  refine ⟨_, hrun, ?_, by decide +kernel⟩
  exact (setup_network_keeps_promises workingCni (by decide +kernel) hrun).2.1

end FirecrackerSdk
