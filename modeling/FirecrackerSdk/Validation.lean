import FirecrackerSdk.Network

/-!
# What the validation of a network accepts

`NetworkInterfaces::validate` goes through the interfaces one by one and stops at the first that
it rejects. Some of its checks are about one interface, and the three validators of the
configurations have their part in them; others compare an interface with the whole list and with
the boot line.

What it accepts does not depend on the order: every interface has to be complete in itself
(`FirecrackerSdk.NetworkInterface.Complete`), and one that has an address, or is to get one, has to
be the only one, with no `ip` in the boot line.
-/

namespace FirecrackerSdk

/-! ### The configurations -/

theorem IPConfiguration.validate_eq_ok_iff {ip : IPConfiguration} :
    ip.validate = .ok () ↔ ip.nameservers.length ≤ 2 := by
  unfold validate
  split
  · rename_i hmany
    exact iff_of_false nofun (Nat.not_le_of_lt hmany)
  · rename_i hfew
    exact iff_of_true rfl (Nat.le_of_not_lt hfew)

theorem CniConfiguration.validate_eq_ok_iff {cni : CniConfiguration} :
    cni.validate = .ok () ↔ cni.networkName.isSome ≠ cni.networkConfig.isSome := by
  unfold validate
  cases cni.networkName <;> cases cni.networkConfig <;> simp

theorem StaticNetworkConfiguration.validate_eq_ok_iff {config : StaticNetworkConfiguration} :
    config.validate = .ok () ↔ config.hostDevName ≠ "" ∧
      ∀ ip, config.ipConfiguration = some ip → ip.nameservers.length ≤ 2 := by
  unfold validate
  split
  · rename_i hempty
    exact iff_of_false nofun fun h => h.1 hempty
  · rename_i hname
    rw [and_iff_right hname]
    cases config.ipConfiguration with
    | none => exact iff_of_true rfl nofun
    | some ip =>
      dsimp only
      rw [IPConfiguration.validate_eq_ok_iff]
      refine ⟨?_, fun h => h ip rfl⟩
      rintro h _ ⟨⟩
      exact h

/-! ### One interface -/

namespace NetworkInterface

/-- **A complete interface**: it has one of the two kinds of configuration. A CNI configuration
names its network or brings it along; a static one has a device on the host and no more
nameservers than the boot line has room for. -/
structure Complete (iface : NetworkInterface) : Prop where
  one : iface.cniConfiguration.isSome ≠ iface.staticConfiguration.isSome
  cni : ∀ cni, iface.cniConfiguration = some cni →
    cni.networkName.isSome ≠ cni.networkConfig.isSome
  static : ∀ config, iface.staticConfiguration = some config → config.hostDevName ≠ "" ∧
    ∀ ip, config.ipConfiguration = some ip → ip.nameservers.length ≤ 2

/-- Whether an interface has an address, or is to get one from CNI. -/
def takesIp (iface : NetworkInterface) : Prop :=
  iface.cniConfiguration.isSome = true ∨ iface.hasStaticIp = true

/-- **What the check of one interface accepts**, in a list of `count` of them. -/
theorem validateIn_eq_ok_iff {count : ℕ} {kernelArgs : KernelArgs} {iface : NetworkInterface} :
    iface.validateIn count kernelArgs = .ok () ↔
      iface.Complete ∧
        (iface.takesIp → count ≤ 1 ∧ kernelArgs.containsKey "ip" = false) := by
  have hcomplete : iface.Complete ↔
      iface.cniConfiguration.isSome ≠ iface.staticConfiguration.isSome ∧
      (∀ cni, iface.cniConfiguration = some cni → cni.validate = .ok ()) ∧
      ∀ config, iface.staticConfiguration = some config → config.validate = .ok () := by
    simp only [CniConfiguration.validate_eq_ok_iff, StaticNetworkConfiguration.validate_eq_ok_iff]
    exact ⟨fun h => ⟨h.one, h.cni, h.static⟩, fun h => ⟨h.1, h.2.1, h.2.2⟩⟩
  rw [hcomplete, takesIp, ← Bool.or_eq_true]
  unfold validateIn
  by_cases hcount : 1 < count
  · -- an interface with an address is rejected
    have hmany : ¬ count ≤ 1 := Nat.not_le_of_lt hcount
    cases iface.cniConfiguration <;> cases iface.staticConfiguration <;>
      cases iface.hasStaticIp <;>
      simp [hcount, hmany, throw, throwThe, MonadExceptOf.throw, bind, Except.bind]
  · -- such an interface is accepted if there is no `ip`, and the validators decide
    have hfew : count ≤ 1 := Nat.le_of_not_lt hcount
    cases hcni : iface.cniConfiguration with
    | none =>
      cases iface.staticConfiguration <;> cases iface.hasStaticIp <;>
        cases kernelArgs.containsKey "ip" <;>
        simp [hcount, hfew, throw, throwThe, MonadExceptOf.throw, bind, Except.bind]
    | some cni =>
      cases hvalidate : cni.validate <;> cases iface.staticConfiguration <;>
        cases kernelArgs.containsKey "ip" <;>
        simp [hcount, hfew, hvalidate, throw, throwThe, MonadExceptOf.throw, bind, Except.bind,
          pure, Except.pure]

end NetworkInterface

/-! ### The list -/

/-- A loop of checks returns exactly if each of them does. -/
theorem forM_eq_ok_iff {ε α : Type} {check : α → Except ε Unit} {l : List α} :
    l.forM check = .ok () ↔ ∀ a ∈ l, check a = .ok () := by
  induction l with
  | nil => exact iff_of_true rfl fun _ hmem => absurd hmem List.not_mem_nil
  | cons a l ih =>
    have hcons : (a :: l).forM check = (check a >>= fun _ => l.forM check) := rfl
    rw [hcons, List.forall_mem_cons, ← ih]
    cases check a with
    | error e => simp [bind, Except.bind]
    | ok u => simp [bind, Except.bind]

namespace NetworkInterfaces

/-- **What a network has to be like** to be accepted beside a boot line. -/
structure Sound (kernelArgs : KernelArgs) (ifaces : NetworkInterfaces) : Prop where
  complete : ∀ iface ∈ ifaces, iface.Complete
  alone : (∃ iface ∈ ifaces, iface.takesIp) →
    ifaces.length = 1 ∧ kernelArgs.containsKey "ip" = false

theorem validate_eq_ok_iff {ifaces : NetworkInterfaces} {kernelArgs : KernelArgs} :
    ifaces.validate kernelArgs = .ok () ↔ ifaces.Sound kernelArgs := by
  unfold validate
  simp only [forM_eq_ok_iff, NetworkInterface.validateIn_eq_ok_iff]
  constructor
  · refine fun h => ⟨fun iface hmem => (h iface hmem).1, ?_⟩
    rintro ⟨iface, hmem, htakes⟩
    obtain ⟨hfew, hargs⟩ := (h iface hmem).2 htakes
    exact ⟨Nat.le_antisymm hfew (List.length_pos_of_mem hmem), hargs⟩
  · intro h iface hmem
    refine ⟨h.complete iface hmem, fun htakes => ?_⟩
    obtain ⟨hone, hargs⟩ := h.alone ⟨iface, hmem, htakes⟩
    exact ⟨hone.le, hargs⟩

/-- The order of the interfaces does not matter. -/
theorem Sound.perm {kernelArgs : KernelArgs} {ifaces ifaces' : NetworkInterfaces}
    (h : ifaces.Sound kernelArgs) (hperm : ifaces.Perm ifaces') : ifaces'.Sound kernelArgs := by
  refine ⟨fun iface hmem => h.complete iface (hperm.mem_iff.mpr hmem), ?_⟩
  rintro ⟨iface, hmem, htakes⟩
  rw [← hperm.length_eq]
  exact h.alone ⟨iface, hperm.mem_iff.mpr hmem, htakes⟩

end NetworkInterfaces

/-- **What the validation accepts**: complete interfaces, of which one with an address is the only
one, with no `ip` in the boot line. The order of the interfaces does not matter. -/
theorem network_validate_ok_iff (ifaces : NetworkInterfaces) (kernelArgs : KernelArgs) :
    (ifaces.validate kernelArgs = .ok () ↔ ifaces.Sound kernelArgs) ∧
    ∀ ifaces' : NetworkInterfaces, ifaces.Perm ifaces' →
      (ifaces'.validate kernelArgs = .ok () ↔ ifaces.validate kernelArgs = .ok ()) := by
  refine ⟨NetworkInterfaces.validate_eq_ok_iff, fun ifaces' hperm => ?_⟩
  rw [NetworkInterfaces.validate_eq_ok_iff, NetworkInterfaces.validate_eq_ok_iff]
  exact ⟨fun h => h.perm hperm.symm, fun h => h.perm hperm⟩

end FirecrackerSdk
