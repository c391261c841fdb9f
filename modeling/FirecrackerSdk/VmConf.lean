import FirecrackerSdk.Cni

/-!
# When a CNI result describes the network of a virtual machine

`static_network_conf_from` looks for two interfaces in a CNI result, the one inside the sandbox
of the virtual machine and the tap of the same name outside, and for the address of the first.
The interfaces are found by sandbox and name. An address refers to its interface by a position in
the whole list, and is then compared by name and sandbox again.

The two views agree because the interface of the virtual machine is the only one in its sandbox:
an address whose position leads to an interface of that name and sandbox leads to that very one
(`FirecrackerSdk.interfaceIps_eq_filter`). So everything that the function looks for can be said
with positions, each element being the only one of its kind (`FirecrackerSdk.OnlyAt`).
-/

namespace FirecrackerSdk

/-! ### The only element of its kind -/

/-- **The only one of its kind**: `a` stands at position `i` of a list and is as `p` says, and no
other position has such an element. -/
structure OnlyAt {α : Type} (p : α → Prop) (l : List α) (i : ℕ) (a : α) : Prop where
  here : l[i]? = some a
  holds : p a
  only : ∀ j b, l[j]? = some b → p b → j = i

/-- A filter that leaves one element has found the only one. -/
theorem filter_eq_singleton_iff {α : Type} {p : α → Bool} {l : List α} {a : α} :
    l.filter p = [a] ↔ ∃ i, OnlyAt (fun b => p b = true) l i a := by
  constructor
  · intro h
    obtain ⟨before, after, rfl, hbefore, ha, hafter⟩ := List.filter_eq_cons_iff.mp h
    refine ⟨before.length, ?_, ha, fun j b hj hb => ?_⟩
    · rw [List.getElem?_append_right le_rfl, Nat.sub_self]
      rfl
    rcases lt_trichotomy j before.length with hlt | rfl | hgt
    · rw [List.getElem?_append_left hlt] at hj
      exact absurd hb (hbefore b (List.mem_of_getElem? hj))
    · rfl
    · obtain ⟨k, rfl⟩ := Nat.exists_eq_add_of_lt hgt
      rw [List.getElem?_append_right (by omega),
        show before.length + k + 1 - before.length = k + 1 by omega, List.getElem?_cons_succ] at hj
      exact absurd hb (List.filter_eq_nil_iff.mp hafter b (List.mem_of_getElem? hj))
  · rintro ⟨i, hi, ha, honly⟩
    obtain ⟨hlt, rfl⟩ := List.getElem?_eq_some_iff.mp hi
    refine List.filter_eq_cons_iff.mpr ⟨l.take i, l.drop (i + 1), ?_, fun b hb hp => ?_, ha, ?_⟩
    · rw [List.getElem_cons_drop, List.take_append_drop]
    · obtain ⟨j, hj, rfl⟩ := List.mem_take_iff_getElem.mp hb
      have hsame := honly j _ (List.getElem?_eq_getElem (by omega)) hp
      omega
    · refine List.filter_eq_nil_iff.mpr fun b hb hp => ?_
      obtain ⟨j, hj, rfl⟩ := List.mem_drop_iff_getElem.mp hb
      have hsame := honly (i + 1 + j) _ (List.getElem?_eq_getElem (by omega)) hp
      omega

/-! ### The pair of interfaces -/

/-- **The pair is found** exactly if either of the two is the only one of its kind. -/
theorem vmTapPair_eq_ok_iff {result : CniResult} {vmId : String} {v t : CniInterface} :
    vmTapPair result vmId = .ok (v, t) ↔
      (∃ i, OnlyAt (fun iface => iface.sandbox = vmId) result.interfaces i v) ∧
      ∃ j, OnlyAt (fun iface => iface.sandbox ≠ vmId ∧ iface.name = v.name)
        result.interfaces j t := by
  have hinside : (∃ i, OnlyAt (fun iface => iface.sandbox = vmId) result.interfaces i v) ↔
      result.interfaces.filter (fun iface => iface.sandbox == vmId) = [v] := by
    rw [filter_eq_singleton_iff]
    simp only [beq_iff_eq]
  have houtside : (∃ j, OnlyAt (fun iface => iface.sandbox ≠ vmId ∧ iface.name = v.name)
      result.interfaces j t) ↔ ifacesWithName v.name
        (result.interfaces.filter fun iface => !(iface.sandbox == vmId)) = [t] := by
    rw [ifacesWithName, List.filter_filter, filter_eq_singleton_iff]
    simp only [Bool.and_eq_true, Bool.not_eq_true', beq_eq_false_iff_ne, beq_iff_eq, ne_eq,
      and_comm]
  rw [hinside, houtside, vmTapPair, filterBySandbox, List.partition_eq_filter_filter]
  dsimp only
  -- one interface inside, and one of its name outside; all other numbers of them are errors
  generalize hvm : result.interfaces.filter (fun iface => iface.sandbox == vmId) = vmIfaces
  rcases vmIfaces with _ | ⟨vmIface, _ | ⟨second, vmIfaces⟩⟩
  · simp
  · simp only [List.length_cons, List.length_nil, Nat.zero_add, gt_iff_lt, Nat.lt_irrefl, if_false,
      List.cons.injEq, and_true, Function.comp_def]
    generalize htap : ifacesWithName vmIface.name _ = tapIfaces
    rcases tapIfaces with _ | ⟨tapIface, _ | ⟨second, tapIfaces⟩⟩
    · simp only [List.length_nil, Nat.not_lt_zero, if_false, reduceCtorEq, false_iff, not_and]
      rintro rfl
      rw [htap]
      exact List.cons_ne_nil _ _ ∘ Eq.symm
    · simp only [List.length_cons, List.length_nil, Nat.zero_add, Nat.lt_irrefl, if_false,
        Except.ok.injEq, Prod.mk.injEq]
      refine and_congr_right ?_
      rintro rfl
      rw [htap]
      simp
    · simp only [List.length_cons, if_pos (show 1 < tapIfaces.length + 1 + 1 by omega),
        reduceCtorEq, false_iff, not_and]
      rintro rfl
      rw [htap]
      simp
  · simp

/-! ### The address -/

/-- **The addresses of the interface of a virtual machine**: those that point at its position. -/
theorem interfaceIps_eq_filter {result : CniResult} {vmId : String} {i : ℕ} {v : CniInterface}
    (h : OnlyAt (fun iface => iface.sandbox = vmId) result.interfaces i v) :
    interfaceIps result v.name v.sandbox =
      result.ips.filter fun ip => decide (ip.interface = some i) := by
  refine List.filter_congr fun ip _ => ?_
  cases hindex : ip.interface with
  | none => rfl
  | some index =>
    rw [Option.bind_some, Bool.eq_iff_iff, decide_eq_true_iff, Option.some.injEq]
    cases hiface : result.interfaces[index]? with
    | none =>
      refine iff_of_false Bool.false_ne_true ?_
      rintro rfl
      rw [h.here] at hiface
      cases hiface
    | some iface =>
      dsimp only
      rw [Bool.and_eq_true, beq_iff_eq, beq_iff_eq]
      constructor
      · rintro ⟨-, hsandbox⟩
        exact h.only index iface hiface (hsandbox.trans h.holds)
      · rintro rfl
        obtain rfl := Option.some.inj (h.here.symm.trans hiface)
        exact ⟨rfl, rfl⟩

/-- The interface of a virtual machine has one address exactly if one points at its position. -/
theorem interfaceIps_eq_singleton_iff {result : CniResult} {vmId : String} {i : ℕ}
    {v : CniInterface} {ip : CniIpConfig}
    (h : OnlyAt (fun iface => iface.sandbox = vmId) result.interfaces i v) :
    interfaceIps result v.name v.sandbox = [ip] ↔
      ∃ k, OnlyAt (fun ip => ip.interface = some i) result.ips k ip := by
  rw [interfaceIps_eq_filter h, filter_eq_singleton_iff]
  simp only [decide_eq_true_eq]

/-- Whether an address refers to an interface at all. -/
def CniIpConfig.refers (count : ℕ) (ip : CniIpConfig) : Bool :=
  ip.interface.any fun index => decide (index < count)

/-- An address that refers to no interface is none of any interface. -/
theorem interfaceIps_filter_refers (result : CniResult) (ifaceName sandbox : String) :
    interfaceIps { result with ips := result.ips.filter (·.refers result.interfaces.length) }
      ifaceName sandbox = interfaceIps result ifaceName sandbox := by
  unfold interfaceIps
  rw [List.filter_filter]
  refine List.filter_congr fun ip _ => ?_
  cases hindex : ip.interface with
  | none => simp
  | some index =>
    rw [Option.bind_some, CniIpConfig.refers, hindex, Option.any_some]
    by_cases hlt : index < result.interfaces.length
    · simp [hlt]
    · simp [List.getElem?_eq_none_iff.mpr (Nat.le_of_not_lt hlt)]

/-- The configuration that belongs to a pair of interfaces, an address and a link. -/
def confOf (result : CniResult) (v t : CniInterface) (ip : CniIpConfig) (link : Link) :
    StaticNetworkConf where
  tapName := t.name
  netnsPath := t.sandbox
  vmMacAddr := v.mac
  vmMtu := link.mtu
  vmIpConfig := some ip
  vmRoutes := result.routes
  vmNameservers := result.dns.nameservers
  vmDomain := result.dns.domain
  vmSearchDomains := result.dns.search
  vmResolverOptions := result.dns.options

/-- What a configuration that is returned was made of. -/
theorem staticNetworkConfFrom_eq_ok_iff {result : CniResult} {containerId : String}
    {getLink : GetLink} {conf : StaticNetworkConf} :
    staticNetworkConfFrom result containerId getLink = .ok conf ↔
      ∃ v t ip link, vmTapPair result containerId = .ok (v, t) ∧
        interfaceIps result v.name v.sandbox = [ip] ∧ getLink t.sandbox t.name = .ok link ∧
        conf = confOf result v t ip link := by
  unfold staticNetworkConfFrom
  constructor
  · intro h
    split at h
    · cases h
    · rename_i v t hpair
      split at h
      · rename_i ip hip
        unfold mtuOf at h
        cases hlink : getLink t.sandbox t.name with
        | error device =>
          rw [hlink] at h
          cases h
        | ok link =>
          rw [hlink] at h
          exact ⟨v, t, ip, link, hpair, hip, hlink, (Except.ok.inj h).symm⟩
      · cases h
  · rintro ⟨v, t, ip, link, hpair, hip, hlink, rfl⟩
    rw [hpair]
    dsimp only
    rw [hip]
    dsimp only
    rw [mtuOf, hlink]
    rfl

/-- The pair of interfaces does not depend on the addresses, so those that refer to no interface
make no difference. -/
theorem staticNetworkConfFrom_filter_refers (result : CniResult) (containerId : String)
    (getLink : GetLink) :
    staticNetworkConfFrom
      { result with ips := result.ips.filter (·.refers result.interfaces.length) }
      containerId getLink = staticNetworkConfFrom result containerId getLink := by
  have hpair : vmTapPair
      { result with ips := result.ips.filter (·.refers result.interfaces.length) } containerId =
      vmTapPair result containerId := rfl
  unfold staticNetworkConfFrom
  rw [hpair]
  split
  · rfl
  · rw [interfaceIps_filter_refers]

/-- **When a CNI result gives a configuration, and which.** It does exactly if one interface is in
the sandbox of the container, one interface elsewhere has the name of that one, one address points
at the position of the first, and the link of the second can be looked up. The configuration is
made of these, of the routes and of the DNS data. Addresses that refer to no interface change
nothing. -/
theorem static_network_conf_from_ok_iff (result : CniResult) (containerId : String)
    (getLink : GetLink) :
    (∀ conf, staticNetworkConfFrom result containerId getLink = .ok conf ↔
      ∃ i v j t k ip link,
        OnlyAt (fun iface => iface.sandbox = containerId) result.interfaces i v ∧
        OnlyAt (fun iface => iface.sandbox ≠ containerId ∧ iface.name = v.name)
          result.interfaces j t ∧
        OnlyAt (fun ip => ip.interface = some i) result.ips k ip ∧
        getLink t.sandbox t.name = .ok link ∧ conf = confOf result v t ip link) ∧
    staticNetworkConfFrom
      { result with ips := result.ips.filter (·.refers result.interfaces.length) }
      containerId getLink = staticNetworkConfFrom result containerId getLink := by
  refine ⟨fun conf => ?_, staticNetworkConfFrom_filter_refers result containerId getLink⟩
  rw [staticNetworkConfFrom_eq_ok_iff]
  constructor
  · rintro ⟨v, t, ip, link, hpair, hip, hlink, hconf⟩
    obtain ⟨⟨i, hv⟩, j, ht⟩ := vmTapPair_eq_ok_iff.mp hpair
    obtain ⟨k, hk⟩ := (interfaceIps_eq_singleton_iff hv).mp hip
    exact ⟨i, v, j, t, k, ip, link, hv, ht, hk, hlink, hconf⟩
  · rintro ⟨i, v, j, t, k, ip, link, hv, ht, hk, hlink, hconf⟩
    have hpair := vmTapPair_eq_ok_iff.mpr ⟨⟨i, hv⟩, j, ht⟩
    have hip := (interfaceIps_eq_singleton_iff hv).mpr ⟨k, hk⟩
    exact ⟨v, t, ip, link, hpair, hip, hlink, hconf⟩

end FirecrackerSdk
