import FirecrackerSdk.Machine.Boot

/-!
# The interfaces that MMDS is told about

`create_network_interfaces` and `set_mmds_config` number the interfaces of the configuration
independently of each other: the first numbers all of them, the second those that allow MMDS,
through a filter that keeps their positions. The ids agree because both are the numerals of the
positions, counted from one (`FirecrackerSdk.interfaceIds`), and they tell the interfaces apart
because numerals do.
-/

namespace FirecrackerSdk

/-- The ids of `count` interfaces, from position `index` on. -/
def interfaceIds (index count : ℕ) : List String :=
  (List.range' (index + 1) count).map toString

/-- The ids of the interfaces that allow MMDS. -/
def allowedIds (ids : List String) (ifaces : List NetworkInterface) : List String :=
  ((ids.zip ifaces).filter fun entry => entry.2.allowMmds).map Prod.fst

/-- **A request creates an interface** under an id, from its static configuration. -/
def CreatesInterface (id : String) (iface : NetworkInterface) (call : ClientCall) : Prop :=
  ∃ config, iface.staticConfiguration = some config ∧
    call = .putGuestNetworkInterfaceById id
      { ifaceId := some id
        guestMac := config.macAddress
        hostDevName := some config.hostDevName
        rxRateLimiter := iface.inRateLimiter
        txRateLimiter := iface.outRateLimiter }

/-- The ids that a request names for MMDS. -/
def ClientCall.mmdsIds : ClientCall → Option (List String)
  | .putMmdsConfig config => some config.networkInterfaces
  | _ => none

theorem interfaceIds_succ (index count : ℕ) :
    interfaceIds index (count + 1) = toString (index + 1) :: interfaceIds (index + 1) count := rfl

theorem length_interfaceIds (index count : ℕ) : (interfaceIds index count).length = count := by
  simp [interfaceIds]

/-- Positions have different numerals. -/
theorem nodup_interfaceIds (index count : ℕ) : (interfaceIds index count).Nodup :=
  List.Nodup.map (fun _ _ h => Text.toString_inj.mp h) List.nodup_range'

theorem allowedIds_sublist {ids : List String} {ifaces : List NetworkInterface}
    (h : ids.length ≤ ifaces.length) : (allowedIds ids ifaces).Sublist ids := by
  have hids : (ids.zip ifaces).map Prod.fst = ids := List.map_fst_zip h
  have hfilter := (@List.filter_sublist _ (fun entry : String × NetworkInterface =>
    entry.2.allowMmds) (ids.zip ifaces)).map Prod.fst
  rw [hids] at hfilter
  exact hfilter

/-- The filter of `set_mmds_config` keeps the positions. -/
theorem mmdsInterfaceIds_eq (index : ℕ) (ifaces : List NetworkInterface) :
    Machine.mmdsInterfaceIds index ifaces =
      allowedIds (interfaceIds index ifaces.length) ifaces := by
  induction ifaces generalizing index with
  | nil => rfl
  | cons iface ifaces ih =>
    rw [Machine.mmdsInterfaceIds, List.length_cons, interfaceIds_succ, ih (index + 1)]
    unfold allowedIds
    rw [List.zip_cons_cons, List.filter_cons]
    cases iface.allowMmds <;> rfl

/-- No id is left exactly if no interface allows MMDS. -/
theorem mmdsInterfaceIds_eq_nil_iff (index : ℕ) (ifaces : List NetworkInterface) :
    Machine.mmdsInterfaceIds index ifaces = [] ↔ ∀ iface ∈ ifaces, iface.allowMmds = false := by
  induction ifaces generalizing index with
  | nil => simp [Machine.mmdsInterfaceIds]
  | cons iface ifaces ih =>
    rw [Machine.mmdsInterfaceIds, List.forall_mem_cons, ← ih (index + 1)]
    cases iface.allowMmds <;> simp

/-- What it means that the plan for the interfaces was followed to its end. -/
theorem creates_of_interfacePlan {index : ℕ} {ifaces : List NetworkInterface}
    {log : List (ClientCall × Option Error)}
    (h : Plan.Follows (interfacePlan index ifaces) log .done) :
    ∃ created : List ClientCall, log = created.map (fun call => (call, none)) ∧
      created.length = ifaces.length ∧
      ∀ (i : ℕ) id iface call, (interfaceIds index ifaces.length)[i]? = some id →
        ifaces[i]? = some iface → created[i]? = some call → CreatesInterface id iface call := by
  induction ifaces generalizing index log with
  | nil =>
    cases h
    exact ⟨[], rfl, rfl, by simp⟩
  | cons iface ifaces ih =>
    rw [interfacePlan] at h
    unfold interfaceCall at h
    cases hconfig : iface.staticConfiguration with
    | none =>
      rw [hconfig] at h
      cases h
    | some config =>
      rw [hconfig] at h
      cases h with
      | made hrest =>
        obtain ⟨created, rfl, hlength, hcreated⟩ := ih hrest
        refine ⟨_ :: created, rfl, by simp [hlength], ?_⟩
        rintro (_ | i) id iface' call hid hiface hcall
        · obtain rfl := Option.some.inj hid
          obtain rfl := Option.some.inj hiface
          obtain rfl := Option.some.inj hcall
          exact ⟨config, hconfig, rfl⟩
        · exact hcreated i id iface' call hid hiface hcall

namespace Machine

variable {W : Type} (env : Env W)

/-- A plan that an operation has followed to its end is on record. -/
theorem Issues.of_ok {α : Type} {plan : List (Option ClientCall)} {x : Op W α} {s s' : Sys W}
    {a : α} (h : Issues plan x s) (hok : x s = (.ok a, s')) :
    ∃ log, clientLog s'.trace = clientLog s.trace ++ log ∧ Plan.Follows plan log .done := by
  obtain ⟨log, e, hlog, hfollows, hends, -⟩ := h
  rw [hok] at hlog hends
  obtain rfl : e = .done := hends
  exact ⟨log, hlog, hfollows⟩

/-- The one request for MMDS, or none. -/
theorem setMmdsConfig_log {s s' : Sys W} (h : setMmdsConfig env s = (.ok (), s')) :
    ∃ log, clientLog s'.trace = clientLog s.trace ++ log ∧
      log.map (fun entry => entry.1.mmdsIds) =
        if mmdsInterfaceIds 0 s.machine.cfg.networkInterfaces = [] then []
        else [some (mmdsInterfaceIds 0 s.machine.cfg.networkInterfaces)] := by
  obtain ⟨log, hlog, hfollows⟩ := (issues_setMmdsConfig env s).of_ok h
  refine ⟨log, hlog, ?_⟩
  unfold mmdsPlan at hfollows
  cases hids : mmdsInterfaceIds 0 s.machine.cfg.networkInterfaces with
  | nil =>
    rw [hids] at hfollows
    cases hfollows
    rfl
  | cons id ids =>
    rw [hids] at hfollows
    cases hfollows with
    | made hrest =>
      cases hrest
      rfl

end Machine

/-- **MMDS is told about the interfaces that were created and allow it**: if both operations
succeed on one list of interfaces, the requests that create them stand in their order under ids
that are all different, and the one request for MMDS names the ids of those that allow it, in
their order. There is none exactly if no interface allows it. -/
theorem mmds_ids_as_created {W : Type} (env : Env W) {s s₁ s₂ s₃ : Sys W}
    (hcreate : Machine.createNetworkInterfaces env s = (.ok (), s₁))
    (hsame : s₂.machine.cfg.networkInterfaces = s.machine.cfg.networkInterfaces)
    (hset : Machine.setMmdsConfig env s₂ = (.ok (), s₃)) :
    ∃ (created : List ClientCall) (ids : List String)
      (requests : List (ClientCall × Option Error)),
      clientLog s₁.trace = clientLog s.trace ++ created.map (fun call => (call, none)) ∧
      clientLog s₃.trace = clientLog s₂.trace ++ requests ∧
      created.length = s.machine.cfg.networkInterfaces.length ∧
      ids.length = s.machine.cfg.networkInterfaces.length ∧
      (∀ (i : ℕ) id iface call, ids[i]? = some id →
        s.machine.cfg.networkInterfaces[i]? = some iface → created[i]? = some call →
        CreatesInterface id iface call) ∧
      ids.Nodup ∧
      (requests = [] ↔ ∀ iface ∈ s.machine.cfg.networkInterfaces, iface.allowMmds = false) ∧
      (requests ≠ [] → requests.map (fun entry => entry.1.mmdsIds) =
        [some (allowedIds ids s.machine.cfg.networkInterfaces)]) ∧
      (allowedIds ids s.machine.cfg.networkInterfaces).Nodup ∧
      ∀ id ∈ allowedIds ids s.machine.cfg.networkInterfaces, id ∈ ids := by
  have hissues : Machine.Issues (interfacePlan 0 s.machine.cfg.networkInterfaces)
      (Machine.createNetworkInterfaces env) s :=
    Machine.issues_cfg (Machine.issues_createNetworkInterfacesFrom env 0 _ s)
  obtain ⟨log, hlog, hfollows⟩ := hissues.of_ok hcreate
  obtain ⟨created, rfl, hlength, hcreated⟩ := creates_of_interfacePlan hfollows
  obtain ⟨requests, hrequests, hids⟩ := Machine.setMmdsConfig_log env hset
  rw [hsame] at hids
  have hnodup := nodup_interfaceIds 0 s.machine.cfg.networkInterfaces.length
  have hsublist := allowedIds_sublist
    (length_interfaceIds 0 s.machine.cfg.networkInterfaces.length).le
  refine ⟨created, interfaceIds 0 s.machine.cfg.networkInterfaces.length, requests, hlog,
    hrequests, hlength, length_interfaceIds _ _, hcreated, hnodup, ?_, ?_,
    hsublist.nodup hnodup, fun id hid => hsublist.subset hid⟩
  · rw [← mmdsInterfaceIds_eq_nil_iff 0, ← List.map_eq_nil_iff, hids]
    split <;> simp_all
  · intro hne
    rw [hids, ← mmdsInterfaceIds_eq, if_neg]
    intro hnil
    rw [if_pos hnil] at hids
    exact hne (List.map_eq_nil_iff.mp hids)

/-- A machine with two interfaces, of which the second allows MMDS. -/
def twoInterfaces : Sys Unit :=
  (plainBlueprint { networkInterfaces :=
    [{ staticConfiguration := some { hostDevName := "tap0" } },
      { staticConfiguration := some { hostDevName := "tap1" }, allowMmds := true }] }
    "vm").initial 0 ()

theorem mmds_ids_as_created_two :
    ∃ (ids : List String) (requests : List (ClientCall × Option Error)),
      ids.length = 2 ∧ ids.Nodup ∧
        requests.map (fun entry => entry.1.mmdsIds) =
          [some (allowedIds ids twoInterfaces.machine.cfg.networkInterfaces)] := by
  have hcreate : Machine.createNetworkInterfaces (.answering Query.smooth) twoInterfaces =
      (.ok (), (Machine.createNetworkInterfaces (.answering Query.smooth) twoInterfaces).2) := rfl
  have hset : Machine.setMmdsConfig (.answering Query.smooth) twoInterfaces =
      (.ok (), (Machine.setMmdsConfig (.answering Query.smooth) twoInterfaces).2) := rfl
  obtain ⟨-, ids, requests, -, -, -, hlength, -, hnodup, hnone, hnamed, -⟩ :=
    mmds_ids_as_created (.answering Query.smooth) hcreate rfl hset
  refine ⟨ids, requests, hlength, hnodup, hnamed fun hnil => ?_⟩
  have hallows := hnone.mp hnil _ (List.mem_cons_of_mem _ List.mem_cons_self)
  cases hallows

end FirecrackerSdk
