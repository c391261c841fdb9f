import FirecrackerSdk.Lib.Plan
import FirecrackerSdk.Machine.Standard
import FirecrackerSdk.Machine.Starting

/-!
# The calls of a boot

What a start with the default handlers asks of the VMM once it is reachable: the calls of
a plan (`FirecrackerSdk.bootPlan`) that is read off the configuration before the first of them
is made. Eleven handlers produce the calls, several of them in loops; each follows its
own part of the plan (`FirecrackerSdk.Machine.Issues`), and the parts are put together by
`FirecrackerSdk.Machine.issues_bind`. What a failed start does to give up makes no client call
(`FirecrackerSdk.Machine.issues_orAbort`), so nothing follows a failure.
-/

namespace FirecrackerSdk

open Prog

/-! ### The plan -/

/-- The calls that configure logging and metrics. -/
def bootstrapPlan (cfg : Config) : List (Option ClientCall) :=
  ((cfg.logFifo.or cfg.logPath).map fun path =>
    some (.putLogger
      { logPath := some path
        level := cfg.logLevel
        showLevel := some true
        showLogOrigin := some false })).toList ++
  ((cfg.metricsFifo.or cfg.metricsPath).map fun path =>
    some (.putMetrics { metricsPath := some path })).toList

/-- The call for an interface, which needs a static configuration. -/
def interfaceCall (index : ℕ) (iface : NetworkInterface) : Option ClientCall :=
  iface.staticConfiguration.map fun config =>
    .putGuestNetworkInterfaceById (toString index) (Machine.interfaceModel iface config index)

/-- The calls for the interfaces, from position `index` on. -/
def interfacePlan (index : ℕ) : List NetworkInterface → List (Option ClientCall)
  | [] => []
  | iface :: ifaces => interfaceCall (index + 1) iface :: interfacePlan (index + 1) ifaces

/-- The call that configures MMDS, when an interface allows it. -/
def mmdsPlan (cfg : Config) : List (Option ClientCall) :=
  match Machine.mmdsInterfaceIds 0 cfg.networkInterfaces with
  | [] => []
  | ids =>
    [some (.putMmdsConfig
      { ipv4Address := cfg.mmdsAddress.map Ipv4Addr.display
        networkInterfaces := ids
        version := some cfg.mmdsVersion.toModel })]

/-- **The calls of a boot**: the configuration is that of the user, the boot line and the
interfaces are those that `setup_kernel_args` and `setup_network` made of it. -/
def bootPlan (cfg : Config) (kernelArgs : String) (ifaces : NetworkInterfaces) :
    List (Option ClientCall) :=
  bootstrapPlan cfg ++
    [some (.putMachineConfiguration cfg.machineCfg), some .getMachineConfiguration,
      some (.putGuestBootSource
        { kernelImagePath := some cfg.kernelImagePath
          initrdPath := cfg.initrdPath
          bootArgs := some kernelArgs })] ++
    cfg.drives.map (fun drive => some (Machine.driveCall drive)) ++
    interfacePlan 0 ifaces ++
    cfg.vsockDevices.map (fun device => some (Machine.vsockCall device)) ++
    mmdsPlan cfg ++
    [some Machine.instanceStart]

/-! ### Following a plan -/

namespace Machine

variable {W : Type} (env : Env W)

/-- How following a plan ended, given how the operation did. A failed start may still be
dropped while it gives up. -/
def Ends {α : Type} : Outcome Error α → Plan.End → Prop
  | .ok _, e => e = .done
  | .err _, e => e = .failed
  | .dropped, e => e ≠ .done

theorem Ends.ok_iff {o : Outcome Error Unit} {e : Plan.End} (h : Ends o e) :
    o = .ok () ↔ e = .done := by
  rcases o with a | error | _
  · exact ⟨fun _ => h, fun _ => rfl⟩
  · obtain rfl : e = .failed := h
    exact ⟨fun h => (by cases h), fun h => by cases h⟩
  · exact ⟨fun h => (by cases h), fun he => absurd he h⟩

/-- **The client calls of `x` follow a plan**, and if it returns it leaves the
configuration alone. -/
def Issues {α : Type} (plan : List (Option ClientCall)) (x : Op W α) (s : Sys W) : Prop :=
  ∃ log e, clientLog (x s).2.trace = clientLog s.trace ++ log ∧ Plan.Follows plan log e ∧
    Ends (x s).1 e ∧ ∀ a, (x s).1 = .ok a → (x s).2.machine.cfg = s.machine.cfg

theorem issues_pure {α : Type} (a : α) (s : Sys W) : Issues [] (pure a : Op W α) s :=
  ⟨[], .done, by simp, .done, rfl, fun _ _ => rfl⟩

theorem issues_bind {α β : Type} {plan plan' : List (Option ClientCall)} {x : Op W α}
    {f : α → Op W β} {s : Sys W} (hx : Issues plan x s)
    (hf : ∀ a s', x s = (.ok a, s') → s'.machine.cfg = s.machine.cfg → Issues plan' (f a) s') :
    Issues (plan ++ plan') (x >>= f) s := by
  obtain ⟨log, e, hlog, hfollows, hends, hcfg⟩ := hx
  unfold Issues
  rw [bind_apply]
  rcases h : x s with ⟨a | error | _, s₁⟩ <;> rw [h] at hlog hends hcfg <;> dsimp only
  · obtain ⟨log', e', hlog', hfollows', hends', hcfg'⟩ := hf a s₁ h (hcfg a rfl)
    refine ⟨log ++ log', e', ?_, ?_, hends', fun b hb => (hcfg' b hb).trans (hcfg a rfl)⟩
    · rw [hlog', hlog, List.append_assoc]
    · rw [show e = .done from hends] at hfollows
      exact hfollows.append hfollows'
  · have hfailed : e = .failed := hends
    exact ⟨log, e, hlog, hfollows.weaken (by rw [hfailed]; decide), hends, fun _ h => by cases h⟩
  · exact ⟨log, e, hlog, hfollows.weaken hends, hends, fun _ h => by cases h⟩

/-- Reading the configuration. -/
theorem issues_cfg {β : Type} {plan : List (Option ClientCall)} {f : Config → Op W β} {s : Sys W}
    (h : Issues plan (f s.machine.cfg) s) : Issues plan (Op.cfg >>= f) s := h

theorem issues_call (c : ClientCall) (s : Sys W) : Issues [some c] (Op.call env c) s := by
  unfold Issues Op.call Op.await
  cases hdrop : (env.answer (.await .client) s.world).1 with
  | true =>
    refine ⟨[], .interrupted, ?_, .interrupted, ?_, ?_⟩ <;>
      simp [bind_apply, Op.ask, hdrop, Ends]
  | false =>
    cases hr : (env.answer (.client c) (env.answer (.await .client) s.world).2).1 with
    | ok a =>
      refine ⟨[(c, none)], .done, ?_, .made .done, ?_, ?_⟩ <;>
        simp [bind_apply, Op.ask, Op.emit, hdrop, hr, Ends, clientLog]
    | error error =>
      refine ⟨[(c, some error)], .failed, ?_, .refused, ?_, ?_⟩ <;>
        simp [bind_apply, Op.ask, Op.emit, hdrop, hr, Ends, clientLog]

theorem issues_getMachineConfiguration (s : Sys W) :
    Issues [some .getMachineConfiguration] (Op.getMachineConfiguration env) s := by
  unfold Issues Op.getMachineConfiguration Op.await
  cases hdrop : (env.answer (.await .client) s.world).1 with
  | true =>
    refine ⟨[], .interrupted, ?_, .interrupted, ?_, ?_⟩ <;>
      simp [bind_apply, Op.ask, hdrop, Ends]
  | false =>
    cases hr : (env.answer .getMachineConfiguration (env.answer (.await .client) s.world).2).1 with
    | ok config =>
      refine ⟨[(.getMachineConfiguration, none)], .done, ?_, .made .done, ?_, ?_⟩ <;>
        simp [bind_apply, Op.ask, Op.emit, hdrop, hr, Ends, clientLog]
    | error error =>
      refine ⟨[(.getMachineConfiguration, some error)], .failed, ?_, .refused, ?_, ?_⟩ <;>
        simp [bind_apply, Op.ask, Op.emit, hdrop, hr, Ends, clientLog]

theorem issues_callAll (cs : List ClientCall) (s : Sys W) :
    Issues (cs.map some) (callAll env cs) s := by
  induction cs generalizing s with
  | nil => exact issues_pure () s
  | cons c cs ih =>
    rw [List.map_cons, ← List.singleton_append]
    exact issues_bind (issues_call env c s) fun _ s' _ _ => ih s'

/-! ### The handlers -/

theorem issues_setupLogging (s : Sys W) :
    Issues ((s.machine.cfg.logFifo.or s.machine.cfg.logPath).map fun path =>
      some (.putLogger
        { logPath := some path
          level := s.machine.cfg.logLevel
          showLevel := some true
          showLogOrigin := some false })).toList (setupLogging env) s := by
  refine issues_cfg ?_
  cases s.machine.cfg.logFifo.or s.machine.cfg.logPath with
  | none => exact issues_pure () s
  | some path => exact issues_call env _ s

theorem issues_setupMetrics (s : Sys W) :
    Issues ((s.machine.cfg.metricsFifo.or s.machine.cfg.metricsPath).map fun path =>
      some (.putMetrics { metricsPath := some path })).toList (setupMetrics env) s := by
  refine issues_cfg ?_
  cases s.machine.cfg.metricsFifo.or s.machine.cfg.metricsPath with
  | none => exact issues_pure () s
  | some path => exact issues_call env _ s

theorem issues_bootstrapLogging (s : Sys W) :
    Issues (bootstrapPlan s.machine.cfg) (runHandler env .bootstrapLogging) s := by
  refine issues_bind (issues_setupLogging env s) fun _ s' _ hcfg => ?_
  rw [← hcfg]
  exact issues_setupMetrics env s'

theorem issues_createMachine (s : Sys W) :
    Issues [some (.putMachineConfiguration s.machine.cfg.machineCfg),
      some .getMachineConfiguration] (createMachine env) s := by
  rw [← List.singleton_append]
  refine issues_cfg (issues_bind (issues_call env _ s) fun _ s₁ _ _ => ?_)
  rw [← List.append_nil [some ClientCall.getMachineConfiguration]]
  refine issues_bind (issues_getMachineConfiguration env s₁) fun config s₂ _ _ => ?_
  exact ⟨[], .done, by simp [Op.update], .done, rfl, fun _ _ => rfl⟩

theorem issues_createBootSource (s : Sys W) :
    Issues [some (.putGuestBootSource
      { kernelImagePath := some s.machine.cfg.kernelImagePath
        initrdPath := s.machine.cfg.initrdPath
        bootArgs := some s.machine.cfg.kernelArgs })] (createBootSource env) s :=
  issues_cfg (issues_call env _ s)

theorem issues_createNetworkInterfacesFrom (index : ℕ) (ifaces : List NetworkInterface)
    (s : Sys W) :
    Issues (interfacePlan index ifaces) (createNetworkInterfacesFrom env index ifaces) s := by
  induction ifaces generalizing index s with
  | nil => exact issues_pure () s
  | cons iface ifaces ih =>
    rw [interfacePlan, ← List.singleton_append]
    refine issues_bind ?_ fun _ s' _ _ => ih (index + 1) s'
    unfold createNetworkInterface interfaceCall
    cases iface.staticConfiguration with
    | none => exact ⟨[], .failed, by simp, .stuck, rfl, fun _ h => by cases h⟩
    | some config => exact issues_call env _ s

theorem issues_setMmdsConfig (s : Sys W) :
    Issues (mmdsPlan s.machine.cfg) (setMmdsConfig env) s := by
  refine issues_cfg ?_
  unfold mmdsPlan
  cases mmdsInterfaceIds 0 s.machine.cfg.networkInterfaces with
  | nil => exact issues_pure () s
  | cons id ids => exact issues_call env _ s

/-! ### Giving up -/

/-- No client call may be made. -/
def silent : Policy := { mayCall := fun _ => False }

/-- A walk without client calls leaves the log alone. -/
theorem clientLog_of_silent {s s' : Sys W} (h : Leads silent s s') :
    clientLog s'.trace = clientLog s.trace := by
  obtain ⟨events, htrace, -, hcalls⟩ := Walk.trace h
  have hnil : clientLog events = [] := List.eq_nil_iff_forall_not_mem.mpr hcalls
  change s'.trace = s.trace ++ events at htrace
  rw [htrace, clientLog_append, hnil, List.append_nil]

/-- **Giving a start up makes no client call.** -/
theorem issues_orAbort {plan : List (Option ClientCall)} {x : Op W Unit} {s : Sys W}
    (h : Issues plan x s) : Issues plan (orAbort env x) s := by
  obtain ⟨log, e, hlog, hfollows, hends, hcfg⟩ := h
  unfold Issues
  rcases hx : x s with ⟨a | error | _, s₁⟩ <;> rw [hx] at hlog hends hcfg
  · rw [orAbort_of_ok env hx]
    exact ⟨log, e, hlog, hfollows, hends, hcfg⟩
  · rw [orAbort_of_err env hx]
    obtain ⟨o, s₂, h₂, hl₂, ho⟩ := abortStart_spec env (p := silent) trivial trivial error s₁
    have hsame := clientLog_of_silent hl₂
    have hfailed : e = .failed := hends
    rcases ho with rfl | ⟨f, rfl, -, -⟩
    · rw [bind_of_dropped h₂]
      exact ⟨log, e, hsame.trans hlog, hfollows, by simp [Ends, hfailed], fun _ h => by cases h⟩
    · rw [bind_of_ok h₂]
      exact ⟨log, e, hsame.trans hlog, hfollows, hfailed, fun _ h => by cases h⟩
  · rw [orAbort_of_dropped env hx]
    exact ⟨log, e, hlog, hfollows, hends, hcfg⟩

/-! ### The start -/

/-- The handlers that follow `create_log_files`. -/
def configuringHandlers : List Handler :=
  [bootstrapLoggingHandler, createMachineHandler, createBootSourceHandler, attachDrivesHandler,
    createNetworkInterfacesHandler, addVsocksHandler, configMmdsHandler]

/-- The start up to the point where the VMM is reachable and the log files exist. -/
def reachVmm : Op W Unit := do
  validationPhase env
  runHandlerList env
    [setupNetworkHandler, setupKernelArgsHandler, startVmmHandler, createLogFilesHandler]

/-- The plan of the handlers, without the call that boots the guest. -/
theorem issues_configuring (s : Sys W) :
    Issues (bootstrapPlan s.machine.cfg ++
      ([some (.putMachineConfiguration s.machine.cfg.machineCfg), some .getMachineConfiguration] ++
      ([some (.putGuestBootSource
        { kernelImagePath := some s.machine.cfg.kernelImagePath
          initrdPath := s.machine.cfg.initrdPath
          bootArgs := some s.machine.cfg.kernelArgs })] ++
      ((s.machine.cfg.drives.map driveCall).map some ++
      (interfacePlan 0 s.machine.cfg.networkInterfaces ++
      ((s.machine.cfg.vsockDevices.map vsockCall).map some ++
      (mmdsPlan s.machine.cfg ++ [])))))))
      (runHandlerList env configuringHandlers) s := by
  refine issues_bind (issues_bootstrapLogging env s) fun _ s₁ _ h₁ => ?_
  rw [← h₁]
  refine issues_bind (issues_createMachine env s₁) fun _ s₂ _ h₂ => ?_
  rw [← h₂]
  refine issues_bind (issues_createBootSource env s₂) fun _ s₃ _ h₃ => ?_
  rw [← h₃]
  refine issues_bind (issues_cfg (issues_callAll env _ s₃)) fun _ s₄ _ h₄ => ?_
  rw [← h₄]
  refine issues_bind (issues_cfg (issues_createNetworkInterfacesFrom env 0 _ s₄))
    fun _ s₅ _ h₅ => ?_
  rw [← h₅]
  refine issues_bind (issues_cfg (issues_callAll env _ s₅)) fun _ s₆ _ h₆ => ?_
  rw [← h₆]
  exact issues_bind (issues_setMmdsConfig env s₆) fun _ s₇ _ _ => issues_pure () s₇

/-- A start that has reached the VMM goes on with the handlers that configure it. -/
theorem start_of_reachVmm {s s₁ : Sys W} (hstarted : s.machine.started = false)
    (hhandlers : s.machine.handlers = standardHandlers false none false)
    (h : reachVmm env s = (.ok (), s₁)) :
    start env s =
      (orAbort env (runHandlerList env configuringHandlers) >>= fun _ =>
        orAbort env (startInstance env)) s₁ := by
  obtain ⟨_, t, hvalid, hinit⟩ := bind_eq_ok.mp h
  have hrun : runHandlerList env (standardInit none false) t =
      runHandlerList env configuringHandlers s₁ := by
    obtain ⟨_, t₁, h₁, hinit⟩ := bind_eq_ok.mp hinit
    obtain ⟨_, t₂, h₂, hinit⟩ := bind_eq_ok.mp hinit
    obtain ⟨_, t₃, h₃, hinit⟩ := bind_eq_ok.mp hinit
    obtain ⟨_, t₄, h₄, hinit⟩ := bind_eq_ok.mp hinit
    obtain ⟨-, rfl⟩ := Prod.mk.inj hinit
    exact (bind_of_ok h₁).trans ((bind_of_ok h₂).trans ((bind_of_ok h₃).trans (bind_of_ok h₄)))
  rw [start_of_validationPhase env hstarted hvalid, hhandlers]
  exact Prog.bind_congr (orAbort_congr env hrun)

/-- **The calls of a start follow the plan.** -/
theorem issues_start {s s₁ : Sys W} (hstarted : s.machine.started = false)
    (hhandlers : s.machine.handlers = standardHandlers false none false)
    (hsnapshot : s₁.machine.cfg.hasSnapshot = false) (h : reachVmm env s = (.ok (), s₁)) :
    ∃ log e, clientLog (start env s).2.trace = clientLog s₁.trace ++ log ∧
      Plan.Follows (bootPlan s₁.machine.cfg s₁.machine.cfg.kernelArgs
        s₁.machine.cfg.networkInterfaces) log e ∧ Ends (start env s).1 e := by
  rw [start_of_reachVmm env hstarted hhandlers h]
  have hinstance : ∀ t : Sys W, t.machine.cfg = s₁.machine.cfg →
      Issues [some instanceStart] (startInstance env) t := by
    intro t ht
    refine issues_cfg ?_
    rw [ht, hsnapshot]
    exact issues_call env _ t
  obtain ⟨log, e, hlog, hfollows, hends, -⟩ :=
    issues_bind (issues_orAbort env (issues_configuring env s₁)) fun _ t _ ht =>
      issues_orAbort env (hinstance t ht)
  refine ⟨log, e, hlog, ?_, hends⟩
  simpa [bootPlan, List.map_map, Function.comp_def] using hfollows

end Machine

/-! ### New machines -/

/-- A machine without a jail and without a snapshot keeps the configuration that
`new_with_client` completes. -/
theorem newMachine_cfg {cfg : Config} {uuid cpuset : String} {opts : List Opt} {m : Machine}
    (h : newMachine cfg uuid cpuset opts = .ok m) (hjailer : cfg.jailerCfg = none)
    (hopts : opts.any Opt.isWithSnapshot = false) : m.cfg = completeConfig cfg uuid := by
  obtain ⟨m₀, h₀, rfl⟩ := newMachine_eq_ok h
  obtain rfl := Except.ok.inj ((newWithClient_plain hjailer uuid cpuset).symm.trans h₀)
  have hfold : ∀ m₀ : Machine,
      (opts.foldl (fun machine opt => opt.apply machine) m₀).cfg = m₀.cfg := by
    clear h
    induction opts with
    | nil => exact fun _ => rfl
    | cons opt opts ih =>
      rw [List.any_cons, Bool.or_eq_false_iff] at hopts
      intro m₀
      rw [List.foldl_cons, ih hopts.2]
      cases opt with
      | withProcessRunner command => rfl
      | withSnapshot memFilePath snapshotPath snapshotOpts => cases hopts.1
      | withEnvironment => rfl
  exact hfold _

/-- Which interfaces allow MMDS does not depend on how they are configured. -/
theorem mmdsInterfaceIds_map {f : NetworkInterface → NetworkInterface}
    (hf : ∀ iface, (f iface).allowMmds = iface.allowMmds) (index : ℕ)
    (ifaces : List NetworkInterface) :
    Machine.mmdsInterfaceIds index (ifaces.map f) = Machine.mmdsInterfaceIds index ifaces := by
  induction ifaces generalizing index with
  | nil => rfl
  | cons iface ifaces ih =>
    rw [List.map_cons, Machine.mmdsInterfaceIds, Machine.mmdsInterfaceIds, hf, ih]

/-- The plan depends on the configuration through its devices only. -/
theorem bootPlan_devices (cfg : Config) (kernelArgs : String) (ifaces : NetworkInterfaces) :
    bootPlan cfg.devices kernelArgs ifaces = bootPlan cfg kernelArgs ifaces := by
  have hmmds : mmdsPlan cfg.devices = mmdsPlan cfg := by
    have hids : Machine.mmdsInterfaceIds 0 cfg.devices.networkInterfaces =
        Machine.mmdsInterfaceIds 0 cfg.networkInterfaces :=
      mmdsInterfaceIds_map (f := NetworkInterface.unconfigured) (fun _ => rfl) 0 _
    unfold mmdsPlan
    rw [hids]
    rfl
  unfold bootPlan
  rw [hmmds]
  rfl

/-- No file may be linked. -/
def unlinked : Policy := { mayRelink := False }

/-- Reaching the VMM changes nothing but the boot line, the network namespace and the
configurations of the interfaces. -/
theorem Machine.reachVmm_devices {W : Type} (env : Env W) {s : Sys W}
    (hs : s.machine.handlers = standardHandlers false none false) :
    (reachVmm env s).2.machine.cfg.devices = s.machine.cfg.devices := by
  have hhandlers : ∀ handlers : List Handler,
      (∀ handler ∈ handlers, handler.func.linksFiles = false) →
      Within (Leads unlinked) (runHandlerList env handlers) := by
    intro handlers hlink
    refine runHandlerList_leads env handlers fun handler hmem => ?_
    by_cases hf : handler.func = .startVmm
    · rw [hf]
      exact fun s => startVmm_leads env trivial trivial trivial s fun _ _ => trivial
    · exact runHandler_leads env _ hf (.inr (hlink handler hmem)) fun _ _ => trivial
  have hvalid : Leads unlinked s (validationPhase env s).2 := by
    refine validationPhase_leads env ?_
    rw [hs]
    exact hhandlers _ (by decide)
  have hwalk : Leads unlinked s (reachVmm env s).2 :=
    bind_final hvalid fun _ _ => hvalid.trans (hhandlers _ (by decide) _)
  exact Walk.devices (fun h => h) hwalk

/-- **The client calls of a boot.** For every configuration without a snapshot and without a
jailer, every environment, and every start that reached the VMM and created the log files:
the calls from there on are a prefix of the plan, nothing follows a call that failed, a
start that fails stopped at such a call or before one that needs an interface without a
static configuration, and the start succeeds exactly when the whole plan was issued and
every call succeeded. -/
theorem boot_calls_follow_plan {W : Type} (env : Env W) {cfg : Config} {uuid cpuset : String}
    {opts : List Opt} {m : Machine} (hnew : newMachine cfg uuid cpuset opts = .ok m)
    (hjailer : cfg.jailerCfg = none) (hsnapshot : cfg.hasSnapshot = false)
    (hopts : opts.any Opt.isWithSnapshot = false) {s s₁ : Sys W} (hs : s.machine = m)
    (hreach : Machine.reachVmm env s = (.ok (), s₁)) :
    ∃ log,
      clientLog (Machine.start env s).2.trace = clientLog s₁.trace ++ log ∧
      Plan.requests log <+:
        bootPlan cfg s₁.machine.cfg.kernelArgs s₁.machine.cfg.networkInterfaces ∧
      (∀ before call error after, log = before ++ (call, some error) :: after → after = []) ∧
      (∀ e, (Machine.start env s).1 = .err e →
        (∃ before call error, log = before ++ [(call, some error)]) ∨
        ∃ rest, bootPlan cfg s₁.machine.cfg.kernelArgs s₁.machine.cfg.networkInterfaces =
          Plan.requests log ++ none :: rest) ∧
      ((Machine.start env s).1 = .ok () ↔
        Plan.requests log =
          bootPlan cfg s₁.machine.cfg.kernelArgs s₁.machine.cfg.networkInterfaces ∧
        ∀ entry ∈ log, entry.2 = none) ∧
      s₁.machine.cfg.networkInterfaces.map NetworkInterface.unconfigured =
        cfg.networkInterfaces.map NetworkInterface.unconfigured := by
  subst hs
  have hcfg := newMachine_cfg hnew hjailer hopts
  have hhandlers := newMachine_handlers hnew
  obtain ⟨b, hb⟩ := newMachine_machine hnew
  have hstarted : s.machine.started = false := by
    rw [hb]
    rfl
  rw [hjailer, linkName, hjailer, hsnapshot, hopts] at hhandlers
  -- so far only the network and the boot line have been prepared
  have hdevices : s₁.machine.cfg.devices = (completeConfig cfg uuid).devices := by
    have h := Machine.reachVmm_devices env hhandlers
    rwa [hreach, hcfg] at h
  have hplan : bootPlan s₁.machine.cfg = bootPlan cfg := by
    funext kernelArgs ifaces
    rw [← bootPlan_devices, hdevices, bootPlan_devices]
    rfl
  have hsnapshot₁ : s₁.machine.cfg.hasSnapshot = false :=
    (congrArg Config.hasSnapshot hdevices).trans hsnapshot
  obtain ⟨log, e, hlog, hfollows, hends⟩ :=
    Machine.issues_start env hstarted hhandlers hsnapshot₁ hreach
  rw [hplan] at hfollows
  refine ⟨log, hlog, hfollows.isPrefix, fun _ _ _ _ => hfollows.failure_last, ?_, ?_,
    congrArg Config.networkInterfaces hdevices⟩
  · -- a start that fails has ended its plan at the call that failed
    intro error herror
    rw [herror] at hends
    rw [show e = .failed from hends] at hfollows
    exact hfollows.failed
  · exact hends.ok_iff.trans hfollows.done_iff

/-- A configuration with a log, a drive, an interface and a vsock device. -/
def bootConfig : Config where
  socketPath := "/run/fc.sock"
  logPath := some "/run/fc.log"
  kernelImagePath := "/srv/vmlinux"
  drives := [{ driveId := some "1", pathOnHost := some "/srv/root.img", isRootDevice := some true }]
  networkInterfaces :=
    [{ staticConfiguration := some { hostDevName := "tap0" }, allowMmds := true }]
  vsockDevices := [{ id := "agent", path := "/run/agent.sock", cid := 3 }]
  disableValidation := true

/-- The machine made of it. -/
def bootMachine : Sys Unit := (plainBlueprint bootConfig "vm").initial 0 ()

theorem boot_calls_follow_plan_sample :
    (Machine.start (Env.answering Query.smooth) bootMachine).1 = .ok () ∧
    ∃ log, clientLog (Machine.start (Env.answering Query.smooth) bootMachine).2.trace =
        clientLog (Machine.reachVmm (Env.answering Query.smooth) bootMachine).2.trace ++ log ∧
      Plan.requests log = bootPlan bootConfig
        (Machine.reachVmm (Env.answering Query.smooth) bootMachine).2.machine.cfg.kernelArgs
        (Machine.reachVmm (Env.answering Query.smooth)
          bootMachine).2.machine.cfg.networkInterfaces := by
  have hok : (Machine.start (Env.answering Query.smooth) bootMachine).1 = .ok () := by
    decide +kernel
  have hreached : (Machine.reachVmm (Env.answering Query.smooth) bootMachine).1 = .ok () := by
    decide +kernel
  have hnew : newMachine bootConfig "vm" "" [] = .ok bootMachine.machine := by
    rw [newMachine, newWithClient_plain rfl]
    rfl
  obtain ⟨log, hlog, -, -, -, hiff, -⟩ := boot_calls_follow_plan (Env.answering Query.smooth) hnew
    rfl (by decide +kernel) rfl rfl (eq_of_fst hreached)
  exact ⟨hok, log, hlog, (hiff.mp hok).1⟩

end FirecrackerSdk
