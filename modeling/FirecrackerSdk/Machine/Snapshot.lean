import FirecrackerSdk.Machine.Boot

/-!
# The calls of a start from a snapshot

The VMM loads a snapshot only as long as nothing but the logger and the metrics has been
configured. A start from a snapshot runs the handlers of a boot less those that
configure something, followed by the one that loads the snapshot; but the handler that adds
the vsock devices is not among those taken away. So the calls of such a start are in order
exactly when there are no vsock devices, or the start does not get as far as adding them
(`FirecrackerSdk.snapshot_calls_iff`).
-/

namespace FirecrackerSdk

open Prog

/-! ### What may be called before a snapshot is loaded -/

/-- The calls that may come before `load_snapshot`. -/
def ClientCall.allowedBeforeLoad : ClientCall → Bool
  | .getMachineConfiguration => true
  | .putLogger _ => true
  | .putMetrics _ => true
  | _ => false

/-- Whether a call loads a snapshot. -/
def ClientCall.isLoadSnapshot : ClientCall → Bool
  | .loadSnapshot _ => true
  | _ => false

/-- The entries of a log before a snapshot is loaded. -/
def beforeLoad (log : List (ClientCall × Option Error)) : List (ClientCall × Option Error) :=
  log.takeWhile fun entry => !entry.1.isLoadSnapshot

/-- **Nothing but the logger and the metrics is configured before a snapshot is loaded.** -/
def OnlyLoggingBeforeLoad (log : List (ClientCall × Option Error)) : Prop :=
  ∀ entry ∈ beforeLoad log, entry.1.allowedBeforeLoad = true

/-- Calls that are allowed do not load a snapshot. -/
theorem beforeLoad_append {log : List (ClientCall × Option Error)}
    (h : ∀ entry ∈ log, entry.1.allowedBeforeLoad = true)
    (log' : List (ClientCall × Option Error)) :
    beforeLoad (log ++ log') = log ++ beforeLoad log' := by
  refine List.takeWhile_append_of_pos fun entry hmem => ?_
  have hallowed := h entry hmem
  cases hcall : entry.1 with
  | loadSnapshot params =>
    rw [hcall] at hallowed
    cases hallowed
  | _ => rfl

theorem onlyLogging_append_iff {log : List (ClientCall × Option Error)}
    (h : ∀ entry ∈ log, entry.1.allowedBeforeLoad = true)
    (log' : List (ClientCall × Option Error)) :
    OnlyLoggingBeforeLoad (log ++ log') ↔ OnlyLoggingBeforeLoad log' := by
  unfold OnlyLoggingBeforeLoad
  rw [beforeLoad_append h]
  constructor
  · intro hall entry hmem
    exact hall entry (List.mem_append_right _ hmem)
  · intro hall entry hmem
    rcases List.mem_append.mp hmem with hmem | hmem
    · exact h entry hmem
    · exact hall entry hmem

theorem onlyLogging_of_allowed {log : List (ClientCall × Option Error)}
    (h : ∀ entry ∈ log, entry.1.allowedBeforeLoad = true) : OnlyLoggingBeforeLoad log :=
  fun entry hmem => h entry ((List.takeWhile_sublist _).subset hmem)

/-! ### The start -/

/-- Client calls are made to look at the VMM and to configure logging only. -/
def loggingOnly : Policy := { mayCall := fun c => c.allowedBeforeLoad = true }

namespace Machine

variable {W : Type} (env : Env W)

/-- The initialising handlers that come before the vsock devices are added. -/
def snapshotPrelude (link : Option String) : List Handler :=
  [setupNetworkHandler, startVmmHandler, createLogFilesHandler] ++
    (link.map linkFilesHandler).toList ++ [bootstrapLoggingHandler]

/-- A start from a snapshot up to the handler that adds the vsock devices. -/
def beforeVsocks (link : Option String) : Op W Unit := do
  validationPhase env
  runHandlerList env (snapshotPrelude link)

/-- The start gets as far as its first vsock call. -/
def ReachesVsocks (link : Option String) (s : Sys W) : Prop :=
  (beforeVsocks env link s).1 = .ok () ∧
    (env.answer (.await .client) (beforeVsocks env link s).2.world).1 = false

theorem start_of_snapshot {s : Sys W} {jailed : Bool} {link : Option String}
    (hstarted : s.machine.started = false)
    (hhandlers : s.machine.handlers = standardHandlers jailed link true) :
    start env s =
      (orAbort env (beforeVsocks env link >>= fun _ =>
        runHandlerList env [addVsocksHandler, loadSnapshotHandler]) >>= fun _ =>
          orAbort env (startInstance env)) s := by
  have hinit : s.machine.handlers.fcInit =
      snapshotPrelude link ++ [addVsocksHandler, loadSnapshotHandler] := by
    rw [hhandlers]
    cases link <;> rfl
  rw [start_eq env hstarted, hinit, runHandlerList_append, ← Prog.bind_assoc]
  rfl

/-- Whether a handler configures nothing but logging. -/
def preparesLoad : HandlerFn → Bool
  | .createMachine | .createBootSource | .attachDrives | .createNetworkInterfaces => false
  | .addVsocks | .setMetadata _ | .configMmds | .loadSnapshot => false
  | _ => true

theorem preparesLoad_issues {f : HandlerFn} (hf : preparesLoad f = true) {c : ClientCall}
    (hc : f.issues c) : c.allowedBeforeLoad = true := by
  cases f <;> cases c <;> first | rfl | exact hc.elim | cases hf

theorem runHandlerList_loggingOnly {handlers : List Handler}
    (h : handlers.all (fun handler => preparesLoad handler.func) = true) :
    Within (Leads loggingOnly) (runHandlerList env handlers) := by
  rw [List.all_eq_true] at h
  refine runHandlerList_leads env handlers fun handler hmem => ?_
  by_cases hstart : handler.func = .startVmm
  · rw [hstart]
    exact fun s => startVmm_leads env trivial trivial rfl s fun _ _ => trivial
  · exact runHandler_leads env _ hstart (.inl trivial) fun c => preparesLoad_issues (h handler hmem)

theorem beforeVsocks_leads {s : Sys W} {jailed : Bool} {link : Option String}
    (hhandlers : s.machine.handlers = standardHandlers jailed link true) :
    Leads loggingOnly s (beforeVsocks env link s).2 := by
  have hvalid : Leads loggingOnly s (validationPhase env s).2 := by
    refine validationPhase_leads env ?_
    rw [hhandlers]
    refine runHandlerList_loggingOnly env ?_
    cases jailed <;> rfl
  refine bind_final hvalid fun _ _ => hvalid.trans (runHandlerList_loggingOnly env ?_ _)
  cases link <;> rfl

/-- What a walk of that kind adds to the log is allowed. -/
theorem clientLog_of_loggingOnly {s s' : Sys W} (h : Leads loggingOnly s s') :
    ∃ log, clientLog s'.trace = clientLog s.trace ++ log ∧
      ∀ entry ∈ log, entry.1.allowedBeforeLoad = true := by
  obtain ⟨events, htrace, -, hcalls⟩ := Walk.trace h
  change s'.trace = s.trace ++ events at htrace
  exact ⟨clientLog events, by rw [htrace, clientLog_append], hcalls⟩

/-- A start whose handlers do not return ends with giving up. -/
theorem start_of_not_ok {p : Policy} (hstop : p.mayDrain .abortStop) (habort : p.mayDrain .abort)
    {x : Op W Unit} {s : Sys W} (hx : Leads p s (x s).2) (hne : (x s).1 ≠ .ok ()) :
    Leads p s ((orAbort env x >>= fun _ => orAbort env (startInstance env)) s).2 := by
  obtain ⟨o, s', h, hl, ho⟩ := orAbort_spec env hstop habort x s hx
  rcases ho with rfl | ⟨rfl, hok⟩ | ⟨f, rfl, -, -⟩
  · rw [bind_of_dropped h]
    exact hl
  · rw [hok] at hne
    exact absurd rfl hne
  · rw [bind_of_err h]
    exact hl

/-- From the vsock devices on, the calls follow a plan. -/
theorem issues_vsocks (s : Sys W) :
    ∃ plan, Issues (((s.machine.cfg.vsockDevices.map vsockCall).map some ++
      (some (.loadSnapshot
        { memFilePath := s.machine.cfg.snapshot.memFilePath
          memBackend := s.machine.cfg.snapshot.memBackend
          snapshotPath := s.machine.cfg.snapshot.snapshotPath
          enableDiffSnapshots := s.machine.cfg.snapshot.enableDiffSnapshots
          resumeVm := s.machine.cfg.snapshot.resumeVm }) :: [])) ++ plan)
      (orAbort env (runHandlerList env [addVsocksHandler, loadSnapshotHandler]) >>= fun _ =>
        orAbort env (startInstance env)) s := by
  refine ⟨if s.machine.cfg.hasSnapshot then [] else [some instanceStart],
    issues_bind (issues_orAbort env ?_) fun _ s₂ _ h₂ => issues_orAbort env ?_⟩
  · refine issues_bind (issues_cfg (issues_callAll env _ s)) fun _ s₁ _ h₁ => ?_
    rw [← h₁, ← List.append_nil [_]]
    exact issues_bind (issues_cfg (issues_call env _ s₁)) fun _ s₂ _ _ => issues_pure () s₂
  · rw [← h₂]
    refine issues_cfg ?_
    split
    · exact issues_pure () s₂
    · exact issues_call env _ s₂

/-- The first vsock call is put on record, unless the future is dropped there. -/
theorem vsock_logged {s : Sys W} {device : VsockDevice} {devices : List VsockDevice}
    (hdevices : s.machine.cfg.vsockDevices = device :: devices)
    (hawait : (env.answer (.await .client) s.world).1 = false) :
    ∃ failure log, clientLog
      ((orAbort env (runHandlerList env [addVsocksHandler, loadSnapshotHandler]) >>= fun _ =>
        orAbort env (startInstance env)) s).2.trace =
      clientLog s.trace ++ (vsockCall device, failure) :: log := by
  let Logged : Sys W → Prop := fun t =>
    ∃ failure log, clientLog t.trace = clientLog s.trace ++ (vsockCall device, failure) :: log
  -- whatever happens afterwards adds to the log
  have hlater : ∀ {t u : Sys W}, Logged t → Leads anything t u → Logged u := by
    rintro t u ⟨failure, log, ht⟩ hl
    obtain ⟨events, htrace, -⟩ := Walk.trace hl
    change u.trace = t.trace ++ events at htrace
    exact ⟨failure, log ++ clientLog events, by rw [htrace, clientLog_append, ht]; simp⟩
  have hcall : Logged (Op.call env (vsockCall device) s).2 := by
    unfold Op.call Op.await
    cases hr : (env.answer (.client (vsockCall device))
        (env.answer (.await .client) s.world).2).1 with
    | ok a => exact ⟨none, [], by simp [bind_apply, Op.ask, Op.emit, hawait, hr, clientLog]⟩
    | error e => exact ⟨some e, [], by simp [bind_apply, Op.ask, Op.emit, hawait, hr, clientLog]⟩
  have hvsocks : Logged (addVsocks env s).2 := by
    unfold addVsocks
    rw [Op.cfg_bind, hdevices]
    refine bind_final hcall fun _ _ => hlater hcall ?_
    exact (passive_leads env).callAll _ (fun _ _ => trivial) _
  have hhandlers : Logged (runHandlerList env [addVsocksHandler, loadSnapshotHandler] s).2 :=
    bind_final hvsocks fun _ _ => hlater hvsocks (runHandlerList_anything env _ _)
  have habort := hlater hhandlers (orAbort_after env (p := anything) trivial trivial _ s)
  refine bind_final habort fun _ _ => hlater habort ?_
  exact orAbort_leads env trivial trivial
    ((passive_leads env).startInstance trivial) _

/-- A future that is dropped at the first vsock call has made none. -/
theorem addVsocks_dropped {s : Sys W} {device : VsockDevice} {devices : List VsockDevice}
    (hdevices : s.machine.cfg.vsockDevices = device :: devices)
    (hawait : (env.answer (.await .client) s.world).1 = true) :
    runHandlerList env [addVsocksHandler, loadSnapshotHandler] s =
      (.dropped, { s with world := (env.answer (.await .client) s.world).2 }) := by
  refine bind_of_dropped ?_
  change addVsocks env s = _
  unfold addVsocks
  rw [Op.cfg_bind, hdevices]
  refine bind_of_dropped ?_
  unfold Op.call Op.await
  refine bind_of_dropped ?_
  rw [Op.ask_bind, hawait]
  rfl

end Machine

/-- A part of the configuration that is neither the socket nor the snapshot, and that needs no
completion, is that of the new machine. -/
theorem newMachine_keeps {α : Type} {f : Config → α} {cfg : Config} {uuid cpuset : String}
    {opts : List Opt} {m : Machine} (h : newMachine cfg uuid cpuset opts = .ok m)
    (hcomplete : f (completeConfig cfg uuid) = f cfg)
    (hsocket : ∀ cfg path, f { cfg with socketPath := path } = f cfg)
    (hsnapshot : ∀ cfg snapshot, f { cfg with snapshot := snapshot } = f cfg) :
    f m.cfg = f cfg := by
  refine newMachine_induct (P := fun m => f m.cfg = f cfg) h (fun m₀ h₀ => ?_) fun opt m hm => ?_
  · obtain ⟨socketPath, hcfg⟩ := newWithClient_cfg h₀
    rw [hcfg, hsocket, hcomplete]
  · cases opt with
    | withProcessRunner command => exact hm
    | withSnapshot memFilePath snapshotPath snapshotOpts => exact (hsnapshot m.cfg _).trans hm
    | withEnvironment => exact hm

/-- The vsock devices of a new machine are those of its configuration. -/
theorem newMachine_vsockDevices {cfg : Config} {uuid cpuset : String} {opts : List Opt}
    {m : Machine} (h : newMachine cfg uuid cpuset opts = .ok m) :
    m.cfg.vsockDevices = cfg.vsockDevices :=
  newMachine_keeps (f := Config.vsockDevices) h rfl (fun _ _ => rfl) fun _ _ => rfl

/-- **The calls of a start from a snapshot.** For every configuration and every list of
options that select snapshot loading, with or without a jailer, and in every environment:
nothing but the logger and the metrics is configured before the snapshot is loaded if and
only if there are no vsock devices, unless the start ends before its first vsock call. -/
theorem snapshot_calls_iff {W : Type} (env : Env W) {cfg : Config} {uuid cpuset : String}
    {opts : List Opt} {m : Machine} (hnew : newMachine cfg uuid cpuset opts = .ok m)
    (hselected : (cfg.hasSnapshot || opts.any Opt.isWithSnapshot) = true) {s : Sys W}
    (hs : s.machine = m) (htrace : s.trace = []) :
    OnlyLoggingBeforeLoad (clientLog (Machine.start env s).2.trace) ↔
      (Machine.ReachesVsocks env (linkName cfg) s → cfg.vsockDevices = []) := by
  subst hs
  have hhandlers := newMachine_handlers hnew
  rw [hselected] at hhandlers
  have hstarted : s.machine.started = false := by
    obtain ⟨b, hb⟩ := newMachine_machine hnew
    rw [hb]
    rfl
  have hempty : clientLog s.trace = [] := by
    rw [htrace]
    rfl
  rw [Machine.start_of_snapshot env hstarted hhandlers]
  have hwalk := Machine.beforeVsocks_leads env hhandlers
  by_cases hok : (Machine.beforeVsocks env (linkName cfg) s).1 = .ok ()
  · -- the handlers before the vsocks have returned
    set s₁ := (Machine.beforeVsocks env (linkName cfg) s).2 with hs₁
    obtain ⟨log₁, hlog₁, hallowed⟩ := Machine.clientLog_of_loggingOnly hwalk
    rw [hempty, List.nil_append] at hlog₁
    have hdevices : s₁.machine.cfg.vsockDevices = cfg.vsockDevices :=
      (Walk.vsockDevices hwalk).trans (newMachine_vsockDevices hnew)
    rw [Prog.bind_congr (Machine.orAbort_congr env (bind_of_ok (eq_of_fst hok)))]
    cases hcfg : cfg.vsockDevices with
    | nil =>
      -- without vsocks the next call loads the snapshot
      obtain ⟨plan, log, e, hlog, hfollows, -⟩ := Machine.issues_vsocks env s₁
      refine ⟨fun _ _ => rfl, fun _ => ?_⟩
      rw [hlog, hlog₁]
      rw [hdevices, hcfg] at hfollows
      refine (onlyLogging_append_iff hallowed log).mpr ?_
      cases hfollows with
      | interrupted => exact fun _ hmem => nomatch hmem
      | made _ => exact fun _ hmem => nomatch hmem
      | refused => exact fun _ hmem => nomatch hmem
    | cons device devices =>
      rw [hcfg] at hdevices
      cases hawait : (env.answer (.await .client) s₁.world).1 with
      | false =>
        -- the call for the first vsock is made, and it comes before the load
        obtain ⟨failure, log, hlog⟩ := Machine.vsock_logged env hdevices hawait
        rw [hlog, hlog₁]
        refine ⟨fun hall => ?_, fun h => nomatch h ⟨hok, hawait⟩⟩
        have hvsock := (onlyLogging_append_iff hallowed _).mp hall
          (Machine.vsockCall device, failure) List.mem_cons_self
        cases hvsock
      | true =>
        -- the future is dropped there, and no call is made
        refine ⟨fun _ hreach => ?_, fun _ => ?_⟩
        · rw [hreach.2] at hawait
          cases hawait
        · have hdropped := Machine.addVsocks_dropped env hdevices hawait
          have hwalk₁ : Leads loggingOnly s₁ ((Machine.runHandlerList env
              [addVsocksHandler, loadSnapshotHandler] s₁).2) := by
            rw [hdropped]
            exact .of_eq rfl
          have hend := Machine.start_of_not_ok env trivial trivial hwalk₁ (by rw [hdropped]; simp)
          obtain ⟨log, hlog, hall⟩ := Machine.clientLog_of_loggingOnly (hwalk.trans hend)
          rw [hlog, hempty]
          exact onlyLogging_of_allowed hall
  · -- the start ends before the vsocks
    refine ⟨fun _ hreach => absurd hreach.1 hok, fun _ => ?_⟩
    obtain ⟨hsame, hne⟩ := bind_of_not_ok (x := Machine.beforeVsocks env (linkName cfg)) (s := s)
      (f := fun _ => Machine.runHandlerList env [addVsocksHandler, loadSnapshotHandler])
      fun _ => hok
    have hend := Machine.start_of_not_ok env trivial trivial (hsame ▸ hwalk) (hne ())
    obtain ⟨log, hlog, hall⟩ := Machine.clientLog_of_loggingOnly hend
    rw [hlog, hempty]
    exact onlyLogging_of_allowed hall

/-- A configuration that names a snapshot. -/
def snapshotConfig (devices : List VsockDevice) : Config where
  socketPath := "/run/fc.sock"
  disableValidation := true
  snapshot := { memFilePath := some "/srv/mem", snapshotPath := some "/srv/vmstate" }
  vsockDevices := devices

/-- The machine made of it. -/
def snapshotMachine (devices : List VsockDevice) : Sys Unit :=
  (plainBlueprint (snapshotConfig devices) "vm").initial 0 ()

/-- Without vsock devices the calls are in order. -/
theorem snapshot_calls_without_vsocks :
    OnlyLoggingBeforeLoad
      (clientLog (Machine.start (Env.answering Query.smooth) (snapshotMachine [])).2.trace) := by
  have hnew : newMachine (snapshotConfig []) "vm" "" [] = .ok (snapshotMachine []).machine := by
    rw [newMachine, newWithClient_plain rfl]
    rfl
  exact (snapshot_calls_iff (Env.answering Query.smooth) hnew (by decide +kernel) rfl rfl).mpr
    fun _ => rfl

/-- With one, the device is configured before the snapshot is loaded. -/
theorem vsock_before_load :
    ¬ OnlyLoggingBeforeLoad (clientLog (Machine.start (Env.answering Query.smooth)
      (snapshotMachine [{ id := "agent", path := "/run/agent.sock", cid := 3 }])).2.trace) := by
  unfold OnlyLoggingBeforeLoad
  decide +kernel

end FirecrackerSdk
