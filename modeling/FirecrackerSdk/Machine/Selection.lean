import FirecrackerSdk.Machine.Snapshot

/-!
# Loading a snapshot or booting

Whether a start loads a snapshot is decided twice: once when the machine is made, by the list of
handlers, and once when the instance is to be started, by what the configuration then says.
`new_with_client` looks at the configuration before it edits the list. The option `with_snapshot`
edits it in any case, also where its paths are empty and leave the configuration without a
snapshot. So the two decisions agree exactly if the last such option names a snapshot
(`FirecrackerSdk.namesSnapshot`), and that is when a start that returns has either loaded a
snapshot or booted, and one of them once.
-/

namespace FirecrackerSdk

open Prog

/-! ### What the options leave -/

/-- Whether there is a snapshot to load. -/
def SnapshotConfig.named (snapshot : SnapshotConfig) : Bool :=
  snapshot.getMemBackendPath.isSome || snapshot.snapshotPath.isSome

theorem hasSnapshot_eq (cfg : Config) : cfg.hasSnapshot = cfg.snapshot.named := rfl

/-- What an option makes of the snapshot of a configuration. -/
def Opt.snapshot : Opt → SnapshotConfig → SnapshotConfig
  | .withSnapshot memFilePath snapshotPath opts, _ =>
    opts.foldl (fun snapshot opt => opt snapshot)
      (SnapshotConfig.withPaths memFilePath snapshotPath)
  | _, snapshot => snapshot

/-- The last option that selects a snapshot, if there is one, names it. -/
def namesSnapshot (opts : List Opt) : Bool :=
  match opts.reverse.find? Opt.isWithSnapshot with
  | none => true
  | some opt => (opt.snapshot {}).named

theorem namesSnapshot_of_none {opts : List Opt} (h : opts.any Opt.isWithSnapshot = false) :
    namesSnapshot opts = true := by
  have hnone : opts.reverse.find? Opt.isWithSnapshot = none := by
    refine List.find?_eq_none.mpr fun opt hmem hopt => ?_
    rw [List.any_eq_false] at h
    exact h opt (List.mem_reverse.mp hmem) hopt
  rw [namesSnapshot, hnone]

theorem apply_snapshot (opt : Opt) (m : Machine) :
    (opt.apply m).cfg.snapshot = opt.snapshot m.cfg.snapshot := by
  cases opt <;> rfl

theorem foldl_apply_snapshot (opts : List Opt) (m : Machine) :
    (opts.foldl (fun machine opt => opt.apply machine) m).cfg.snapshot =
      opts.foldl (fun snapshot opt => opt.snapshot snapshot) m.cfg.snapshot := by
  induction opts generalizing m with
  | nil => rfl
  | cons opt opts ih =>
    rw [List.foldl_cons, List.foldl_cons, ih, apply_snapshot]

/-- The snapshot after all options is the one of the last that selects one. -/
theorem foldl_snapshot_named (opts : List Opt) (snapshot : SnapshotConfig) :
    (opts.foldl (fun snapshot opt => opt.snapshot snapshot) snapshot).named =
      if opts.any Opt.isWithSnapshot then namesSnapshot opts else snapshot.named := by
  induction opts using List.reverseRecOn with
  | nil => rfl
  | append_singleton opts opt ih =>
    rw [List.foldl_append, List.any_append, namesSnapshot, List.reverse_append]
    cases opt with
    | withSnapshot memFilePath snapshotPath snapshotOpts =>
      rw [List.reverse_singleton, List.singleton_append, List.find?_cons_of_pos rfl]
      simp [Opt.isWithSnapshot, Opt.snapshot]
    | withProcessRunner command => simpa [Opt.isWithSnapshot, Opt.snapshot, namesSnapshot] using ih
    | withEnvironment => simpa [Opt.isWithSnapshot, Opt.snapshot, namesSnapshot] using ih

theorem newWithClient_snapshot {cfg : Config} {uuid cpuset : String} {m : Machine}
    (h : newWithClient cfg uuid cpuset = .ok m) : m.cfg.snapshot = cfg.snapshot := by
  obtain ⟨socketPath, hcfg⟩ := newWithClient_cfg h
  rw [hcfg]
  rfl

/-- No option turns validation on or off. -/
theorem newMachine_disableValidation {cfg : Config} {uuid cpuset : String} {opts : List Opt}
    {m : Machine} (h : newMachine cfg uuid cpuset opts = .ok m) :
    m.cfg.disableValidation = cfg.disableValidation :=
  newMachine_keeps (f := Config.disableValidation) h rfl (fun _ _ => rfl) fun _ _ => rfl

/-- **What the configuration of a new machine says**, after its options. -/
theorem newMachine_hasSnapshot {cfg : Config} {uuid cpuset : String} {opts : List Opt}
    {m : Machine} (h : newMachine cfg uuid cpuset opts = .ok m) :
    m.cfg.hasSnapshot =
      if opts.any Opt.isWithSnapshot then namesSnapshot opts else cfg.hasSnapshot := by
  obtain ⟨m₀, h₀, rfl⟩ := newMachine_eq_ok h
  rw [hasSnapshot_eq, foldl_apply_snapshot, foldl_snapshot_named, newWithClient_snapshot h₀]
  rfl

/-! ### What a start calls -/

/-- How many times a log loads a snapshot. -/
def loads (log : List (ClientCall × Option Error)) : ℕ :=
  log.countP fun entry => entry.1.isLoadSnapshot

/-- How many times a log starts the instance. -/
def boots (log : List (ClientCall × Option Error)) : ℕ :=
  log.countP fun entry => decide (entry.1 = Machine.instanceStart)

/-- Neither a snapshot may be loaded nor the instance be started. -/
def preparing : Policy :=
  { mayCall := fun c => c.isLoadSnapshot = false ∧ c ≠ Machine.instanceStart }

/-- Nothing changes which snapshot the configuration names. -/
theorem Walk.snapshot {p : Policy} {l l' : Ledger} (h : Walk p l l') :
    l'.devices.snapshot = l.devices.snapshot := by
  refine Walk.invariant (I := fun l' => l'.devices.snapshot = l.devices.snapshot)
    (fun l₁ l₂ hstep hl => ?_) h rfl
  cases hstep with
  | finalize _ _ _ _ hdrain _ => cases hdrain <;> exact hl
  | abort _ _ _ _ _ hdrain _ _ => cases hdrain <;> exact hl
  | _ => exact hl

namespace Machine

variable {W : Type} (env : Env W)

/-- What a walk of that kind adds to the log neither loads nor boots. -/
theorem clientLog_of_preparing {s s' : Sys W} (h : Leads preparing s s') :
    ∃ log, clientLog s'.trace = clientLog s.trace ++ log ∧ loads log = 0 ∧ boots log = 0 := by
  obtain ⟨events, htrace, -, hcalls⟩ := Walk.trace h
  change s'.trace = s.trace ++ events at htrace
  refine ⟨clientLog events, by rw [htrace, clientLog_append], ?_, ?_⟩
  · refine List.countP_eq_zero.mpr fun entry hmem => ?_
    rw [(hcalls entry hmem).1]
    exact Bool.false_ne_true
  · refine List.countP_eq_zero.mpr fun entry hmem => ?_
    rw [decide_eq_true_eq]
    exact (hcalls entry hmem).2

/-- Whether a handler neither loads a snapshot nor starts the instance. -/
def preparesStart : HandlerFn → Bool
  | .loadSnapshot => false
  | _ => true

theorem preparesStart_issues {f : HandlerFn} (hf : preparesStart f = true) {c : ClientCall}
    (hc : f.issues c) : preparing.mayCall c := by
  cases f <;> cases c <;> first | exact hc.elim | exact ⟨rfl, nofun⟩ | cases hf

theorem runHandlerList_preparing {handlers : List Handler}
    (h : handlers.all (fun handler => preparesStart handler.func) = true) :
    Within (Leads preparing) (runHandlerList env handlers) := by
  rw [List.all_eq_true] at h
  refine runHandlerList_leads env handlers fun handler hmem => ?_
  by_cases hstart : handler.func = .startVmm
  · have hget : preparing.mayCall .getMachineConfiguration := ⟨rfl, nofun⟩
    rw [hstart]
    exact fun s => startVmm_leads env trivial trivial hget s fun _ _ => trivial
  · exact runHandler_leads env _ hstart (.inl trivial) fun c =>
      preparesStart_issues (h handler hmem)

/-- A call that has returned is on record. -/
theorem call_log {c : ClientCall} {s s' : Sys W} (h : Op.call env c s = (.ok (), s')) :
    clientLog s'.trace = clientLog s.trace ++ [(c, none)] := by
  obtain ⟨log, e, hlog, hfollows, hends, -⟩ := issues_call env c s
  rw [h] at hlog hends
  obtain rfl : e = .done := hends
  cases hfollows with
  | made hrest =>
    cases hrest
    exact hlog

/-- What has been called when starting the instance has returned. -/
theorem startInstance_log {s s' : Sys W} (h : startInstance env s = (.ok (), s')) :
    ∃ log, clientLog s'.trace = clientLog s.trace ++ log ∧ loads log = 0 ∧
      boots log = if s.machine.cfg.hasSnapshot then 0 else 1 := by
  unfold startInstance at h
  rw [Op.cfg_bind] at h
  cases hsnapshot : s.machine.cfg.hasSnapshot with
  | true =>
    rw [hsnapshot] at h
    obtain rfl := (Prod.mk.inj h).2
    exact ⟨[], (List.append_nil _).symm, rfl, rfl⟩
  | false =>
    rw [hsnapshot] at h
    exact ⟨_, call_log env h, rfl, rfl⟩

/-- What has been called when loading the snapshot has returned. -/
theorem loadSnapshot_log {s s' : Sys W}
    (h : runHandlerList env [loadSnapshotHandler] s = (.ok (), s')) :
    ∃ log, clientLog s'.trace = clientLog s.trace ++ log ∧ loads log = 1 ∧ boots log = 0 := by
  obtain ⟨_, s₁, hload, hrest⟩ := bind_eq_ok.mp h
  obtain rfl := (Prod.mk.inj hrest).2
  change (Op.cfg >>= _) s = _ at hload
  rw [Op.cfg_bind] at hload
  exact ⟨_, call_log env hload, rfl, rfl⟩

/-- A step that returns has not been given up. -/
theorem ok_of_orAbort {x : Op W Unit} {s s' : Sys W} (h : orAbort env x s = (.ok (), s')) :
    x s = (.ok (), s') := by
  rcases hx : x s with ⟨a | e | _, s₁⟩
  · rw [orAbort_of_ok env hx] at h
    exact h
  · rw [orAbort_of_err env hx] at h
    obtain ⟨f, s₂, -, hfail⟩ := bind_eq_ok.mp h
    cases hfail
  · rw [orAbort_of_dropped env hx] at h
    cases h

/-- The initialising handlers of a new machine but for the last one of a start from a
snapshot. -/
def preparingInit (link : Option String) (snapshot : Bool) : List Handler :=
  [setupNetworkHandler] ++ (if snapshot then [] else [setupKernelArgsHandler]) ++
    [startVmmHandler, createLogFilesHandler] ++ (link.map linkFilesHandler).toList ++
    [bootstrapLoggingHandler] ++
    (if snapshot then [addVsocksHandler]
      else [createMachineHandler, createBootSourceHandler, attachDrivesHandler,
        createNetworkInterfacesHandler, addVsocksHandler, configMmdsHandler])

theorem standardInit_eq (link : Option String) (snapshot : Bool) :
    standardInit link snapshot =
      preparingInit link snapshot ++ if snapshot then [loadSnapshotHandler] else [] := by
  cases link <;> cases snapshot <;> rfl

/-- **What a start that returns has called**: it has loaded a snapshot if its handlers say so,
and has booted unless its configuration names a snapshot. -/
theorem start_log {s s' : Sys W} {jailed : Bool} {link : Option String} {snapshot : Bool}
    (hstarted : s.machine.started = false)
    (hhandlers : s.machine.handlers = standardHandlers jailed link snapshot)
    (h : start env s = (.ok (), s')) :
    ∃ log, clientLog s'.trace = clientLog s.trace ++ log ∧
      loads log = (if snapshot then 1 else 0) ∧
      boots log = if s.machine.cfg.hasSnapshot then 0 else 1 := by
  rw [start_eq env hstarted] at h
  obtain ⟨_, s₃, hinit, hinstance⟩ := bind_eq_ok.mp h
  obtain ⟨_, s₁, hvalid, hinit⟩ := bind_eq_ok.mp (ok_of_orAbort env hinit)
  have hfcInit : s.machine.handlers.fcInit =
      preparingInit link snapshot ++ if snapshot then [loadSnapshotHandler] else [] := by
    rw [hhandlers]
    exact standardInit_eq link snapshot
  rw [hfcInit, runHandlerList_append] at hinit
  obtain ⟨_, s₂, hprepare, hload⟩ := bind_eq_ok.mp hinit
  -- up to the last handler
  have hwalk₁ : Leads preparing s s₁ := by
    have hl := validationPhase_leads env (p := preparing) (s := s) ?_
    · rwa [hvalid] at hl
    · rw [hhandlers]
      refine runHandlerList_preparing env ?_
      cases jailed <;> cases snapshot <;> rfl
  have hwalk₂ : Leads preparing s₁ s₂ := by
    have hall : (preparingInit link snapshot).all
        (fun handler => preparesStart handler.func) = true := by
      cases link <;> cases snapshot <;> rfl
    have hl := runHandlerList_preparing env hall s₁
    rwa [hprepare] at hl
  obtain ⟨log₂, hlog₂, hloads₂, hboots₂⟩ := clientLog_of_preparing (hwalk₁.trans hwalk₂)
  have hsnapshot : s₃.machine.cfg.hasSnapshot = s.machine.cfg.hasSnapshot := by
    have hwalk₃ := runHandlerList_anything env (if snapshot then [loadSnapshotHandler] else []) s₂
    rw [hload] at hwalk₃
    rw [hasSnapshot_eq, hasSnapshot_eq]
    refine congrArg SnapshotConfig.named ?_
    exact (Walk.snapshot hwalk₃).trans (Walk.snapshot (hwalk₁.trans hwalk₂))
  -- the last handler
  obtain ⟨log₃, hlog₃, hloads₃, hboots₃⟩ : ∃ log, clientLog s₃.trace = clientLog s₂.trace ++ log ∧
      loads log = (if snapshot then 1 else 0) ∧ boots log = 0 := by
    cases snapshot with
    | true => exact loadSnapshot_log env hload
    | false =>
      obtain rfl := (Prod.mk.inj hload).2
      exact ⟨[], (List.append_nil _).symm, rfl, rfl⟩
  obtain ⟨log₄, hlog₄, hloads₄, hboots₄⟩ := startInstance_log env (ok_of_orAbort env hinstance)
  rw [hsnapshot] at hboots₄
  refine ⟨log₂ ++ (log₃ ++ log₄), ?_, ?_, ?_⟩
  · rw [hlog₄, hlog₃, hlog₂, List.append_assoc, List.append_assoc]
  · rw [loads, List.countP_append, List.countP_append]
    change loads log₂ + (loads log₃ + loads log₄) = _
    rw [hloads₂, hloads₃, hloads₄, Nat.zero_add, Nat.add_zero]
  · rw [boots, List.countP_append, List.countP_append]
    change boots log₂ + (boots log₃ + boots log₄) = _
    rw [hboots₂, hboots₃, hboots₄, Nat.zero_add, Nat.zero_add]

/-- A configuration that passes the check for loading names a snapshot. -/
theorem hasSnapshot_of_validation {s s' : Sys W}
    (h : runHandlerList env [loadSnapshotConfigValidationHandler] s = (.ok (), s')) :
    s.machine.cfg.hasSnapshot = true := by
  obtain ⟨_, s₁, hrun, -⟩ := bind_eq_ok.mp h
  change loadSnapshotConfigValidation env s = _ at hrun
  unfold loadSnapshotConfigValidation at hrun
  rw [Op.cfg_bind] at hrun
  split at hrun
  · cases hrun
  · rename_i hboth
    rw [Bool.or_eq_true, not_or, Option.isNone_iff_eq_none, ← ne_eq,
      Option.ne_none_iff_isSome] at hboth
    rw [hasSnapshot_eq, SnapshotConfig.named, hboth.1]
    rfl

/-- Where it is not turned off, validation sees to it that there is a snapshot to load. -/
theorem hasSnapshot_of_start {s s' : Sys W} {jailed : Bool} {link : Option String}
    (hstarted : s.machine.started = false)
    (hhandlers : s.machine.handlers = standardHandlers jailed link true)
    (hvalidates : s.machine.cfg.disableValidation = false)
    (h : start env s = (.ok (), s')) : s.machine.cfg.hasSnapshot = true := by
  rw [start_eq env hstarted] at h
  obtain ⟨_, s₃, hinit, -⟩ := bind_eq_ok.mp h
  obtain ⟨_, s₁, hvalid, -⟩ := bind_eq_ok.mp (ok_of_orAbort env hinit)
  unfold validationPhase at hvalid
  rw [Op.update_bind, Op.cfg_bind] at hvalid
  dsimp only at hvalid
  rw [hvalidates, if_neg Bool.false_ne_true, Op.machine_bind] at hvalid
  -- the check of the snapshot paths is the last handler of the validation
  have hlast : s.machine.handlers.validation =
      networkConfigValidationHandler :: (if jailed then [jailerConfigValidationHandler] else []) ++
        [loadSnapshotConfigValidationHandler] := by
    rw [hhandlers]
    cases jailed <;> rfl
  dsimp only at hvalid
  rw [hlast, runHandlerList_append] at hvalid
  obtain ⟨_, s₂, hfirst, hcheck⟩ := bind_eq_ok.mp hvalid
  have hwalk := runHandlerList_anything env
    (networkConfigValidationHandler :: if jailed then [jailerConfigValidationHandler] else [])
    { s with machine := { s.machine with started := true } }
  rw [hfirst] at hwalk
  -- no handler before it writes to `cfg.snapshot`
  have hsame : s₂.machine.cfg.snapshot = s.machine.cfg.snapshot := Walk.snapshot hwalk
  have hnamed := hasSnapshot_of_validation env hcheck
  rwa [hasSnapshot_eq, hsame, ← hasSnapshot_eq] at hnamed

end Machine

/-- **A start that returns has loaded a snapshot once or booted once, and not both**, exactly if
validation is on or the last option that selects a snapshot names one. -/
theorem loads_or_boots_once_iff {W : Type} (env : Env W) {cfg : Config} {uuid cpuset : String}
    {opts : List Opt} {m : Machine} (hnew : newMachine cfg uuid cpuset opts = .ok m) {s s' : Sys W}
    (hs : s.machine = m) (hok : Machine.start env s = (.ok (), s')) :
    ∃ log, clientLog s'.trace = clientLog s.trace ++ log ∧
      ((loads log = 1 ∧ boots log = 0 ∨ loads log = 0 ∧ boots log = 1) ↔
        cfg.disableValidation = false ∨ namesSnapshot opts = true) := by
  subst hs
  have hhandlers := newMachine_handlers hnew
  have hsnapshot := newMachine_hasSnapshot hnew
  have hstarted : s.machine.started = false := by
    obtain ⟨b, hb⟩ := newMachine_machine hnew
    rw [hb]
    rfl
  obtain ⟨log, hlog, hloads, hboots⟩ := Machine.start_log env hstarted hhandlers hok
  refine ⟨log, hlog, ?_⟩
  rw [hsnapshot] at hboots
  cases hselected : opts.any Opt.isWithSnapshot with
  | false =>
    -- both decisions are taken from the configuration
    rw [hselected, Bool.or_false] at hloads
    rw [hselected, if_neg Bool.false_ne_true] at hboots
    refine iff_of_true ?_ (.inr (namesSnapshot_of_none hselected))
    cases hcfg : cfg.hasSnapshot with
    | true =>
      rw [hcfg] at hloads hboots
      exact .inl ⟨hloads, hboots⟩
    | false =>
      rw [hcfg] at hloads hboots
      exact .inr ⟨hloads, hboots⟩
  | true =>
    rw [hselected, Bool.or_true, if_pos rfl] at hloads
    rw [hselected, if_pos rfl] at hboots
    cases hnames : namesSnapshot opts with
    | true =>
      rw [hnames] at hboots
      exact iff_of_true (.inl ⟨hloads, hboots⟩) (.inr rfl)
    | false =>
      rw [hnames] at hboots
      refine iff_of_false ?_ ?_
      · rintro (⟨-, hnone⟩ | ⟨hnone, -⟩)
        · exact absurd (hboots.symm.trans hnone) Nat.one_ne_zero
        · exact absurd (hloads.symm.trans hnone) Nat.one_ne_zero
      · rintro (hvalidates | hfalse)
        · rw [hselected, Bool.or_true] at hhandlers
          rw [← newMachine_disableValidation hnew] at hvalidates
          have hnamed := Machine.hasSnapshot_of_start env hstarted hhandlers hvalidates hok
          rw [hsnapshot, hselected, if_pos rfl, hnames] at hnamed
          cases hnamed
        · cases hfalse

/-- A configuration without validation. -/
def unvalidatedConfig : Config where
  socketPath := "/run/fc.sock"
  disableValidation := true

/-- A machine made of it with options. -/
def selectedMachine (opts : List Opt) : Sys Unit :=
  let start := (plainBlueprint unvalidatedConfig "vm").initial 0 ()
  { start with machine := opts.foldl (fun machine opt => opt.apply machine) start.machine }

theorem newMachine_selected (opts : List Opt) :
    newMachine unvalidatedConfig "vm" "" opts = .ok (selectedMachine opts).machine := by
  rw [newMachine, newWithClient_plain rfl]
  rfl

/-- With a snapshot that the option names, the snapshot is loaded and nothing is booted. -/
theorem loads_or_boots_once_named :
    ∃ log, clientLog (Machine.start (Env.answering Query.smooth)
        (selectedMachine [.withSnapshot "/srv/mem" "" []])).2.trace = log ∧
      (loads log = 1 ∧ boots log = 0 ∨ loads log = 0 ∧ boots log = 1) := by
  have hok : (Machine.start (Env.answering Query.smooth)
      (selectedMachine [.withSnapshot "/srv/mem" "" []])).1 = .ok () := by
    decide +kernel
  obtain ⟨log, hlog, hiff⟩ := loads_or_boots_once_iff (Env.answering Query.smooth)
    (newMachine_selected [.withSnapshot "/srv/mem" "" []]) rfl (eq_of_fst hok)
  exact ⟨_, hlog, hiff.mpr (.inr (by decide +kernel))⟩

/-- **With empty paths, the snapshot is loaded and the instance booted.** -/
theorem loads_and_boots :
    (Machine.start (Env.answering Query.smooth) (selectedMachine [.withSnapshot "" "" []])).1 =
        .ok () ∧
      loads (clientLog (Machine.start (Env.answering Query.smooth)
        (selectedMachine [.withSnapshot "" "" []])).2.trace) = 1 ∧
      boots (clientLog (Machine.start (Env.answering Query.smooth)
        (selectedMachine [.withSnapshot "" "" []])).2.trace) = 1 := by
  decide +kernel

end FirecrackerSdk
