import FirecrackerSdk.Machine.Configure

/-!
# The handlers of a new machine

`new_with_client` starts from `default_handlers`, edits the lists by name for a snapshot
and for a jail, and options edit them again. The result is one of a few lists, which are
written out here (`FirecrackerSdk.standardHandlers`); the theorems about starts with the default
handlers read off them.
-/

namespace FirecrackerSdk

/-- What a new machine runs to validate its configuration. -/
def standardValidation (jailed snapshot : Bool) : List Handler :=
  [networkConfigValidationHandler] ++
    (if jailed then [jailerConfigValidationHandler]
      else if snapshot then [] else [configValidationHandler]) ++
    (if snapshot then [loadSnapshotConfigValidationHandler] else [])

/-- What a new machine runs to initialise the VMM: `link` is the name of the kernel image
in the jail, where the strategy links files into one. -/
def standardInit (link : Option String) (snapshot : Bool) : List Handler :=
  [setupNetworkHandler] ++ (if snapshot then [] else [setupKernelArgsHandler]) ++
    [startVmmHandler, createLogFilesHandler] ++ (link.map linkFilesHandler).toList ++
    [bootstrapLoggingHandler] ++
    (if snapshot then [addVsocksHandler, loadSnapshotHandler]
      else [createMachineHandler, createBootSourceHandler, attachDrivesHandler,
        createNetworkInterfacesHandler, addVsocksHandler, configMmdsHandler])

/-- The handlers of a new machine. -/
def standardHandlers (jailed : Bool) (link : Option String) (snapshot : Bool) : Handlers where
  validation := standardValidation jailed snapshot
  fcInit := standardInit link snapshot

/-- Adapting to a snapshot, once or again. -/
theorem adaptHandlersForSnapshot_standard (jailed : Bool) (link : Option String)
    (snapshot : Bool) : adaptHandlersForSnapshot (standardHandlers jailed link snapshot) =
      standardHandlers jailed link true := by
  cases jailed <;> cases link <;> cases snapshot <;> rfl

theorem initialHandlers_standard (cfg : Config) :
    initialHandlers cfg = standardHandlers cfg.jailerCfg.isSome none cfg.hasSnapshot := by
  have hboot : ({ defaultHandlers with
      validation := defaultHandlers.validation ++
        [if cfg.jailerCfg.isSome then jailerConfigValidationHandler
          else configValidationHandler] } : Handlers) =
      standardHandlers cfg.jailerCfg.isSome none false := by
    cases cfg.jailerCfg.isSome <;> rfl
  unfold initialHandlers
  dsimp only
  rw [hboot]
  cases cfg.hasSnapshot with
  | false => rfl
  | true => exact adaptHandlersForSnapshot_standard _ _ _

theorem adaptHandlers_standard (strategy : NaiveChrootStrategy) (jailed snapshot : Bool) :
    strategy.adaptHandlers (standardHandlers jailed none snapshot) =
      .ok (standardHandlers jailed
        (some ((fileName strategy.kernelImagePath).getD "vmlinux")) snapshot) := by
  cases jailed <;> cases snapshot <;> rfl

/-- The name of the kernel image in the jail of a configuration. -/
def linkName (cfg : Config) : Option String :=
  (cfg.jailerCfg.bind (·.chrootStrategy)).map fun strategy =>
    (fileName strategy.kernelImagePath).getD "vmlinux"

theorem newWithClient_handlers {cfg : Config} {uuid cpuset : String} {m : Machine}
    (h : newWithClient cfg uuid cpuset = .ok m) :
    m.handlers = standardHandlers cfg.jailerCfg.isSome (linkName cfg) cfg.hasSnapshot := by
  unfold newWithClient at h
  dsimp only at h
  have hinit : initialHandlers (completeConfig cfg uuid) =
      standardHandlers cfg.jailerCfg.isSome none cfg.hasSnapshot :=
    initialHandlers_standard (completeConfig cfg uuid)
  have hjailer : (completeConfig cfg uuid).jailerCfg = cfg.jailerCfg := rfl
  cases hcfg : cfg.jailerCfg with
  | none =>
    rw [hjailer, hcfg] at h
    obtain rfl := Except.ok.inj h
    rw [linkName, hcfg]
    rw [hcfg] at hinit
    exact hinit
  | some jailerCfg =>
    rw [hjailer, hcfg] at h
    simp only [Option.isSome_some, if_true] at h
    -- a chroot strategy adds the linking handler to the list
    unfold jail at h
    dsimp only at h
    rw [hjailer, hcfg] at h
    dsimp only at h
    rw [hinit, hcfg] at h
    rw [linkName, hcfg]
    cases hstrategy : jailerCfg.chrootStrategy with
    | none =>
      rw [hstrategy] at h
      obtain rfl := Except.ok.inj h
      simp [hstrategy]
    | some strategy =>
      rw [hstrategy] at h
      dsimp only at h
      rw [adaptHandlers_standard] at h
      obtain rfl := Except.ok.inj h
      simp [hstrategy]

/-- Jailing moves the socket, and nothing else of a completed configuration. -/
theorem newWithClient_cfg {cfg : Config} {uuid cpuset : String} {m : Machine}
    (h : newWithClient cfg uuid cpuset = .ok m) :
    ∃ socketPath, m.cfg = { completeConfig cfg uuid with socketPath := socketPath } := by
  obtain ⟨b, socketPath, rfl, hcfg⟩ := newWithClient_blueprint h
  exact ⟨socketPath, hcfg⟩

/-- Whether an option selects snapshot loading. -/
def Opt.isWithSnapshot : Opt → Bool
  | .withSnapshot _ _ _ => true
  | _ => false

/-- **The handlers of a new machine.** It loads a snapshot when its configuration names one or
an option selects one. -/
theorem newMachine_handlers {cfg : Config} {uuid cpuset : String} {opts : List Opt} {m : Machine}
    (h : newMachine cfg uuid cpuset opts = .ok m) :
    m.handlers = standardHandlers cfg.jailerCfg.isSome (linkName cfg)
      (cfg.hasSnapshot || opts.any Opt.isWithSnapshot) := by
  obtain ⟨m₀, h₀, rfl⟩ := newMachine_eq_ok h
  have hm₀ := newWithClient_handlers h₀
  generalize cfg.hasSnapshot = snapshot at hm₀ ⊢
  clear h h₀
  induction opts generalizing m₀ snapshot with
  | nil => simpa using hm₀
  | cons opt opts ih =>
    rw [List.foldl_cons, List.any_cons, ← Bool.or_assoc]
    refine ih (opt.apply m₀) _ ?_
    cases opt with
    | withProcessRunner command => simpa [Opt.apply, Opt.isWithSnapshot] using hm₀
    | withEnvironment => simpa [Opt.apply, Opt.isWithSnapshot] using hm₀
    | withSnapshot memFilePath snapshotPath snapshotOpts =>
      change adaptHandlersForSnapshot m₀.handlers = _
      rw [hm₀, adaptHandlersForSnapshot_standard]
      simp [Opt.isWithSnapshot]

end FirecrackerSdk
