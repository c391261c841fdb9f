import FirecrackerSdk.Machine.Cleanup
import FirecrackerSdk.Machine.Standard

/-!
# What a failed network setup leaves behind

`setup_cni` asks the network operations twice, first for a network namespace and then for
an attachment to it. Both hand out cleanup functions, which live in a local vector until
`setup_network` registers them, after everything else has succeeded. When a later step
fails, the vector goes away with them: nothing in the machine will ever run what was
handed out before (`FirecrackerSdk.failed_setup_releases_iff`).

The argument is about identities. Whatever `setup_cni` boxed has an identity from an interval
of the counter, and no registered function ever has one from there, as those before are
older and those after are newer (`FirecrackerSdk.pushedOutside_step`).
-/

namespace FirecrackerSdk

open Prog

variable {W : Type} (env : Env W)

/-! ### What the network operations hand out -/

/-- The cleanup functions that network operations handed out, in order. -/
def acquiredFuncs (trace : List Event) : List CleanupFn :=
  trace.filterMap fun
    | .acquired cleanup => some cleanup
    | _ => none

/-- What `initialize_netns` and `invoke_cni` hand out for a CNI configuration, up to the
first of them that fails. -/
def handedOutFor (netNsPath : String) (cni : CniConfiguration) (w : W) : List String :=
  match (env.answer (.initializeNetns netNsPath) w).1 with
  | .error _ => []
  | .ok tags =>
    match (env.answer (.invokeCni cni) (env.answer (.initializeNetns netNsPath) w).2).1 with
    | .error _ => tags
    | .ok added => tags ++ added.2

/-- What the network operations hand out to a machine that sets up its network. -/
def handedOut (s : Sys W) : List String :=
  match s.machine.cfg.networkInterfaces.cniInterface.bind (·.cniConfiguration) with
  | none => []
  | some cni =>
    handedOutFor env (s.machine.cfg.netNs.getD (Machine.defaultNetNsPath s.machine.cfg))
      (Machine.prepareCni s.machine.cfg.vmid
        (s.machine.cfg.netNs.getD (Machine.defaultNetNsPath s.machine.cfg)) cni) s.world

namespace Machine

/-- **What the network operations hand out is boxed and put on record**, whichever way the
setup ends. -/
theorem invokeCniFor_acquires (netNsPath : String) (cni : CniConfiguration)
    (iface : NetworkInterface) (s : Sys W) :
    ∃ cleanups, FreshIds s.fresh (invokeCniFor env netNsPath cni iface s).2.fresh cleanups ∧
      (invokeCniFor env netNsPath cni iface s).2.trace = s.trace ++ cleanups.map .acquired ∧
      cleanups.length = (handedOutFor env netNsPath cni s.world).length := by
  unfold invokeCniFor handedOutFor
  rw [Op.ask_bind]
  cases (env.answer (.initializeNetns netNsPath) s.world).1 with
  | error e => exact ⟨[], by simp [FreshIds], (List.append_nil _).symm, rfl⟩
  | ok tags =>
    set s₁ : Sys W :=
      { s with world := (env.answer (.initializeNetns netNsPath) s.world).2 } with hs₁
    obtain ⟨xs, s₂, h₂, hf₂, hw₂, ht₂, hlen₂⟩ := acquire_spec tags s₁
    rw [bind_of_ok (ofExcept_ok tags s₁), bind_of_ok h₂, Op.ask_bind, hw₂]
    dsimp only
    cases (env.answer (.invokeCni cni) s₁.world).1 with
    -- what was handed out before the failure counts as well
    | error e => exact ⟨xs, hf₂, ht₂, hlen₂⟩
    | ok added =>
      set s₃ : Sys W := { s₂ with world := (env.answer (.invokeCni cni) s₁.world).2 } with hs₃
      obtain ⟨ys, s₄, h₄, hf₄, hw₄, ht₄, hlen₄⟩ := acquire_spec added.2 s₃
      rw [bind_of_ok (ofExcept_ok added s₃), bind_of_ok h₄, Op.ask_bind]
      have hle₂ : s.fresh ≤ s₂.fresh := by
        have := (calm_acquire (A := fun _ => True) tags s₁).fresh
        rwa [h₂] at this
      have hle₄ : s₂.fresh ≤ s₄.fresh := by
        have := (calm_acquire (A := fun _ => True) added.2 s₃).fresh
        rwa [h₄] at this
      have hfresh : FreshIds s.fresh s₄.fresh (xs ++ ys) := hf₂.append hf₄ hle₂ hle₄
      have htrace : s₄.trace = s.trace ++ (xs ++ ys).map .acquired := by
        rw [ht₄, List.map_append, ← List.append_assoc]
        exact congrArg (· ++ _) ht₂
      have hlen : (xs ++ ys).length = (tags ++ added.2).length := by
        rw [List.length_append, List.length_append, hlen₂, hlen₄]
      cases iface.applyCniResult env.unprintable added.1 (env.answer .getLink s₄.world).1 with
      | error e => exact ⟨xs ++ ys, hfresh, htrace, hlen⟩
      | ok iface' => exact ⟨xs ++ ys, hfresh, htrace, hlen⟩

theorem setupCni_acquires (vmId netNsPath : String) (s : Sys W) {iface : NetworkInterface}
    {cni : CniConfiguration} (hiface : s.machine.cfg.networkInterfaces.cniInterface = some iface)
    (hcni : iface.cniConfiguration = some cni) :
    ∃ cleanups, FreshIds s.fresh (setupCni env vmId netNsPath s).2.fresh cleanups ∧
      (setupCni env vmId netNsPath s).2.trace = s.trace ++ cleanups.map .acquired ∧
      cleanups.length =
        (handedOutFor env netNsPath (prepareCni vmId netNsPath cni) s.world).length := by
  unfold setupCni
  rw [Op.cfg_bind, hiface]
  dsimp only
  rw [hcni]
  dsimp only
  set s₁ := (updateInterfaces (NetworkInterfaces.modifyCniInterface fun iface =>
    { iface with cniConfiguration := some (prepareCni vmId netNsPath cni) }) s).2 with hs₁
  have h₁ : updateInterfaces (NetworkInterfaces.modifyCniInterface fun iface =>
    { iface with cniConfiguration := some (prepareCni vmId netNsPath cni) }) s = (.ok (), s₁) := rfl
  rw [bind_of_ok h₁]
  exact invokeCniFor_acquires env netNsPath (prepareCni vmId netNsPath cni)
    { iface with cniConfiguration := some (prepareCni vmId netNsPath cni) } s₁

/-- **A failed network setup**: what was handed out is on record, and registered nowhere. -/
theorem setupNetwork_acquires {s s' : Sys W} {e : Error} (h : setupNetwork env s = (.err e, s')) :
    ∃ cleanups, FreshIds s.fresh s'.fresh cleanups ∧
      s'.trace = s.trace ++ cleanups.map .acquired ∧
      cleanups.length = (handedOut env s).length := by
  unfold setupNetwork at h
  rw [Op.cfg_bind] at h
  cases hiface : s.machine.cfg.networkInterfaces.cniInterface with
  | none =>
    rw [hiface] at h
    cases h
  | some iface =>
    -- the interface was found because it carries a CNI configuration
    have hsome : iface.cniConfiguration.isSome = true :=
      List.find?_some (p := fun iface : NetworkInterface => iface.cniConfiguration.isSome) hiface
    obtain ⟨cni, hcni⟩ := Option.isSome_iff_exists.mp hsome
    rw [hiface] at h
    simp only [Option.isNone_some, Bool.false_eq_true, if_false] at h
    rw [Op.update_bind] at h
    set netNs := s.machine.cfg.netNs.getD (defaultNetNsPath s.machine.cfg) with hnetNs
    set s₁ : Sys W := { s with machine := { s.machine with
      cfg := { s.machine.cfg with netNs := some netNs } } } with hs₁
    obtain ⟨cleanups, hfresh, htrace, hlen⟩ :=
      setupCni_acquires env s.machine.cfg.vmid netNs s₁ hiface hcni
    have hend : (setupCni env s.machine.cfg.vmid netNs s₁).2 = s' := by
      rcases hsetup : setupCni env s.machine.cfg.vmid netNs s₁ with ⟨a | e' | _, s''⟩
      · rw [bind_of_ok hsetup] at h
        cases h
      · rw [bind_of_err hsetup] at h
        exact congrArg Prod.snd h
      · rw [bind_of_dropped hsetup] at h
        cases h
    rw [hend] at hfresh htrace
    refine ⟨cleanups, hfresh, htrace, hlen.trans ?_⟩
    rw [handedOut, hiface, Option.bind_some, hcni]

end Machine

/-! ### Nothing in the machine has such an identity -/

/-- No registered function has an identity from the interval. -/
structure PushedOutside (lo hi : ℕ) (l : Ledger) : Prop where
  outside : ∀ c ∈ pushedFuncs l.trace, c.id < lo ∨ hi ≤ c.id
  fresh : hi ≤ l.fresh

/-- What is registered later is newer. -/
theorem pushedOutside_step {p : Policy} {lo hi : ℕ} {l l' : Ledger} (hstep : Step p l l')
    (h : PushedOutside lo hi l) : PushedOutside lo hi l' := by
  have hsilent : ∀ {events : List Event}, pushedFuncs events = [] →
      ∀ c ∈ pushedFuncs (l.trace ++ events), c.id < lo ∨ hi ≤ c.id := by
    intro events hevents c hc
    rw [pushedFuncs_append, hevents, List.append_nil] at hc
    exact h.outside c hc
  -- what is pushed from now on has an id that was not handed out before
  have hpush : ∀ (events : List Event) (cleanups : List CleanupFn),
      (∀ e ∈ events, e.isCalm p.mayCall) → (∀ c ∈ cleanups, l.fresh ≤ c.id) →
      ∀ c ∈ pushedFuncs (l.trace ++ events ++ cleanups.map .pushed), c.id < lo ∨ hi ≤ c.id := by
    intro events cleanups hevents hids c hc
    rw [pushedFuncs_append] at hc
    rcases List.mem_append.mp hc with hc | hc
    · exact hsilent (by rw [← pushes_history, history_calm hevents]; rfl) c hc
    · have hmem : c ∈ cleanups := by
        rw [pushedFuncs, List.filterMap_map] at hc
        simpa using hc
      exact .inr (h.fresh.trans (hids c hmem))
  have hdrained : ∀ {site : DrainSite} {execs : List Execution} {l₁ : Ledger},
      Drained site l execs l₁ →
      ∀ fatalErr, PushedOutside lo hi { l₁ with fatalErr := fatalErr } := by
    intro site execs l₁ hdrain fatalErr
    cases hdrain with
    | idle => exact ⟨h.outside, h.fresh⟩
    | drain => exact ⟨hsilent (pushedFuncs_drain execs), h.fresh⟩
  cases hstep with
  | calm hfresh hevents =>
    exact ⟨hsilent (by rw [← pushes_history, history_calm hevents]; rfl), h.fresh.trans hfresh⟩
  | push hfresh hevents hnodup hids =>
    exact ⟨hpush _ _ hevents fun c hc => (hids c hc).1, h.fresh.trans hfresh⟩
  | launch hlaunch hid =>
    refine ⟨fun c hc => ?_, h.fresh.trans (Nat.le_succ _)⟩
    refine hpush [] [_] (by simp) (fun c hc => ?_) c (by simpa using hc)
    rw [List.mem_singleton.mp hc, hid]
  | abandon hchild => exact ⟨hsilent rfl, h.fresh⟩
  | finalize _ _ _ _ hdrain _ => exact hdrained hdrain _
  | aborting => exact ⟨hsilent rfl, h.fresh⟩
  | abort _ _ _ _ _ hdrain _ _ => exact hdrained hdrain _
  | _ => exact ⟨h.outside, h.fresh⟩

/-! ### A start whose network setup fails -/

/-- The first initialising handler of a new machine sets up the network, so a start that gets
through validation gives up where that handler fails. -/
theorem start_of_failed_setup {s s₁ s₂ s' : Sys W} {e₀ : Error} {o : Outcome Error Unit}
    {jailed snapshot : Bool} {link : Option String}
    (hhandlers : s.machine.handlers = standardHandlers jailed link snapshot)
    (hunstarted : s.machine.started = false)
    (hvalid : Machine.validationPhase env s = (.ok (), s₁))
    (hfail : Machine.setupNetwork env s₁ = (.err e₀, s₂))
    (hstart : Machine.start env s = (o, s')) : (Machine.abortStart env e₀ s₂).2 = s' := by
  have hinit : Machine.runHandlerList env s.machine.handlers.fcInit s₁ = (.err e₀, s₂) := by
    rw [hhandlers]
    exact bind_of_err hfail
  have habort : Machine.orAbort env (Machine.runHandlerList env s.machine.handlers.fcInit) s₁ =
      (Machine.abortStart env e₀ >>= Prog.fail) s₂ := Machine.orAbort_of_err env hinit
  rw [Machine.start_of_validationPhase env hunstarted hvalid] at hstart
  rcases hab : Machine.abortStart env e₀ s₂ with ⟨f | f | _, s₃⟩
  · rw [bind_of_err (habort.trans (bind_of_ok hab))] at hstart
    exact congrArg Prod.snd hstart
  · rw [bind_of_err (habort.trans (bind_of_err hab))] at hstart
    exact congrArg Prod.snd hstart
  · rw [bind_of_dropped (habort.trans (bind_of_dropped hab))] at hstart
    exact congrArg Prod.snd hstart

/-- **A failed network setup releases everything exactly when nothing was handed out.** For
every new machine, every environment and every sequence of calls before the start:
when validation passes and `setup_network` fails, every cleanup function that
`initialize_netns` or `invoke_cni` returned in it has been executed, or is registered on the
machine, when `start` returns its error if and only if they returned none. -/
theorem failed_setup_releases_iff {cfg : Config} {uuid cpuset : String} {opts : List Opt}
    {m : Machine} (hm : newMachine cfg uuid cpuset opts = .ok m) (clock : ℕ) (w : W)
    (calls : List Call) {s₁ s₂ s' : Sys W} {e₀ e : Error}
    (hunstarted : (runCalls env calls
      { machine := m, clock := clock, world := w }).machine.started = false)
    (hvalid : Machine.validationPhase env (runCalls env calls
      { machine := m, clock := clock, world := w }) = (.ok (), s₁))
    (hfail : Machine.setupNetwork env s₁ = (.err e₀, s₂))
    (hstart : Machine.start env (runCalls env calls
      { machine := m, clock := clock, world := w }) = (.err e, s')) :
    (∀ c ∈ acquiredFuncs (s₂.trace.drop s₁.trace.length),
        c ∈ executedFuncs s'.trace ∨ c ∈ s'.machine.cleanupFuncs) ↔
      handedOut env s₁ = [] := by
  obtain ⟨b, rfl⟩ := newMachine_machine hm
  set s := runCalls env calls (b.initial clock w) with hs
  have hwalk := runCalls_leads env calls (b.initial clock w)
  have hhandlers : s.machine.handlers = _ := (Walk.handlers hwalk).trans (newMachine_handlers hm)
  have hinv : CleanupInv s.ledger := cleanupInv_runCalls env b clock w calls
  -- the three stretches of the start
  have hwalk₁ : Leads anything s s₁ := by
    have hphase :=
      Machine.validationPhase_leads env (s := s) (Machine.runHandlerList_anything env _)
    rwa [show Machine.validationPhase env s = (.ok (), s₁) from hvalid] at hphase
  have hwalk₂ : Leads anything s₁ s₂ := by
    have hsetup := Machine.setupNetwork_leads (p := anything) env s₁
    rwa [hfail] at hsetup
  have hwalk₃ : Leads anything s₂ s' := by
    obtain ⟨o, t, h, hl, -⟩ := Machine.abortStart_spec env (p := anything) trivial trivial e₀ s₂
    have hend := start_of_failed_setup env hhandlers hunstarted hvalid hfail hstart
    rw [h] at hend
    exact hend ▸ hl
  have hinv₁ := Walk.invariant (fun _ _ => cleanupInv_step) hwalk₁ hinv
  have hinv' :=
    Walk.invariant (fun _ _ => cleanupInv_step) ((hwalk₁.trans hwalk₂).trans hwalk₃) hinv
  obtain ⟨cleanups, hfresh, htrace, hlen⟩ := Machine.setupNetwork_acquires env hfail
  have hacquired : acquiredFuncs (s₂.trace.drop s₁.trace.length) = cleanups := by
    rw [htrace, List.drop_left, acquiredFuncs, List.filterMap_map]
    exact List.filterMap_some
  rw [hacquired]
  constructor
  · intro hall
    by_contra hne
    obtain ⟨c, hc⟩ : ∃ c, c ∈ cleanups := by
      refine List.exists_mem_of_length_pos ?_
      rw [hlen]
      exact List.length_pos_iff.mpr hne
    have hgap : PushedOutside s₁.fresh s₂.fresh s'.ledger := by
      refine Walk.invariant (fun _ _ => pushedOutside_step) hwalk₃ ⟨fun x hx => ?_, le_rfl⟩
      change x ∈ pushedFuncs s₂.trace at hx
      have hnone : pushedFuncs (cleanups.map .acquired) = [] := by
        rw [pushedFuncs, List.filterMap_map]
        simp
      rw [htrace, pushedFuncs_append, hnone, List.append_nil] at hx
      exact .inl (hinv₁.bound x hx)
    have hpushed : c ∈ pushedFuncs s'.trace := by
      rcases hall c hc with h | h
      · exact hinv'.executed.2 h
      · exact hinv'.registered h
    have hid := hfresh.2 c hc
    rcases hgap.outside c hpushed with h | h <;> omega
  · intro hnil c hc
    rw [hnil, List.length_nil, List.length_eq_zero_iff] at hlen
    rw [hlen] at hc
    cases hc

/-- A configuration with an interface that CNI is to set up. -/
def cniConfig : Config where
  socketPath := "/run/fc.sock"
  disableValidation := true
  networkInterfaces := [{ cniConfiguration := some { networkName := some "fcnet" } }]

/-- A world in which the network namespace is made as told and CNI cannot be invoked. -/
def brokenCni (tags : List String) : Env Unit := .answering fun
  | .initializeNetns _ => .ok tags
  | .invokeCni _ => .error (.process "plugin failed")
  | query => query.smooth

/-- The machine made of it. -/
def cniMachine : Sys Unit := (plainBlueprint cniConfig "vm").initial 0 ()

/-- With a namespace that was there before, nothing is handed out and nothing is lost. -/
theorem failed_setup_releases_existing_netns :
    ∃ s', Machine.start (brokenCni []) cniMachine = (.err (.process "plugin failed"), s') ∧
      ∀ c ∈ acquiredFuncs ((Machine.setupNetwork (brokenCni [])
          (Machine.validationPhase (brokenCni []) cniMachine).2).2.trace.drop 0),
        c ∈ executedFuncs s'.trace ∨ c ∈ s'.machine.cleanupFuncs := by
  have hnew : newMachine cniConfig "vm" "" [] = .ok cniMachine.machine := by
    rw [newMachine, newWithClient_plain rfl]
    rfl
  have hstart : Machine.start (brokenCni []) cniMachine =
      (.err (.process "plugin failed"), (Machine.start (brokenCni []) cniMachine).2) :=
    eq_of_fst (by decide +kernel)
  have hfail : Machine.setupNetwork (brokenCni [])
      (Machine.validationPhase (brokenCni []) cniMachine).2 =
      (.err (.process "plugin failed"), (Machine.setupNetwork (brokenCni [])
        (Machine.validationPhase (brokenCni []) cniMachine).2).2) :=
    eq_of_fst (by decide +kernel)
  exact ⟨_, hstart, (failed_setup_releases_iff (brokenCni []) hnew 0 () [] rfl
    (eq_of_fst (by decide +kernel)) hfail hstart).mpr (by decide +kernel)⟩

/-- A start whose CNI invocation fails after the namespace was made: the function that
removes the namespace again is neither executed nor registered. -/
theorem netns_leaked :
    ⟨0, .external "unmount netns"⟩ ∈
        acquiredFuncs (Machine.start (brokenCni ["unmount netns"]) cniMachine).2.trace ∧
      (Machine.start (brokenCni ["unmount netns"]) cniMachine).1 =
        .err (.process "plugin failed") ∧
      ⟨0, .external "unmount netns"⟩ ∉
        executedFuncs (Machine.start (brokenCni ["unmount netns"]) cniMachine).2.trace ∧
      ⟨0, .external "unmount netns"⟩ ∉
        (Machine.start (brokenCni ["unmount netns"]) cniMachine).2.machine.cleanupFuncs := by
  decide +kernel

end FirecrackerSdk
