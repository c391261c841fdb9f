import FirecrackerSdk.Machine.Configure
import FirecrackerSdk.Machine.Ledger

/-!
# The operations that own nothing, and what they stay within

Most of what a start does – validating, talking to the API, linking files, preparing
the network – neither holds nor releases anything. It asks the world, writes to the trace
and to fields that the lifecycle does not own, and that is all. What such an operation does to
a state is settled by what its few primitives do: a relation that is reflexive and transitive
and that the primitives stay within (`FirecrackerSdk.Passive`) contains every run of
every such operation. This file goes through their bodies once, for all such relations.
-/

namespace FirecrackerSdk

variable {W : Type}

/-- The queries that have nothing to do with the child and its registration, and that no
cleanup function asks. -/
def Query.isPassive : {α : Type} → Query α → Bool
  | _, .removeFile _ => false
  | _, .external _ => false
  | _, .spawn _ => false
  | _, .exits => false
  | _, .tryWaitError _ => false
  | _, .childWait _ => false
  | _, .register _ _ => false
  | _, .unregister _ => false
  | _, .await .childWait => false
  | _, _ => true

open Prog

/-- **What the primitives of an operation that owns nothing stay within**, when it makes only
certain client calls. -/
structure Passive (env : Env W) (A : ClientCall → Prop) (R : Sys W → Sys W → Prop) : Prop where
  ask : ∀ {α : Type} (q : Query α), q.isPassive = true → Within R (Op.ask env q)
  update : ∀ {f : Machine → Machine}, (∀ m, (f m).core = m.core) →
    Within R (Op.update f : Op W Unit)
  emit : ∀ {e : Event}, e.isCalm A → Within R (Op.emit e : Op W Unit)
  box : ∀ action, Within R (Op.box action : Op W CleanupFn)
  clock : ∀ f : ℕ → ℕ,
    Within R (Prog.modify fun s => { s with clock := f s.clock } : Op W Unit)

/-- What a round of either polling loop ends with: look whether the VMM is reachable, and if it is
not, give up when it is late, or wait a little. -/
def Machine.pollReachable (env : Env W) (timedOut : Error) (late : ℕ → Prop)
    [DecidablePred late] : Op W Bool := do
  Op.await env .metadata
  let socket ← Op.ask env (.stat (← Op.cfg).socketPath)
  let reachable ← match socket with
    | .error _ => pure false
    | .ok () => do
      match ← (Op.getMachineConfiguration env).attempt with
      | .ok _ => pure true
      | .error _ => pure false
  if reachable then pure true
  else do
    if late (← Op.now env) then Prog.fail timedOut
    else do
      Op.sleep env 10
      pure false

/-- A round of the polling loop, once the child has been found running. -/
def Machine.pollSocket (env : Env W) (deadline : ℕ) : Op W Bool := do
  Op.await env .metadata
  let socket ← Op.ask env (.stat (← Op.cfg).socketPath)
  let reachable ← match socket with
    | .error _ => pure false
    | .ok () => do
      match ← (Op.getMachineConfiguration env).attempt with
      | .ok _ => pure true
      | .error _ => pure false
  if reachable then pure true
  else do
    if deadline ≤ (← Op.now env) then Prog.fail Machine.vmmTimedOut
    else do
      Op.sleep env 10
      pure false

theorem Machine.pollSocket_eq (env : Env W) (deadline : ℕ) :
    pollSocket env deadline = pollReachable env vmmTimedOut fun time => deadline ≤ time := rfl

theorem Machine.pollVmm_of_running {env : Env W} {s s₁ : Sys W}
    (h : Machine.tryWait env s = (.ok none, s₁)) (deadline : ℕ) :
    Machine.pollVmm env deadline s = Machine.pollSocket env deadline s₁ :=
  bind_of_ok h

/-- Writing the names that files have in a jail, and nothing else. -/
def Relinks (f : Config → Config) : Prop :=
  ∀ cfg, f cfg = { cfg with
    kernelImagePath := (f cfg).kernelImagePath
    initrdPath := (f cfg).initrdPath
    logFifo := (f cfg).logFifo
    metricsFifo := (f cfg).metricsFifo
    drives := (f cfg).drives }

/-- Boxing closures asks nothing of the world. -/
theorem within_acquire {R : Sys W → Sys W → Prop} [Std.Refl R] [IsTrans (Sys W) R]
    (hbox : ∀ action, Within R (Op.box action : Op W CleanupFn))
    (hemit : ∀ cleanup, Within R (Op.emit (.acquired cleanup) : Op W Unit)) (tags : List String) :
    Within R (Machine.acquire tags : Op W _) := by
  induction tags with
  | nil => exact within_pure _
  | cons tag tags ih =>
    refine within_bind (hbox _) fun cleanup => within_bind (hemit cleanup) fun _ => ?_
    exact within_bind ih fun _ => within_pure _

namespace Passive

variable {env : Env W} {A : ClientCall → Prop} {R : Sys W → Sys W → Prop} [Std.Refl R]
  [IsTrans (Sys W) R] (h : Passive env A R)

include h

/-! ### Primitives -/

theorem askIo {α : Type} (q : Query (Except IoError α)) (hq : q.isPassive = true) :
    Within R (Op.askIo env q) := by
  refine within_bind (h.ask q hq) fun r => ?_
  cases r with
  | ok a => exact within_pure a
  | error e => exact within_fail _

theorem await {p : AwaitPoint} (hp : (Query.await p).isPassive = true) :
    Within R (Op.await env p) :=
  within_bind (h.ask _ hp) fun _ => within_ite within_drop (within_pure _)

theorem now : Within R (Op.now env) :=
  within_bind (h.ask _ rfl) fun elapsed =>
    within_bind (h.clock (· + elapsed)) fun _ => within_gets _

theorem sleep (milliseconds : ℕ) : Within R (Op.sleep env milliseconds) :=
  within_bind (h.await rfl) fun _ =>
    within_bind (h.ask _ rfl) fun elapsed => h.clock (· + milliseconds + elapsed)

theorem call {c : ClientCall} (hc : A c) : Within R (Op.call env c) := by
  refine within_bind (h.await rfl) fun _ => within_bind (h.ask _ rfl) fun r => ?_
  cases r with
  | ok _ => exact h.emit hc
  | error e => exact within_bind (h.emit hc) fun _ => within_fail e

theorem getMachineConfiguration (hc : A .getMachineConfiguration) :
    Within R (Op.getMachineConfiguration env) := by
  refine within_bind (h.await rfl) fun _ => within_bind (h.ask _ rfl) fun r => ?_
  cases r with
  | ok config => exact within_bind (h.emit hc) fun _ => within_pure config
  | error e => exact within_bind (h.emit hc) fun _ => within_fail e

/-! ### Validation -/

theorem validateExistingPath (kind path : String) :
    Within R (Machine.validateExistingPath env kind path) := by
  refine within_bind (h.ask _ rfl) fun r => ?_
  cases r with
  | ok _ => exact within_pure _
  | error e => exact within_fail _

theorem validateSocketAbsent (path : String) :
    Within R (Machine.validateSocketAbsent env path) := by
  refine within_bind (h.ask _ rfl) fun r => ?_
  cases r with
  | ok _ => exact within_fail _
  | error e => exact within_pure _

theorem validateIfSome (kind : String) (path : Option String) :
    Within R (Machine.validateIfSome env kind path) := by
  cases path with
  | some path => exact h.validateExistingPath _ _
  | none => exact within_pure _

theorem validate : Within R (Machine.validate env) := by
  refine within_bind (within_gets _) fun cfg => within_ite (within_pure _) ?_
  refine within_bind (h.validateExistingPath _ _) fun _ => ?_
  refine within_bind (h.validateIfSome _ _) fun _ => ?_
  refine within_bind (h.validateIfSome _ _) fun _ => ?_
  refine within_bind (h.validateSocketAbsent _) fun _ => ?_
  exact within_ite (within_fail _) (within_ite (within_fail _) (within_pure _))

theorem validateExistingPaths (kind : String) (paths : List String) :
    Within R (Machine.validateExistingPaths env kind paths) := by
  induction paths with
  | nil => exact within_pure _
  | cons path paths ih => exact within_bind (h.validateExistingPath _ _) fun _ => ih

theorem validateLoadSnapshot : Within R (Machine.validateLoadSnapshot env) := by
  refine within_bind (within_gets _) fun cfg => within_ite (within_pure _) ?_
  refine within_bind (h.validateExistingPaths _ _) fun _ => ?_
  refine within_bind (h.validateSocketAbsent _) fun _ => ?_
  exact within_bind (h.validateExistingPath _ _) fun _ => h.validateExistingPath _ _

theorem loadSnapshotConfigValidation : Within R (Machine.loadSnapshotConfigValidation env) :=
  within_bind (within_gets _) fun _ => within_ite (within_fail _) (h.validateLoadSnapshot)

/-! ### Preparing the network and the command -/

theorem acquire (tags : List String) : Within R (Machine.acquire tags : Op W _) :=
  within_acquire h.box (fun _ => h.emit trivial) tags

omit [Std.Refl R] [IsTrans (Sys W) R] in
/-- Writing the configurations of the CNI interface. -/
theorem updateInterfaces {f : NetworkInterface → NetworkInterface}
    (hf : ∀ iface, (f iface).unconfigured = iface.unconfigured) :
    Within R (Machine.updateInterfaces (NetworkInterfaces.modifyCniInterface f) : Op W Unit) := by
  refine h.update fun m => ?_
  have hifaces : ∀ ifaces : NetworkInterfaces,
      (NetworkInterfaces.modifyCniInterface f ifaces).map NetworkInterface.unconfigured =
        ifaces.map NetworkInterface.unconfigured := by
    intro ifaces
    induction ifaces with
    | nil => rfl
    | cons iface ifaces ih =>
      unfold NetworkInterfaces.modifyCniInterface
      split
      · rw [List.map_cons, List.map_cons, hf]
      · rw [List.map_cons, List.map_cons, ih]
  unfold Machine.core Config.devices
  rw [hifaces]

theorem invokeCniFor (netNsPath : String) (cni : CniConfiguration)
    (iface : NetworkInterface) : Within R (Machine.invokeCniFor env netNsPath cni iface) := by
  refine within_bind (h.ask _ rfl) fun r => within_bind (within_ofExcept r) fun tags => ?_
  refine within_bind (h.acquire tags) fun _ => ?_
  refine within_bind (h.ask _ rfl) fun r => within_bind (within_ofExcept r) fun added => ?_
  refine within_bind (h.acquire added.2) fun _ => within_bind (h.ask _ rfl) fun _ => ?_
  refine within_bind (within_ofExcept _) fun _ => ?_
  exact within_bind (h.updateInterfaces fun _ => rfl) fun _ => within_pure _

theorem setupCni (vmId netNsPath : String) : Within R (Machine.setupCni env vmId netNsPath) := by
  refine within_bind (within_gets _) fun cfg => ?_
  split
  · exact within_pure _
  · split
    · exact within_fail _
    · exact within_bind (h.updateInterfaces fun _ => rfl) fun _ => h.invokeCniFor _ _ _

omit [Std.Refl R] [IsTrans (Sys W) R] in
theorem setupKernelArgs : Within R (Machine.setupKernelArgs : Op W Unit) :=
  h.update fun _ => rfl

theorem commandStdio (spec : CommandStdio) (stdin : Bool) :
    Within R (Machine.commandStdio env spec stdin) := by
  cases spec with
  | inherit => exact within_pure _
  | null => exact within_pure _
  | path path => exact h.askIo _ rfl

theorem configureCommandNetns : Within R (Machine.configureCommandNetns env) := by
  refine within_bind (within_gets _) fun cfg => ?_
  split
  · exact within_pure _
  · exact within_ite (within_pure _) (h.askIo _ rfl)

theorem pollReachable (hc : A .getMachineConfiguration) (timedOut : Error) (late : ℕ → Prop)
    [DecidablePred late] : Within R (Machine.pollReachable env timedOut late) := by
  refine within_bind (h.await rfl) fun _ => within_bind (within_gets _) fun _ => ?_
  refine within_bind (h.ask _ rfl) fun socket => ?_
  have hlate : ∀ reachable : Bool, Within R (do
      if reachable then pure true
      else do
        if late (← Op.now env) then Prog.fail timedOut
        else do
          Op.sleep env 10
          pure false) := by
    intro reachable
    refine within_ite (within_pure _) (within_bind h.now fun _ => ?_)
    exact within_ite (within_fail _) (within_bind (h.sleep 10) fun _ => within_pure _)
  cases socket with
  | error _ => exact hlate false
  | ok _ =>
    refine within_bind (within_attempt (h.getMachineConfiguration hc)) fun r => ?_
    cases r with
    | ok _ => exact hlate true
    | error _ => exact hlate false

theorem pollSocket (hc : A .getMachineConfiguration) (deadline : ℕ) :
    Within R (Machine.pollSocket env deadline) := by
  rw [Machine.pollSocket_eq]
  exact h.pollReachable hc _ _

/-! ### The jail -/

theorem linkInto (rootfs fallback hostPath : String) :
    Within R (Machine.linkInto env rootfs fallback hostPath) :=
  within_bind (h.askIo _ rfl) fun _ => within_pure _

theorem linkInitrd (rootfs : String) (initrdPath : Option String) :
    Within R (Machine.linkInitrd env rootfs initrdPath) := by
  unfold Machine.linkInitrd
  split
  · exact within_pure _
  · exact within_bind (h.linkInto _ _ _) fun _ => within_pure _

theorem linkFifo (rootfs : String) (jailerCfg : JailerConfig) (fifoPath : Option String) :
    Within R (Machine.linkFifo env rootfs jailerCfg fifoPath) := by
  unfold Machine.linkFifo
  split
  · exact within_pure _
  · exact within_bind (h.linkInto _ _ _) fun _ =>
      within_bind (h.askIo _ rfl) fun _ => within_pure _

/-! ### The API calls -/

theorem setupLogging (hc : ∀ logger, A (.putLogger logger)) :
    Within R (Machine.setupLogging env) := by
  refine within_bind (within_gets _) fun cfg => ?_
  split
  · exact within_pure _
  · exact h.call (hc _)

theorem setupMetrics (hc : ∀ metrics, A (.putMetrics metrics)) :
    Within R (Machine.setupMetrics env) := by
  refine within_bind (within_gets _) fun cfg => ?_
  split
  · exact within_pure _
  · exact h.call (hc _)

theorem createMachine (hc : ∀ config, A (.putMachineConfiguration config))
    (hc' : A .getMachineConfiguration) : Within R (Machine.createMachine env) :=
  within_bind (within_gets _) fun _ => within_bind (h.call (hc _)) fun _ =>
    within_bind (h.getMachineConfiguration hc') fun _ => h.update fun _ => rfl

theorem createNetworkInterfacesFrom
    (hc : ∀ id iface, A (.putGuestNetworkInterfaceById id iface)) (index : ℕ)
    (ifaces : List NetworkInterface) :
    Within R (Machine.createNetworkInterfacesFrom env index ifaces) := by
  induction ifaces generalizing index with
  | nil => exact within_pure _
  | cons iface ifaces ih =>
    refine within_bind ?_ fun _ => ih (index + 1)
    unfold Machine.createNetworkInterface
    split
    · exact within_fail _
    · exact h.call (hc _ _)

theorem callAll (cs : List ClientCall) (hc : ∀ c ∈ cs, A c) :
    Within R (Machine.callAll env cs) := by
  induction cs with
  | nil => exact within_pure _
  | cons c cs ih =>
    rw [List.forall_mem_cons] at hc
    exact within_bind (h.call hc.1) fun _ => ih hc.2

theorem setMmdsConfig (hc : ∀ config, A (.putMmdsConfig config)) :
    Within R (Machine.setMmdsConfig env) := by
  refine within_bind (within_gets _) fun cfg => ?_
  split
  · exact within_pure _
  · exact h.call (hc _)

theorem startInstance (hc : A Machine.instanceStart) : Within R (Machine.startInstance env) :=
  within_bind (within_gets _) fun _ => within_ite (within_pure _) (h.call hc)

/-! ### Operations that register cleanup functions or link files -/

theorem createFifoOrFile
    (hpush : ∀ action, Within R (Machine.pushCleanupFunc action : Op W Unit))
    (fifoPath filePath : Option String) :
    Within R (Machine.createFifoOrFile env fifoPath filePath) := by
  unfold Machine.createFifoOrFile
  split
  · refine within_bind (within_ofExcept _) fun _ => ?_
    exact within_bind (h.askIo _ rfl) fun _ => hpush _
  · exact h.askIo _ rfl
  · exact within_pure _

theorem createLogFiles
    (hpush : ∀ action, Within R (Machine.pushCleanupFunc action : Op W Unit)) :
    Within R (Machine.createLogFiles env) := by
  refine within_bind (within_gets _) fun cfg => ?_
  refine within_bind (h.createFifoOrFile hpush _ _) fun _ => ?_
  refine within_bind (h.createFifoOrFile hpush _ _) fun _ => ?_
  split
  · exact within_bind (h.ask _ rfl) fun _ => within_pure _
  · exact within_pure _

theorem linkDrives
    (hrelink : ∀ f, Relinks f → Within R (Op.update fun m => { m with cfg := f m.cfg } : Op W Unit))
    (rootfs : String) (index : ℕ) (drives : List Drive) :
    Within R (Machine.linkDrives env rootfs index drives) := by
  induction drives generalizing index with
  | nil => exact within_pure _
  | cons drive drives ih =>
    refine within_bind ?_ fun _ => ih (index + 1)
    unfold Machine.linkDrive
    split
    · exact within_pure _
    · refine within_bind (h.linkInto _ _ _) fun name => ?_
      exact hrelink (fun cfg => { cfg with
        drives := cfg.drives.modify index fun drive => { drive with pathOnHost := some name } })
        fun _ => rfl

theorem linkFiles
    (hrelink : ∀ f, Relinks f → Within R (Op.update fun m => { m with cfg := f m.cfg } : Op W Unit))
    (name : String) : Within R (Machine.linkFiles env name) := by
  refine within_bind (within_gets _) fun cfg => ?_
  split
  · exact within_fail _
  · refine within_bind (h.askIo _ rfl) fun _ => ?_
    refine within_bind (h.linkInitrd _ _) fun initrdPath => ?_
    refine within_bind (h.linkDrives hrelink _ _ _) fun _ => ?_
    refine within_bind (hrelink (fun cfg => { cfg with
      kernelImagePath := name, initrdPath := initrdPath }) fun _ => rfl) fun _ => ?_
    refine within_bind (h.linkFifo _ _ _) fun logFifo => ?_
    refine within_bind (hrelink (fun cfg => { cfg with logFifo := logFifo }) fun _ => rfl)
      fun _ => ?_
    refine within_bind (h.linkFifo _ _ _) fun metricsFifo => ?_
    exact hrelink (fun cfg => { cfg with metricsFifo := metricsFifo }) fun _ => rfl

end Passive

/-- The client calls that a handler may make. -/
def HandlerFn.issues : HandlerFn → ClientCall → Prop
  | .startVmm, .getMachineConfiguration => True
  | .bootstrapLogging, .putLogger _ => True
  | .bootstrapLogging, .putMetrics _ => True
  | .createMachine, .putMachineConfiguration _ => True
  | .createMachine, .getMachineConfiguration => True
  | .createBootSource, .putGuestBootSource _ => True
  | .attachDrives, .putGuestDriveById _ _ => True
  | .createNetworkInterfaces, .putGuestNetworkInterfaceById _ _ => True
  | .addVsocks, .putGuestVsock _ => True
  | .setMetadata _, .putMmds _ => True
  | .configMmds, .putMmdsConfig _ => True
  | .loadSnapshot, .loadSnapshot _ => True
  | _, _ => False

/-- Whether a handler links files into a jail. -/
def HandlerFn.linksFiles : HandlerFn → Bool
  | .linkFiles _ => true
  | _ => false

namespace Passive

variable {env : Env W} {A : ClientCall → Prop} {R : Sys W → Sys W → Prop} [Std.Refl R]
  [IsTrans (Sys W) R]

/-- **Every handler owns nothing and makes only its own calls, except the three that register
cleanup functions and the one that links files into a jail.** -/
theorem runHandler (h : Passive env A R) (f : HandlerFn) (h₁ : f ≠ .startVmm)
    (h₂ : f ≠ .createLogFiles) (h₃ : f ≠ .setupNetwork) (h₄ : f.linksFiles = false)
    (hA : ∀ c, f.issues c → A c) : Within R (Machine.runHandler env f) := by
  cases f with
  | configValidation => exact h.validate
  | loadSnapshotConfigValidation => exact h.loadSnapshotConfigValidation
  | jailerConfigValidation => exact within_bind (within_gets _) fun _ => within_ofExcept _
  | networkConfigValidation => exact within_bind (within_gets _) fun _ => within_ofExcept _
  | startVmm => exact absurd rfl h₁
  | createLogFiles => exact absurd rfl h₂
  | bootstrapLogging =>
    exact within_bind (h.setupLogging fun _ => hA _ trivial) fun _ =>
      h.setupMetrics fun _ => hA _ trivial
  | createMachine => exact h.createMachine (fun _ => hA _ trivial) (hA _ trivial)
  | createBootSource => exact within_bind (within_gets _) fun _ => h.call (hA _ trivial)
  | attachDrives =>
    refine within_bind (within_gets _) fun cfg => h.callAll _ fun c hc => ?_
    obtain ⟨drive, -, rfl⟩ := List.mem_map.mp hc
    exact hA _ trivial
  | createNetworkInterfaces =>
    exact within_bind (within_gets _) fun _ =>
      h.createNetworkInterfacesFrom (fun _ _ => hA _ trivial) 0 _
  | addVsocks =>
    refine within_bind (within_gets _) fun cfg => h.callAll _ fun c hc => ?_
    obtain ⟨device, -, rfl⟩ := List.mem_map.mp hc
    exact hA _ trivial
  | setMetadata metadata => exact h.call (hA _ trivial)
  | configMmds => exact h.setMmdsConfig fun _ => hA _ trivial
  | setupNetwork => exact absurd rfl h₃
  | setupKernelArgs => exact h.setupKernelArgs
  | loadSnapshot => exact within_bind (within_gets _) fun _ => h.call (hA _ trivial)
  | linkFiles name => cases h₄
  | user tag => exact within_bind (h.ask _ rfl) fun r => within_ofExcept r

end Passive

end FirecrackerSdk
