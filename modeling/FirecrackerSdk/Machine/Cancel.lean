import FirecrackerSdk.Machine.Standard
import FirecrackerSdk.Machine.Starting

/-!
# Cleanup and running children

Whether a cleanup function can run while the VMM is still alive. The lifecycle waits for
the child before it drains, and the invariant behind that (`FirecrackerSdk.ChildInv`) is
that every process that is still running is the one in `process`. There is one way
out of it: `wait_for_process_exit` moves the child out of the machine before it suspends,
so when the future is dropped there – or the wait fails – a running process belongs to
nobody, and the next call cleans up under it. The trace has such a child on record as
`abandoned`; as long as it has none, no cleanup function runs while the VMM does
(`FirecrackerSdk.no_cleanup_while_running`).

The machine has to launch at most once, with no child in the way. A start does, with the
handlers that the crate installs (`FirecrackerSdk.standardHandlers_launchesOnce`).
-/

namespace FirecrackerSdk

open Prog

/-! ### The handlers of the crate launch once -/

/-- Handlers that start the VMM at most once, and not while validating. -/
def LaunchesOnce (handlers : Handlers) : Prop :=
  (∀ handler ∈ handlers.validation, handler.func ≠ .startVmm) ∧
    handlers.fcInit.countP (fun handler => handler.func = .startVmm) ≤ 1

theorem standardHandlers_launchesOnce (jailed : Bool) (link : Option String) (snapshot : Bool) :
    LaunchesOnce (standardHandlers jailed link snapshot) := by
  constructor
  · change ∀ handler ∈ standardValidation jailed snapshot, _
    cases jailed <;> cases snapshot <;> decide
  · change (standardInit link snapshot).countP _ ≤ 1
    cases link with
    | none => cases snapshot <;> decide
    | some name => cases snapshot <;> simp [standardInit, setupNetworkHandler,
        setupKernelArgsHandler, startVmmHandler, createLogFilesHandler, linkFilesHandler,
        bootstrapLoggingHandler, addVsocksHandler, loadSnapshotHandler, createMachineHandler,
        createBootSourceHandler, attachDrivesHandler, createNetworkInterfacesHandler,
        configMmdsHandler]

/-! ### The child in `process` is the one that runs -/

/-- **The invariant of the children**: a process that is still running is the child of the
machine, or on record as abandoned; and a cleanup function that ran beside a running
process did so after one was abandoned. -/
structure ChildInv (l : Ledger) : Prop where
  tracked : ∀ i < l.procs.length, Op.exitOf l.procs i = none →
    (∃ child, l.process = some child ∧ child.uid = i) ∨ .abandoned i ∈ l.trace
  done : ∀ child, l.process = some child → child.done.isSome →
    (Op.exitOf l.procs child.uid).isSome
  unstarted : l.started = false → l.process = none
  quiet : ∀ x, .executed x ∈ l.trace → x.vmmRunning = true → ∃ i, .abandoned i ∈ l.trace

/-- A launch is allowed once the machine has been started and while it has no child. -/
def firstLaunch : Policy := launchOnly fun l => l.process = none ∧ l.started = true

/-- Steps that change neither the processes nor the child. -/
theorem ChildInv.of_silent {l l' : Ledger} (h : ChildInv l) {events : List Event}
    (htrace : l'.trace = l.trace ++ events) (hevents : ∀ x, .executed x ∉ events)
    (hprocs : l'.procs = l.procs) (hprocess : l'.process = l.process)
    (hstarted : l'.started = false → l.started = false) : ChildInv l' := by
  refine ⟨?_, ?_, ?_, ?_⟩
  · rw [hprocs, hprocess, htrace]
    exact fun i hi hrun => (h.tracked i hi hrun).imp_right (List.mem_append_left _)
  · rw [hprocs, hprocess]
    exact h.done
  · rw [hprocess]
    exact fun hs => h.unstarted (hstarted hs)
  · rw [htrace]
    intro x hx hrun
    rcases List.mem_append.mp hx with hx | hx
    · obtain ⟨i, hi⟩ := h.quiet x hx hrun
      exact ⟨i, List.mem_append_left _ hi⟩
    · exact absurd hx (hevents x)

theorem ChildInv.of_settles {l : Ledger} (h : ChildInv l) {procs' : List Proc}
    (hs : Settles l.procs procs') : ChildInv { l with procs := procs' } := by
  refine ⟨fun i hi hrun => ?_, fun child hchild hdone => ?_, h.unstarted, h.quiet⟩
  · exact h.tracked i (hs.1 ▸ hi) (hs.exitOf_eq_none hrun)
  · have hsome := h.done child hchild hdone
    change (Op.exitOf procs' child.uid).isSome
    rw [hs.2 _ hsome]
    exact hsome

/-- A drain runs without a child in `process`, so a process that is running then was
abandoned. -/
theorem ChildInv.of_drained {site : DrainSite} {l l' : Ledger} {execs : List Execution}
    (h : ChildInv l) (hdrain : Drained site l execs l') (hprocess : l.process = none)
    (fatalErr : Option Error) : ChildInv { l' with fatalErr := fatalErr } := by
  cases hdrain with
  | idle hdone => exact ⟨h.tracked, h.done, h.unstarted, h.quiet⟩
  | drain hdone hcleanups hsite hfatal hrunning hprocs =>
    have hsettled := h.of_settles hprocs
    refine ⟨fun i hi hrun => ?_, hsettled.done, h.unstarted, fun x hx hrun => ?_⟩
    · exact (hsettled.tracked i hi hrun).imp_right (List.mem_append_left _)
    · rcases List.mem_append.mp hx with hx | hx
      · obtain ⟨i, hi⟩ := h.quiet x hx hrun
        exact ⟨i, List.mem_append_left _ hi⟩
      · obtain ⟨i, hi, hexit⟩ := anyRunning_iff.mp (hrunning x (by simpa using hx) hrun)
        rcases h.tracked i hi hexit with ⟨child, hchild, -⟩ | habandoned
        · rw [hprocess] at hchild
          cases hchild
        · exact ⟨i, List.mem_append_left _ habandoned⟩

/-- **Every step preserves the invariant**, as long as launches are first launches. -/
theorem childInv_step {l l' : Ledger} (hstep : Step firstLaunch l l') (h : ChildInv l) :
    ChildInv l' := by
  cases hstep with
  | calm hfresh hevents =>
    exact h.of_silent rfl (fun x hx => hevents _ hx) rfl rfl fun hs => hs
  | settle hs => exact h.of_settles hs
  | relink _ => exact ⟨h.tracked, h.done, h.unstarted, h.quiet⟩
  | begin => exact h.of_silent (List.append_nil _).symm (by simp) rfl rfl (by simp)
  | push hfresh hevents hnodup hids =>
    refine h.of_silent (List.append_assoc _ _ _) (fun x hx => ?_) rfl rfl fun hs => hs
    rcases List.mem_append.mp hx with hx | hx
    · exact hevents _ hx
    · simp at hx
  | launch hlaunch hid =>
    obtain ⟨hprocess, hstarted⟩ := hlaunch
    refine ⟨fun i hi hrun => ?_, fun child hchild hdone => ?_, fun hs => ?_, fun x hx hrun => ?_⟩
    · rw [List.length_append, List.length_singleton] at hi
      by_cases hlt : i < l.procs.length
      · -- an older process that still runs was abandoned, as there was no child
        have hold : Op.exitOf l.procs i = none := by
          unfold Op.exitOf at hrun ⊢
          rwa [List.getElem?_append_left hlt] at hrun
        rcases h.tracked i hlt hold with ⟨child, hchild, -⟩ | habandoned
        · rw [hprocess] at hchild
          cases hchild
        · exact .inr (List.mem_append_left _ habandoned)
      · exact .inl ⟨_, rfl, show l.procs.length = i by omega⟩
    · obtain rfl := Option.some.inj hchild
      cases hdone
    · exact absurd (hstarted.symm.trans hs) (by decide)
    · obtain ⟨i, hi⟩ := h.quiet x (by simpa using hx) hrun
      exact ⟨i, List.mem_append_left _ hi⟩
  | observe hchild hexit =>
    refine ⟨fun i hi hrun => ?_, fun child' hchild' hdone => ?_, fun hs => ?_, h.quiet⟩
    · -- the child stays where it is, with its status
      rcases h.tracked i hi hrun with ⟨child', hchild', rfl⟩ | habandoned
      · rw [hchild] at hchild'
        obtain rfl := Option.some.inj hchild'
        exact .inl ⟨_, rfl, rfl⟩
      · exact .inr habandoned
    · obtain rfl := Option.some.inj hchild'
      change (Op.exitOf l.procs _).isSome
      rw [hexit]
      rfl
    · rw [h.unstarted hs] at hchild
      cases hchild
  | collect hchild hexit =>
    rename_i child
    refine ⟨fun i hi hrun => ?_, fun child' hchild' => ?_, fun _ => rfl, h.quiet⟩
    · rcases h.tracked i hi hrun with ⟨child', hchild', rfl⟩ | habandoned
      · rw [hchild] at hchild'
        obtain rfl := Option.some.inj hchild'
        -- only a child that has exited is taken out
        have hsome : (Op.exitOf l.procs child.uid).isSome := by
          rcases hexit with hdone | hexit
          · exact h.done child hchild hdone
          · exact hexit hi
        rw [show Op.exitOf l.procs child.uid = none from hrun] at hsome
        cases hsome
      · exact .inr habandoned
    · cases hchild'
  -- the child of a wait that ends early is noted as abandoned
  | abandon hchild =>
    refine ⟨fun i hi hrun => ?_, fun child' hchild' => ?_, fun _ => rfl, fun x hx hrun => ?_⟩
    · rcases h.tracked i hi hrun with ⟨child', hchild', rfl⟩ | habandoned
      · rw [hchild] at hchild'
        obtain rfl := Option.some.inj hchild'
        exact .inr (List.mem_append_right _ List.mem_cons_self)
      · exact .inr (List.mem_append_left _ habandoned)
    · cases hchild'
    · exact ⟨_, List.mem_append_right _ List.mem_cons_self⟩
  | forward hchild => exact ⟨h.tracked, h.done, h.unstarted, h.quiet⟩
  | unforward => exact ⟨h.tracked, h.done, h.unstarted, h.quiet⟩
  | finalize hsite hne hprocess hforwarder hdrain hfailure => exact h.of_drained hdrain hprocess _
  | aborting => exact h.of_silent rfl (by simp) rfl rfl fun hs => hs
  | abort hsite hprocess hforwarder hentered hafter hdrain hcause hfailure =>
    exact h.of_drained hdrain hprocess _

/-! ### Runs -/

variable {W : Type} (env : Env W)

/-- Nothing may be launched. -/
def noLaunch : Policy := launchOnly fun _ => False

theorem noLaunch_stricter : noLaunch.Stricter firstLaunch :=
  ⟨fun _ h => h.elim, fun _ _ => trivial, fun _ => trivial, fun _ _ => trivial⟩

namespace Machine

/-- A list of handlers that launches at most once, run on a started machine without a
child. -/
theorem runHandlerList_firstLaunch (handlers : List Handler)
    (hcount : handlers.countP (fun handler => handler.func = .startVmm) ≤ 1) (s : Sys W)
    (hprocess : s.machine.process = none) (hstarted : s.machine.started = true) :
    Leads firstLaunch s (runHandlerList env handlers s).2 := by
  induction handlers generalizing s with
  | nil => exact refl_of _ _
  | cons handler handlers ih =>
    rw [List.countP_cons] at hcount
    by_cases hf : handler.func = .startVmm
    · -- the launch; none follows
      have hrest : ∀ later ∈ handlers, later.func ≠ .startVmm := by
        have hzero : handlers.countP (fun handler => handler.func = .startVmm) = 0 := by
          simp only [hf, decide_true, if_true] at hcount
          omega
        intro later hmem
        simpa using List.countP_eq_zero.mp hzero later hmem
      have hlaunch : Leads firstLaunch s (runHandler env handler.func s).2 := by
        rw [hf]
        refine startVmm_leads env trivial trivial trivial s fun t ht => ?_
        have hcore := congrArg Core.process ht.core
        have hcore' := congrArg Core.started ht.core
        exact ⟨hcore.trans hprocess, hcore'.trans hstarted⟩
      refine bind_final hlaunch fun _ _ => hlaunch.trans ?_
      exact runHandlerList_leads env handlers (fun later hmem =>
        runHandler_leads env later.func (hrest later hmem) (.inl trivial) fun _ _ => trivial) _
    · -- no launch: what the rest of the list needs is kept
      have hquiet := runHandler_leads (p := noLaunch) env handler.func hf (.inl trivial)
        (fun _ _ => trivial) s
      have hleads : Leads firstLaunch s (runHandler env handler.func s).2 :=
        Walk.mono noLaunch_stricter hquiet
      refine bind_final hleads fun _ _ => hleads.trans ?_
      refine ih (by omega) _ ?_ ?_
      · exact Walk.process_eq_none (fun _ h => h) hquiet hprocess
      · exact Walk.started hquiet hstarted

theorem runHandlers_firstLaunch (handlers : Handlers) (h : LaunchesOnce handlers) (s : Sys W)
    (hprocess : s.machine.process = none) (hstarted : s.machine.started = true) :
    Leads firstLaunch s (runHandlers env handlers s).2 := by
  unfold runHandlers
  rw [Op.cfg_bind]
  split
  · exact runHandlerList_firstLaunch env _ h.2 s hprocess hstarted
  · have hquiet := runHandlerList_leads (p := noLaunch) env handlers.validation
      (fun handler hmem => runHandler_leads env handler.func (h.1 handler hmem) (.inl trivial)
        fun _ _ => trivial) s
    have hleads : Leads firstLaunch s (runHandlerList env handlers.validation s).2 :=
      Walk.mono noLaunch_stricter hquiet
    refine bind_final hleads fun _ _ => hleads.trans ?_
    refine runHandlerList_firstLaunch env _ h.2 _ ?_ ?_
    · exact Walk.process_eq_none (fun _ h => h) hquiet hprocess
    · exact Walk.started hquiet hstarted

end Machine

/-- The calls of a user who leaves the setup to `start`. -/
def Call.isPlain (c : Call) : Prop := c = .start ∨ c = .stopVmm ∨ c = .wait ∨ c = .pid

/-- Such a call launches only first launches. -/
theorem Call.exec_firstLaunch {c : Call} (hc : c.isPlain) {s : Sys W}
    (hs : ChildInv s.ledger) (hhandlers : LaunchesOnce s.machine.handlers) :
    Leads firstLaunch s (c.exec env s).2 := by
  rcases hc with rfl | rfl | rfl | rfl <;> dsimp only [Call.exec] <;> rw [snd_bind_pure]
  · by_cases hstarted : s.machine.started = true
    · have h : Machine.start env s = (.err .alreadyStarted, s) := by
        unfold Machine.start
        rw [Op.machine_bind, hstarted]
        rfl
      rw [h]
      exact refl_of _ _
    · have hprocess := hs.unstarted (Bool.eq_false_iff.mpr hstarted)
      obtain ⟨o, s', h, hl, -, -⟩ := Machine.start_spec env (p := firstLaunch) trivial trivial
        trivial s
        (Machine.runHandlers_firstLaunch env _ hhandlers _ hprocess rfl)
      rw [h]
      exact hl
  · obtain ⟨o, s', h, hl, -⟩ := Machine.stopVmmAt_spec env (p := firstLaunch) .finalize trivial
      (by decide) s
    rw [Machine.stopVmm, h]
    exact hl
  · obtain ⟨o, s', h, hl, -⟩ := Machine.wait_spec env (p := firstLaunch) trivial s
    rw [h]
    exact hl
  · obtain ⟨o, s', h, hl, -⟩ := Machine.pid_spec env (p := firstLaunch) trivial s
    rw [h]
    exact hl

/-- The invariant holds in every state that a run of such calls reaches. -/
theorem childInv_runCalls {calls : List Call} (hcalls : ∀ c ∈ calls, c.isPlain) {s : Sys W}
    (hs : ChildInv s.ledger) (hhandlers : LaunchesOnce s.machine.handlers) :
    ChildInv (runCalls env calls s).ledger := by
  induction calls generalizing s with
  | nil => exact hs
  | cons c calls ih =>
    rw [List.forall_mem_cons] at hcalls
    have hleads := Call.exec_firstLaunch env hcalls.1 hs hhandlers
    refine ih hcalls.2 (Walk.invariant (fun _ _ => childInv_step) hleads hs) ?_
    have hsame : (c.exec env s).2.machine.handlers = s.machine.handlers := Walk.handlers hleads
    rw [hsame]
    exact hhandlers

theorem childInv_initial (b : Blueprint) (clock : ℕ) (w : W) :
    ChildInv (b.initial clock w).ledger := by
  refine ⟨fun i hi => ?_, fun child hchild => ?_, fun _ => rfl, fun x hx => ?_⟩
  · exact absurd hi (Nat.not_lt_zero i)
  · cases hchild
  · cases hx

/-- **No cleanup function runs while the VMM does, as long as no running child is
abandoned.** For every machine that `new_machine` makes and every sequence of `start`,
`stop_vmm`, `wait` and `pid` calls, each dropped at any of its await points: when no
future is dropped, and no wait fails, while it waits for a running child, every cleanup
function is executed after the processes have exited. -/
theorem no_cleanup_while_running {cfg : Config} {uuid cpuset : String} {opts : List Opt}
    {m : Machine} (hm : newMachine cfg uuid cpuset opts = .ok m) (clock : ℕ) (w : W)
    {calls : List Call} (hcalls : ∀ c ∈ calls, c.isPlain)
    (hkept : ∀ uid, .abandoned uid ∉
      (runCalls env calls { machine := m, clock := clock, world := w }).trace) :
    ∀ x, .executed x ∈ (runCalls env calls { machine := m, clock := clock, world := w }).trace →
      x.vmmRunning = false := by
  intro x hx
  obtain ⟨b, rfl⟩ := newMachine_machine hm
  have hhandlers : LaunchesOnce b.machine.handlers := by
    rw [newMachine_handlers hm]
    exact standardHandlers_launchesOnce _ _ _
  have hinv := childInv_runCalls env hcalls (childInv_initial b clock w) hhandlers
  cases hrun : x.vmmRunning with
  | false => rfl
  | true =>
    obtain ⟨i, hi⟩ := hinv.quiet x hx hrun
    exact absurd hi (hkept i)

/-- A start and a `wait` in a world in which nothing goes wrong: the socket is removed after
the VMM has exited. -/
theorem no_cleanup_while_running_sample :
    (∃ x, .executed x ∈ (runCalls (.answering Query.smooth) [.start, .wait] sampleMachine).trace) ∧
      ∀ x, .executed x ∈ (runCalls (.answering Query.smooth) [.start, .wait] sampleMachine).trace →
        x.vmmRunning = false := by
  have hm : newMachine { socketPath := "/run/fc.sock", disableValidation := true } "vm" "" [] =
      .ok sampleMachine.machine := rfl
  have hnone : (runCalls (.answering Query.smooth) [.start, .wait] sampleMachine).trace.all
      (fun e => match e with | .abandoned _ => false | _ => true) = true := by
    decide +kernel
  refine ⟨⟨⟨⟨0, .removeFile "/run/fc.sock"⟩, none, .finalize, none, false⟩, by decide +kernel⟩, ?_⟩
  refine no_cleanup_while_running _ hm 0 () (fun c hc => ?_) fun uid hmem => ?_
  · rcases List.mem_cons.mp hc with rfl | hc
    · exact .inl rfl
    · rw [List.mem_singleton.mp hc]
      exact .inr (.inr (.inl rfl))
  · exact absurd (List.all_eq_true.mp hnone _ hmem) (by simp)

/-- A world in which the future of a `wait` is dropped while it waits for the child. -/
def impatient : Env Unit := .answering fun
  | .await .childWait => true
  | query => query.smooth

/-- Two `wait`s after a start in that world, the first one dropped: the second one removes
the socket of a VMM that is still running. -/
theorem cleanup_under_running_vmm :
    .executed ⟨⟨0, .removeFile "/run/fc.sock"⟩, none, .finalize, none, true⟩ ∈
      (runCalls impatient [.start, .wait, .wait] sampleMachine).trace := by
  decide +kernel

end FirecrackerSdk
