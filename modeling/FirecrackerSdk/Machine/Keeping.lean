import FirecrackerSdk.Machine.Custody
import FirecrackerSdk.Machine.Starting

/-!
# Every operation keeps the children in sight

Between two calls a machine knows where its children are and has left nothing half done
(`FirecrackerSdk.Held`); this file shows that every call keeps it that way, whatever the
environment answers and wherever a future is dropped (`FirecrackerSdk.Call.exec_keeps`).

Inside of a call there are moments when that does not hold. The four places that reap a
child – `wait_for_process_exit`, and `try_wait` in `pid`, `send_sigterm_to_vmm` and
`wait_for_vmm_ready` – do so while the registration that names it is live, and the child goes
from `process` before or after. What is shown of each is that it is on the way to
`shutdown_signal_forwarder`, with no await point in between.
-/

namespace FirecrackerSdk

open Prog

variable {W : Type}

/-- The children stay in sight. -/
def Keeps (s s' : Sys (Recorded W)) : Prop := Held s.view → Held s'.view

instance : Std.Refl (Keeps (W := W)) where
  refl _ h := h

instance : IsTrans (Sys (Recorded W)) Keeps where
  trans _ _ _ h h' hs := h' (h hs)

/-- An operation that has nothing to do with children. -/
theorem keeps_of_view {α : Type} {x : Op (Recorded W) α} (h : ∀ s, (x s).2.view = s.view) :
    Within Keeps x := by
  intro s hs
  rw [h]
  exact hs

/-- Writing to other fields of the machine. -/
theorem keeps_update {f : Machine → Machine} (hprocess : ∀ m, (f m).process = m.process)
    (hforwarder : ∀ m, (f m).signalForwarder = m.signalForwarder) :
    Within Keeps (Op.update f : Op (Recorded W) Unit) := by
  refine keeps_of_view fun s => ?_
  change View.mk (f s.machine).process (f s.machine).signalForwarder s.procs s.world.log = _
  rw [hprocess, hforwarder]
  rfl

theorem notes_eq_nil {α : Type} {q : Query α} (h : q.isPassive = true) (a : α) :
    q.notes a = [] := by
  cases q with
  | await point =>
    cases point with
    | childWait => cases h
    | _ => rfl
  | removeFile _ => cases h
  | external _ => cases h
  | spawn _ => cases h
  | exits => cases h
  | tryWaitError _ => cases h
  | childWait _ => cases h
  | register _ _ => cases h
  | unregister _ => cases h
  | _ => rfl

variable (env : Env W)

/-- Asking what is not worth a note. -/
theorem keeps_ask {α : Type} {q : Query α} (h : ∀ a, q.notes a = []) :
    Within Keeps (Op.ask env.recording q) := by
  refine keeps_of_view fun s => ?_
  change View.mk _ _ _ (s.world.log ++ q.notes _) = _
  rw [h, List.append_nil]
  rfl

/-- **What owns nothing has nothing to do with children.** -/
theorem passive_keeps : Passive env.recording (fun _ => True) (Keeps (W := W)) where
  ask _ hq := keeps_ask env (notes_eq_nil hq)
  update hf := keeps_update (fun m => congrArg Core.process (hf m))
    fun m => congrArg Core.signalForwarder (hf m)
  emit _ := keeps_of_view fun _ => rfl
  box _ := keeps_of_view fun _ => rfl
  clock _ := keeps_of_view fun _ => rfl

theorem keeps_settle : Within Keeps (Op.settle env.recording) :=
  fun _ h => ⟨h.1.exits _, h.2.exits _⟩

namespace Machine

/-! ### Operations that have to do with cleanup functions only -/

theorem keeps_pushCleanupFuncs (cleanups : List CleanupFn) :
    Within Keeps (pushCleanupFuncs cleanups : Op (Recorded W) Unit) :=
  keeps_of_view fun _ => rfl

theorem keeps_pushCleanupFunc (action : CleanupAction) :
    Within Keeps (pushCleanupFunc action : Op (Recorded W) Unit) :=
  keeps_of_view fun _ => rfl

theorem keeps_callCleanup (cleanup : CleanupFn) :
    Within Keeps (callCleanup env.recording cleanup) := by
  unfold callCleanup
  split
  · refine within_bind (keeps_ask env fun _ => rfl) fun r => ?_
    cases r with
    | ok _ => exact within_pure _
    | error e => exact within_ite (within_pure _) (within_fail _)
  · exact within_bind (keeps_ask env fun _ => rfl) fun r => within_ofExcept r

theorem keeps_execute (site : DrainSite) (cleanup : CleanupFn) :
    Within Keeps (execute env.recording site cleanup) := by
  refine within_bind (keeps_settle env) fun _ => ?_
  refine within_bind (within_attempt (keeps_callCleanup env cleanup)) fun _ => ?_
  exact within_bind (keeps_of_view fun _ => rfl) fun _ => within_pure _

theorem keeps_drainCleanups (site : DrainSite) (n : ℕ) :
    Within Keeps (drainCleanups env.recording site n) := by
  induction n with
  | zero => exact within_pure _
  | succ n ih =>
    refine within_bind (within_gets _) fun m => ?_
    cases m.cleanupFuncs.getLast? with
    | none => exact within_pure _
    | some cleanup =>
      refine within_bind (keeps_update (fun _ => rfl) fun _ => rfl) fun _ => ?_
      refine within_bind (keeps_execute env site cleanup) fun _ => ?_
      exact within_bind ih fun _ => within_pure _

theorem keeps_doCleanup (site : DrainSite) : Within Keeps (doCleanup env.recording site) := by
  refine within_bind (within_gets _) fun m => within_ite (within_pure _) ?_
  refine within_bind (keeps_update (fun _ => rfl) fun _ => rfl) fun _ => ?_
  refine within_bind (keeps_of_view fun _ => rfl) fun _ => within_bind (within_gets _) fun _ => ?_
  refine within_bind (keeps_drainCleanups env site _) fun errors => ?_
  refine within_bind (keeps_of_view fun _ => rfl) fun _ => ?_
  exact within_ite (within_pure _) (within_fail _)

theorem keeps_setupNetwork : Within Keeps (setupNetwork env.recording) := by
  refine within_bind (within_gets _) fun cfg => within_ite (within_pure _) ?_
  refine within_bind (keeps_update (fun _ => rfl) fun _ => rfl) fun _ => ?_
  exact within_bind ((passive_keeps env).setupCni _ _) fun _ => keeps_pushCleanupFuncs _

theorem keeps_createLogFiles : Within Keeps (createLogFiles env.recording) :=
  (passive_keeps env).createLogFiles keeps_pushCleanupFunc

theorem keeps_linkFiles (name : String) : Within Keeps (linkFiles env.recording name) :=
  (passive_keeps env).linkFiles (fun _ _ => keeps_update (fun _ => rfl) fun _ => rfl) name

/-! ### Observing the child -/

/-- Asking leaves the machine and the processes alone, and leaves a note. -/
theorem ask_view {α : Type} (q : Query α) (s : Sys (Recorded W)) :
    ∃ a s', Op.ask env.recording q s = (.ok a, s') ∧ s'.machine = s.machine ∧
      s'.procs = s.procs ∧ s'.view = { s.view with log := s.view.log ++ q.notes a } :=
  ⟨_, _, rfl, rfl, rfl, rfl⟩

/-- Processes end on their own. -/
theorem settle_view (s : Sys (Recorded W)) :
    ∃ exits s', Op.settle env.recording s = (.ok (), s') ∧ s'.machine = s.machine ∧
      s'.view = { s.view with
        procs := endAll exits s.view.procs
        log := s.view.log ++ [.exited exits] } :=
  ⟨_, _, rfl, rfl, rfl⟩

/-- **`try_wait`**: the child is found running, or is reaped and stays in `process` with its
status. -/
theorem tryWait_held {s : Sys (Recorded W)} (h : Held s.view) :
    ∃ o s', tryWait env.recording s = (o, s') ∧
      ((∃ e, o = .err e) ∧ Held s'.view ∨ o = .ok none ∧ Held s'.view ∨
        ∃ status c, o = .ok (some status) ∧ Tracked s'.view ∧ s'.machine.process = some c ∧
          c.done.isSome = true) := by
  unfold tryWait
  rw [Op.machine_bind]
  cases hc : s.machine.process with
  | none => exact ⟨_, _, rfl, .inr (.inl ⟨rfl, h⟩)⟩
  | some child =>
    dsimp only
    rw [h.2.running child hc]
    dsimp only
    obtain ⟨exits, s₁, h₁, hm₁, hv₁⟩ := settle_view env s
    have hheld : Held s₁.view := by
      rw [hv₁]
      exact ⟨h.1.exits exits, h.2.exits exits⟩
    obtain ⟨error, s₂, h₂, hm₂, hp₂, hv₂⟩ := ask_view env (.tryWaitError child.pid) s₁
    have hc₁ : s₁.view.process = some child := (congrArg Machine.process hm₁).trans hc
    rw [bind_of_ok h₁, bind_of_ok h₂]
    cases error with
    | some error =>
      refine ⟨_, s₂, rfl, .inl ⟨⟨_, rfl⟩, ?_⟩⟩
      have hsame : s₂.view = s₁.view := by
        rw [hv₂]
        exact congrArg (View.mk _ _ _) (List.append_nil _)
      rw [hsame]
      exact hheld
    | none =>
      dsimp only
      rw [gets_bind, hp₂]
      cases hexit : Op.exitOf s₁.procs child.uid with
      | none =>
        refine ⟨_, s₂, rfl, .inr (.inl ⟨rfl, ?_⟩)⟩
        rw [hv₂]
        exact ⟨hheld.1.tried hc₁ hexit, hheld.2.tried⟩
      | some status =>
        refine ⟨_, _, rfl, .inr (.inr ⟨status, _, rfl, ?_, rfl, rfl⟩)⟩
        have hforwarder : s₂.machine.signalForwarder = s₁.view.signalForwarder :=
          congrArg View.signalForwarder hv₂
        have hlog : s₂.world.log = s₁.view.log ++ [.tried] := congrArg View.log hv₂
        change Tracked (View.mk _ s₂.machine.signalForwarder (s₂.procs.modify _ _) s₂.world.log)
        rw [hforwarder, hlog, hp₂]
        exact hheld.1.observed hc₁ hexit

theorem abandon_view (child : Child) (s : Sys (Recorded W)) :
    ∃ s', abandon child s = (.ok (), s') ∧ s'.machine = s.machine ∧ s'.view = s.view := by
  refine ⟨_, rfl, ?_, ?_⟩
  · dsimp only
    split <;> rfl
  · dsimp only
    split <;> rfl

/-- **`wait` on a child**, by its notes: it is dropped or fails, and the processes have only
ended; or the child is reaped. -/
theorem childWait_view {child : Child} (hdone : child.done = none) (s : Sys (Recorded W)) :
    ∃ o s' exits, childWait env.recording child s = (o, s') ∧ s'.machine = s.machine ∧
      ((∃ n, (n = .waitFailed ∨ n = .waitDropped) ∧
        s'.view = { s.view with
          procs := endAll exits s.view.procs
          log := s.view.log ++ [.exited exits] ++ [n] }) ∨
      o ≠ .dropped ∧ ∃ status, s'.view = { s.view with
        procs := ((endAll exits s.view.procs).modify child.uid (Op.endProc status)).modify
          child.uid Proc.reap
        log := s.view.log ++ [.exited exits] ++ [.waited status] }) := by
  unfold childWait
  rw [hdone]
  dsimp only
  obtain ⟨exits, s₁, h₁, hm₁, hv₁⟩ := settle_view env s
  obtain ⟨dropped, s₂, h₂, hm₂, -, hv₂⟩ := ask_view env (.await .childWait) s₁
  rw [bind_of_ok h₁, bind_of_ok h₂]
  cases dropped with
  | true =>
    -- the future is dropped while it waits, and the child with it
    obtain ⟨s₃, h₃, hm₃, hv₃⟩ := abandon_view child s₂
    refine ⟨.dropped, s₃, exits, bind_of_ok h₃, (hm₃.trans hm₂).trans hm₁,
      .inl ⟨.waitDropped, .inr rfl, ?_⟩⟩
    rw [hv₃, hv₂, hv₁]
    rfl
  | false =>
    obtain ⟨result, s₃, h₃, hm₃, -, hv₃⟩ := ask_view env (.childWait child.pid) s₂
    have hv : s₃.view = { s.view with
        procs := endAll exits s.view.procs
        log := s.view.log ++ [.exited exits] ++ Query.notes (.childWait child.pid) result } := by
      rw [hv₃, hv₂, hv₁]
      exact congrArg (fun log => View.mk _ _ _ (log ++ _)) (List.append_nil _)
    have hm : s₃.machine = s.machine := (hm₃.trans hm₂).trans hm₁
    simp only [Bool.false_eq_true, if_false]
    rw [bind_of_ok h₃]
    cases result with
    | error error =>
      -- the wait fails: the child is dropped unreaped
      obtain ⟨s₄, h₄, hm₄, hv₄⟩ := abandon_view child s₃
      refine ⟨_, s₄, exits, bind_of_ok h₄, hm₄.trans hm, .inl ⟨.waitFailed, .inl rfl, ?_⟩⟩
      rw [hv₄, hv]
      rfl
    | ok status =>
      refine ⟨_, _, exits, rfl, hm, .inr ⟨by simp, status, ?_⟩⟩
      have hprocs : s₃.procs = endAll exits s.procs := congrArg View.procs hv
      have hlog := congrArg View.log hv
      have hprocess := congrArg View.process hv
      have hforwarder := congrArg View.signalForwarder hv
      change View.mk s₃.view.process s₃.view.signalForwarder
        ((s₃.procs.modify _ _).modify _ Proc.reap) s₃.view.log = _
      rw [hprocs, hlog, hprocess, hforwarder]
      rfl

/-- **`wait_for_process_exit`**: the child has gone. If the future was dropped, the child
had not been reaped before. -/
theorem waitForProcessExit_tracked {s : Sys (Recorded W)} (h : Tracked s.view) :
    ∃ o s', waitForProcessExit env.recording s = (o, s') ∧ Tracked s'.view ∧
      s'.machine = { s.machine with process := none } ∧
      (o = .dropped → (∃ c, s.machine.process = some c ∧ c.done = none) ∧
        (Rested s.view → Rested s'.view)) := by
  unfold waitForProcessExit
  rw [Op.machine_bind]
  cases hc : s.machine.process with
  | none => exact ⟨_, _, rfl, h, by rw [← hc], by simp⟩
  | some child =>
    dsimp only
    -- the child is taken out of `process` before it is waited for
    rw [Op.update_bind]
    have hresult : ∀ status (t : Sys (Recorded W)), ∃ o,
        Prog.ofExcept (exitStatusResult status) t = (o, t) ∧ o ≠ .dropped := by
      intro status t
      refine ⟨_, ofExcept_fst _ t, ?_⟩
      cases exitStatusResult status <;> simp [Outcome.ofExcept]
    cases hdone : child.done with
    | some status =>
      -- a `try_wait` has reaped it already, and the wait returns at once
      have hrun : ∀ t : Sys (Recorded W), childWait env.recording child t = (.ok status, t) := by
        intro t
        unfold childWait
        rw [hdone]
        rfl
      rw [bind_of_ok (hrun _)]
      obtain ⟨o, ho, hne⟩ := hresult status { s with machine := { s.machine with process := none } }
      refine ⟨o, _, ho, h.collect hc ?_, rfl, fun hdropped => absurd hdropped hne⟩
      rw [hdone]
      rfl
    | none =>
      obtain ⟨o, s', exits, hrun, hm, hv⟩ := childWait_view env hdone
        { s with machine := { s.machine with process := none } }
      have hchild : s.view.process = some child := hc
      have htracked : Tracked s'.view := by
        rcases hv with ⟨n, hn, hv⟩ | ⟨-, status, hv⟩
        · rw [hv]
          exact (h.exits exits).lose hchild hdone hn
        · rw [hv]
          exact (h.exits exits).waited hchild status
      cases o with
      | ok status =>
        obtain ⟨o', ho, hne⟩ := hresult status s'
        exact ⟨o', s', (bind_of_ok hrun).trans ho, htracked, hm,
          fun hdropped => absurd hdropped hne⟩
      | err e => exact ⟨_, s', bind_of_err hrun, htracked, hm, by simp⟩
      | dropped =>
        refine ⟨_, s', bind_of_dropped hrun, htracked, hm, fun _ => ⟨⟨child, rfl, hdone⟩, ?_⟩⟩
        intro hrested
        rcases hv with ⟨n, hn, hv⟩ | ⟨hne, -⟩
        · rw [hv]
          exact (hrested.exits exits).lose hn
        · exact absurd rfl hne

/-! ### Ending a machine -/

/-- With neither a child nor a forwarder nothing is left half done. -/
theorem held_of_idle {s : Sys (Recorded W)} (h : Tracked s.view)
    (hprocess : s.machine.process = none) (hforwarder : s.machine.signalForwarder = none) :
    Held s.view := by
  refine ⟨h, fun c hc => ?_, fun r hr => ?_⟩
  · exact absurd (hprocess.symm.trans hc) (by simp)
  · rw [h.live_eq_nil hforwarder] at hr
    cases hr

/-- **`shutdown_signal_forwarder`**: no registration is live afterwards. -/
theorem shutdownSignalForwarder_tracked {s : Sys (Recorded W)} (h : Tracked s.view) :
    ∃ s', shutdownSignalForwarder env.recording s = (.ok (), s') ∧ Tracked s'.view ∧
      s'.machine = { s.machine with signalForwarder := none } := by
  unfold shutdownSignalForwarder
  rw [Op.machine_bind]
  cases hf : s.machine.signalForwarder with
  | none => exact ⟨s, rfl, h, by rw [← hf]⟩
  | some forwarder => exact ⟨_, rfl, h.unregister hf, rfl⟩

theorem keeps_signalExit : Within Keeps (signalExit : Op (Recorded W) Unit) :=
  keeps_update (fun _ => rfl) fun _ => rfl

theorem keeps_rememberTerminalError (result : Except Error Unit) :
    Within Keeps (rememberTerminalError result : Op (Recorded W) Unit) := by
  refine keeps_update (fun m => ?_) fun m => ?_
  · cases result <;> cases m.fatalErr <;> rfl
  · cases result <;> cases m.fatalErr <;> rfl

/-- **`finalize_exit_result`**, once the child has gone. -/
theorem finalizeExitResult_held (site : DrainSite) (exitResult : Except Error Unit)
    {s : Sys (Recorded W)} (h : Tracked s.view) (hprocess : s.machine.process = none) :
    Held (finalizeExitResult env.recording site exitResult s).2.view := by
  obtain ⟨s₁, h₁, htracked, hm⟩ := shutdownSignalForwarder_tracked env h
  have hheld : Held s₁.view := by
    refine held_of_idle htracked ?_ ?_
    · rw [hm]
      exact hprocess
    · rw [hm]
  unfold finalizeExitResult
  rw [bind_of_ok h₁]
  refine within_bind keeps_signalExit (fun _ => ?_) s₁ hheld
  refine within_bind (within_attempt (keeps_doCleanup env site)) fun cleanupResult => ?_
  cases exitResult with
  | error e => exact within_fail _
  | ok _ => exact within_ofExcept _

/-- **`stop_vmm` and `wait`, once they finalize**, also when `try_wait` has reaped the child
just before. -/
theorem finalizeIfNeeded_held (site : DrainSite) {s : Sys (Recorded W)} (h : Tracked s.view)
    (hready : Rested s.view ∨ ∃ c, s.machine.process = some c ∧ c.done.isSome = true) :
    Held (finalizeIfNeeded env.recording site s).2.view := by
  unfold finalizeIfNeeded
  rw [Op.machine_bind]
  split
  · have hfinal : Held (finalizeProcessExit env.recording site s).2.view := by
      obtain ⟨o, s₁, h₁, htracked, hm, hdropped⟩ := waitForProcessExit_tracked env h
      have hprocess : s₁.machine.process = none := congrArg Machine.process hm
      unfold finalizeProcessExit
      cases o with
      | ok a =>
        rw [bind_of_ok (attempt_of_ok h₁)]
        exact finalizeExitResult_held env site _ htracked hprocess
      | err e =>
        rw [bind_of_ok (attempt_of_err h₁)]
        exact finalizeExitResult_held env site _ htracked hprocess
      | dropped =>
        -- only a child that runs can be waited for long enough to be dropped
        rw [bind_of_dropped (attempt_of_dropped h₁)]
        obtain ⟨⟨c, hc, hdone⟩, hrested⟩ := hdropped rfl
        rcases hready with hready | ⟨c', hc', hdone'⟩
        · exact ⟨htracked, hrested hready⟩
        · obtain rfl := Option.some.inj (hc.symm.trans hc')
          rw [hdone] at hdone'
          cases hdone'
    have hattempt : Held ((finalizeProcessExit env.recording site).attempt s).2.view := by
      rw [snd_attempt]
      exact hfinal
    exact bind_final (Q := fun t : Sys (Recorded W) => Held t.view) hattempt fun r _ =>
      keeps_rememberTerminalError r _ hattempt
  · -- there is no child, so nothing can have been reaped just now
    rename_i hcond
    simp only [Bool.or_eq_true, not_or, Bool.not_eq_true] at hcond
    have hnone : s.machine.process = none := by simpa using hcond.1
    rcases hready with hready | ⟨c, hc, -⟩
    · exact ⟨h, hready⟩
    · rw [hnone] at hc
      cases hc

/-- **`send_sigterm_to_vmm`**: nothing is half done afterwards, or the child has just been
reaped. -/
theorem sendSigtermToVmm_held {s : Sys (Recorded W)} (h : Held s.view) :
    ∃ o s', sendSigtermToVmm env.recording s = (o, s') ∧ Tracked s'.view ∧
      (Rested s'.view ∨ o = .ok () ∧ ∃ c, s'.machine.process = some c ∧ c.done.isSome = true) := by
  unfold sendSigtermToVmm
  rw [Op.machine_bind]
  cases s.machine.process with
  | none => exact ⟨_, _, rfl, h.1, .inl h.2⟩
  | some child =>
    dsimp only
    obtain ⟨o, s₁, h₁, ho⟩ := tryWait_held env h
    rcases ho with ⟨⟨e, rfl⟩, hheld⟩ | ⟨rfl, hheld⟩ | ⟨status, c, rfl, htracked, hc, hdone⟩
    · exact ⟨_, _, bind_of_err h₁, hheld.1, .inl hheld.2⟩
    · rw [bind_of_ok h₁]
      have hrest : ∀ {x : Op (Recorded W) Unit}, Within Keeps x →
          ∃ o s', x s₁ = (o, s') ∧ Tracked s'.view ∧ (Rested s'.view ∨ o = .ok () ∧
            ∃ c, s'.machine.process = some c ∧ c.done.isSome = true) := fun hx =>
        ⟨_, _, rfl, (hx s₁ hheld).1, .inl (hx s₁ hheld).2⟩
      dsimp only
      refine hrest ?_
      cases child.id with
      | none => exact within_pure _
      | some pid =>
        refine within_bind ((passive_keeps env).ask _ rfl) fun r => ?_
        cases r with
        | none => exact within_pure _
        | some error => exact within_ite (within_pure _) (within_fail _)
    · rw [bind_of_ok h₁]
      exact ⟨_, _, rfl, htracked, .inr ⟨rfl, c, hc, hdone⟩⟩

theorem keeps_stopVmmAt (site : DrainSite) : Within Keeps (stopVmmAt env.recording site) := by
  intro s h
  obtain ⟨o, s₁, h₁, htracked, hready⟩ := sendSigtermToVmm_held env h
  unfold stopVmmAt
  cases o with
  | ok a =>
    rw [bind_of_ok h₁]
    exact finalizeIfNeeded_held env site htracked (hready.imp_right And.right)
  | err e =>
    rw [bind_of_err h₁]
    refine ⟨htracked, hready.resolve_right ?_⟩
    rintro ⟨ho, -⟩
    cases ho
  | dropped =>
    rw [bind_of_dropped h₁]
    refine ⟨htracked, hready.resolve_right ?_⟩
    rintro ⟨ho, -⟩
    cases ho

theorem keeps_wait : Within Keeps (wait env.recording) := by
  refine within_bind (fun s h => finalizeIfNeeded_held env .finalize h.1 (.inl h.2)) fun _ => ?_
  refine within_bind (within_gets _) fun m => ?_
  cases m.fatalErr with
  | none => exact within_pure _
  | some error => exact within_fail _

theorem keeps_pid : Within Keeps (pid env.recording) := by
  intro s h
  unfold pid
  rw [Op.machine_bind]
  cases s.machine.process.bind Child.id with
  | none => exact h
  | some pid =>
    dsimp only
    obtain ⟨o, s₁, h₁, ho⟩ := tryWait_held env h
    rcases ho with ⟨⟨e, rfl⟩, hheld⟩ | ⟨rfl, hheld⟩ | ⟨status, c, rfl, htracked, hc, hdone⟩
    · rw [bind_of_err h₁]
      exact hheld
    · rw [bind_of_ok h₁]
      exact hheld
    · rw [bind_of_ok h₁]
      dsimp only
      rw [Op.update_bind]
      have hfinal := finalizeExitResult_held env .finalize (exitStatusResult status)
        (s := { s₁ with machine := { s₁.machine with process := none } })
        (htracked.collect hc hdone) rfl
      rw [← snd_attempt] at hfinal
      refine bind_final (Q := fun t : Sys (Recorded W) => Held t.view) hfinal fun r _ => ?_
      exact within_bind (keeps_rememberTerminalError r) (fun _ => within_fail _) _ hfinal

/-! ### Giving up a start -/

/-- **`abort_start`**, also when the child has been reaped and has gone while its registration
is live. -/
theorem abortStart_held (cause : Error) {s : Sys (Recorded W)} (h : Tracked s.view)
    (hready : Rested s.view ∨ s.machine.process = none) :
    Held (abortStart env.recording cause s).2.view := by
  set s₁ : Sys (Recorded W) :=
    { s with
      trace := s.trace ++ [.aborting s.machine.fatalErr cause]
      machine := { s.machine with exitEvent := true } } with hs₁
  unfold abortStart
  rw [Op.machine_bind, Op.emit_bind, bind_of_ok (show signalExit _ = (.ok (), s₁) from rfl)]
  have hstop : ∃ o s₂, abortStop env.recording s₁ = (o, s₂) ∧ Tracked s₂.view ∧
      ((∃ stopError, o = .ok stopError) ∨ Held s₂.view) := by
    unfold abortStop
    rw [Op.machine_bind]
    split
    · rename_i hsome
      have hheld : Held s₁.view := by
        refine ⟨h, hready.resolve_right fun hnone => ?_⟩
        rw [show s₁.machine.process = none from hnone] at hsome
        cases hsome
      have hkept : Held ((errOf <$> (stopVmmAt env.recording .abortStop).attempt) s₁).2.view := by
        refine (?_ : Within Keeps _) s₁ hheld
        exact within_bind (within_attempt (keeps_stopVmmAt env .abortStop)) fun _ => within_pure _
      exact ⟨_, _, rfl, hkept.1, .inr hkept⟩
    · exact ⟨_, _, rfl, h, .inl ⟨none, rfl⟩⟩
  obtain ⟨o, s₂, h₂, ht₂, ho⟩ := hstop
  -- the rest, whatever the stop returned
  have hrest : ∀ stopError, Held ((do
      shutdownSignalForwarder env.recording
      let waitError ← errOf <$> (waitForProcessExit env.recording).attempt
      let cleanupError ← errOf <$> (doCleanup env.recording .abort).attempt
      let finalError := abortError cause stopError waitError cleanupError
      Op.update fun m => { m with fatalErr := some finalError }
      pure finalError.copy : Op (Recorded W) Error) s₂).2.view := by
    intro stopError
    obtain ⟨s₃, h₃, ht₃, hm₃⟩ := shutdownSignalForwarder_tracked env ht₂
    obtain ⟨o₄, s₄, h₄, ht₄, hm₄, -⟩ := waitForProcessExit_tracked env ht₃
    have hheld : Held s₄.view := by
      refine held_of_idle ht₄ ?_ ?_
      · rw [hm₄]
      · rw [hm₄, hm₃]
    have hlate : ∀ waitError : Option Error, Within Keeps (do
        let cleanupError ← errOf <$> (doCleanup env.recording .abort).attempt
        let finalError := abortError cause stopError waitError cleanupError
        Op.update fun m => { m with fatalErr := some finalError }
        pure finalError.copy : Op (Recorded W) Error) := by
      intro waitError
      refine within_bind ?_ fun _ => within_bind (keeps_update (fun _ => rfl) fun _ => rfl)
        fun _ => within_pure _
      exact within_bind (within_attempt (keeps_doCleanup env .abort)) fun _ => within_pure _
    rw [bind_of_ok h₃]
    cases o₄ with
    | ok a =>
      rw [bind_of_ok (map_of_ok (attempt_of_ok h₄))]
      exact hlate _ s₄ hheld
    | err e =>
      rw [bind_of_ok (map_of_ok (attempt_of_err h₄))]
      exact hlate _ s₄ hheld
    | dropped =>
      rw [bind_of_dropped (map_of_dropped (attempt_of_dropped h₄))]
      exact hheld
  cases o with
  | ok stopError =>
    rw [bind_of_ok h₂]
    exact hrest stopError
  | err e =>
    rw [bind_of_err h₂]
    exact ho.resolve_left (by simp)
  | dropped =>
    rw [bind_of_dropped h₂]
    exact ho.resolve_left (by simp)

/-- What a step of a start may do: keep the children in sight, or fail after it has reaped the
child. -/
def KeepsOrCollects {α : Type} (x : Op (Recorded W) α) : Prop :=
  ∀ s, Held s.view → Held (x s).2.view ∨
    (∃ e, (x s).1 = .err e) ∧ Tracked (x s).2.view ∧ (x s).2.machine.process = none

theorem KeepsOrCollects.of_keeps {α : Type} {x : Op (Recorded W) α} (h : Within Keeps x) :
    KeepsOrCollects x := fun s hs => .inl (h s hs)

theorem KeepsOrCollects.bind {α β : Type} {x : Op (Recorded W) α} {f : α → Op (Recorded W) β}
    (hx : KeepsOrCollects x) (hf : ∀ a, KeepsOrCollects (f a)) : KeepsOrCollects (x >>= f) := by
  intro s hs
  have h := hx s hs
  rcases hrun : x s with ⟨a | e | _, s₁⟩ <;> rw [hrun] at h
  · rw [bind_of_ok hrun]
    rcases h with h | ⟨⟨e, he⟩, -⟩
    · exact hf a s₁ h
    · cases he
  · rw [bind_of_err hrun]
    exact h.imp_right fun h => ⟨⟨e, rfl⟩, h.2⟩
  · rw [bind_of_dropped hrun]
    rcases h with h | ⟨⟨e, he⟩, -⟩
    · exact .inl h
    · cases he

/-- **A step that gives the start up when it fails.** -/
theorem keeps_orAbort {x : Op (Recorded W) Unit} (hx : KeepsOrCollects x) :
    Within Keeps (orAbort env.recording x) := by
  intro s hs
  have h := hx s hs
  rcases hrun : x s with ⟨a | e | _, s₁⟩ <;> rw [hrun] at h
  · rw [orAbort_of_ok _ hrun]
    rcases h with h | ⟨⟨e, he⟩, -⟩
    · exact h
    · cases he
  · rw [orAbort_of_err _ hrun]
    have habort : Held (abortStart env.recording e s₁).2.view := by
      rcases h with h | ⟨-, htracked, hprocess⟩
      · exact abortStart_held env e h.1 (.inl h.2)
      · exact abortStart_held env e htracked (.inr hprocess)
    exact bind_final (Q := fun t : Sys (Recorded W) => Held t.view) habort fun _ _ => habort
  · rw [orAbort_of_dropped _ hrun]
    rcases h with h | ⟨⟨e, he⟩, -⟩
    · exact h
    · cases he

/-! ### Starting the VMM -/

theorem keeps_spawn (command : VMCommand) : Within Keeps (spawn env.recording command) := by
  intro s h
  unfold spawn
  obtain ⟨result, s₁, h₁, hm₁, hp₁, hv₁⟩ := ask_view env (.spawn command) s
  rw [bind_of_ok h₁]
  cases result with
  | error e =>
    have hsame : s₁.view = s.view := hv₁.trans (congrArg (View.mk _ _ _) (List.append_nil _))
    change Held s₁.view
    rw [hsame]
    exact h
  | ok pid =>
    have hforwarder : s₁.machine.signalForwarder = s.view.signalForwarder :=
      congrArg View.signalForwarder hv₁
    have hlog : s₁.world.log = s.view.log ++ [.spawned pid] := congrArg View.log hv₁
    change Held (View.mk (some { uid := s₁.procs.length, pid := pid }) s₁.machine.signalForwarder
      (s₁.procs ++ [{ pid := pid }]) s₁.world.log)
    rw [hforwarder, hlog, hp₁]
    exact ⟨h.1.spawn pid, h.2.spawn pid⟩

theorem keeps_installSignalForwarder : Within Keeps (installSignalForwarder env.recording) := by
  intro s h
  unfold installSignalForwarder
  rw [Op.machine_bind]
  cases s.machine.cfg.forwardSignals with
  | none => exact h
  | some signals =>
    dsimp only
    -- one that exists is kept, and an empty list needs none
    split
    · exact h
    · rename_i hcond
      have hforwarder : s.machine.signalForwarder = none := by
        simp only [Bool.or_eq_true, not_or] at hcond
        simpa using hcond.1
      cases hc : s.machine.process with
      | none => exact h
      | some child =>
        dsimp only
        -- between two calls the child in `process` has not been reaped, so it has an id
        have hid : child.id = some child.pid := by
          rw [Child.id, h.2.running child hc]
        rw [hid]
        dsimp only
        obtain ⟨result, s₁, h₁, hm₁, hp₁, hv₁⟩ := ask_view env (.register signals child.pid) s
        rw [bind_of_ok h₁]
        cases result with
        | error e =>
          have hsame : s₁.view = s.view := hv₁.trans (congrArg (View.mk _ _ _) (List.append_nil _))
          change Held s₁.view
          rw [hsame]
          exact h
        | ok registrationId =>
          have hprocess : s₁.machine.process = s.view.process := congrArg View.process hv₁
          have hlog : s₁.world.log = s.view.log ++ [.registered registrationId signals child.pid] :=
            congrArg View.log hv₁
          change Held (View.mk s₁.machine.process (some ⟨registrationId⟩) s₁.procs s₁.world.log)
          rw [hprocess, hlog, hp₁]
          exact h.register hc hforwarder registrationId signals

/-- A round of the polling loop fails when it has reaped the child. -/
theorem pollVmm_keepsOrCollects (deadline : ℕ) :
    KeepsOrCollects (pollVmm env.recording deadline) := by
  intro s h
  obtain ⟨o, s₁, h₁, ho⟩ := tryWait_held env h
  rcases ho with ⟨⟨e, rfl⟩, hheld⟩ | ⟨rfl, hheld⟩ | ⟨status, c, rfl, htracked, hc, hdone⟩
  · rw [pollVmm, bind_of_err h₁]
    exact .inl hheld
  · rw [pollVmm_of_running h₁]
    exact .inl ((passive_keeps env).pollSocket trivial deadline s₁ hheld)
  · rw [pollVmm, bind_of_ok h₁]
    exact .inr ⟨⟨_, rfl⟩, htracked.collect hc hdone, rfl⟩

theorem waitForVmmReadyFrom_keepsOrCollects (deadline rounds : ℕ) :
    KeepsOrCollects (waitForVmmReadyFrom env.recording deadline rounds) := by
  induction rounds with
  | zero => exact .of_keeps (within_fail _)
  | succ rounds ih =>
    refine (pollVmm_keepsOrCollects env deadline).bind fun reachable => ?_
    cases reachable with
    | true => exact .of_keeps (within_pure _)
    | false => exact ih

theorem waitForVmmReady_keepsOrCollects (timeoutSecs : ℕ) :
    KeepsOrCollects (waitForVmmReady env.recording timeoutSecs) := by
  refine KeepsOrCollects.bind (.of_keeps (passive_keeps env).now) fun now => ?_
  dsimp only
  split
  · exact waitForVmmReadyFrom_keepsOrCollects env _ _
  · exact .of_keeps within_drop

/-- **`start_vmm`.** -/
theorem keeps_startVmm : Within Keeps (startVmm env.recording) := by
  refine within_bind (within_gets _) fun m => ?_
  cases m.command with
  | none => exact within_fail _
  | some command =>
    refine within_bind (keeps_update (fun _ => rfl) fun _ => rfl) fun _ => ?_
    refine within_bind ((passive_keeps env).commandStdio _ _) fun _ => ?_
    refine within_bind ((passive_keeps env).commandStdio _ _) fun _ => ?_
    refine within_bind ((passive_keeps env).commandStdio _ _) fun _ => ?_
    refine within_bind (passive_keeps env).configureCommandNetns fun _ => ?_
    refine within_bind (keeps_spawn env command) fun _ => within_bind (within_gets _) fun _ => ?_
    refine within_bind (keeps_pushCleanupFunc _) fun _ => ?_
    refine within_bind (keeps_orAbort env (.of_keeps (keeps_installSignalForwarder env)))
      fun _ => ?_
    refine within_bind ((passive_keeps env).ask _ rfl) fun _ => ?_
    exact keeps_orAbort env (waitForVmmReady_keepsOrCollects env _)

theorem keeps_runHandler (f : HandlerFn) : Within Keeps (runHandler env.recording f) := by
  cases hf : f with
  | startVmm => exact keeps_startVmm env
  | createLogFiles => exact keeps_createLogFiles env
  | setupNetwork => exact keeps_setupNetwork env
  | linkFiles name => exact keeps_linkFiles env name
  | _ =>
    exact (passive_keeps env).runHandler _ (by simp) (by simp) (by simp) rfl fun _ _ => trivial

theorem keeps_runHandlerList (handlers : List Handler) :
    Within Keeps (runHandlerList env.recording handlers) := by
  induction handlers with
  | nil => exact within_pure _
  | cons handler handlers ih => exact within_bind (keeps_runHandler env handler.func) fun _ => ih

theorem keeps_runHandlers (handlers : Handlers) :
    Within Keeps (runHandlers env.recording handlers) :=
  within_bind (within_gets _) fun _ => within_ite (keeps_runHandlerList env _)
    (within_bind (keeps_runHandlerList env _) fun _ => keeps_runHandlerList env _)

/-- **`start`.** -/
theorem keeps_start : Within Keeps (start env.recording) := by
  refine within_bind (within_gets _) fun m => within_ite (within_fail _) ?_
  refine within_bind (keeps_update (fun _ => rfl) fun _ => rfl) fun _ => ?_
  refine within_bind (within_gets _) fun _ => ?_
  refine within_bind (keeps_orAbort env (.of_keeps (keeps_runHandlers env _))) fun _ => ?_
  exact keeps_orAbort env (.of_keeps ((passive_keeps env).startInstance trivial))

end Machine

/-! ### Calls -/

/-- **Every call keeps the children in sight.** -/
theorem Call.exec_keeps (c : Call) : Within Keeps (c.exec env.recording) := by
  intro s h
  cases c <;> dsimp only [Call.exec] <;> rw [snd_bind_pure]
  case setupNetwork => exact Machine.keeps_setupNetwork env s h
  case createLogFiles => exact Machine.keeps_createLogFiles env s h
  case startVmm => exact Machine.keeps_startVmm env s h
  case start => exact Machine.keeps_start env s h
  case stopVmm => exact Machine.keeps_stopVmmAt env .finalize s h
  case wait => exact Machine.keeps_wait env s h
  case pid => exact Machine.keeps_pid env s h

/-- So does every sequence of calls. -/
theorem runCalls_keeps (calls : List Call) (s : Sys (Recorded W)) :
    Keeps s (runCalls env.recording calls s) := by
  induction calls generalizing s with
  | nil => exact refl_of _ _
  | cons c calls ih => exact trans_of Keeps (Call.exec_keeps env c s) (ih _)

/-- A machine that has not been called has no children. -/
theorem held_initial (b : Blueprint) (clock : ℕ) (w : W) :
    Held (b.initial clock { base := w } : Sys (Recorded W)).view := by
  refine Machine.held_of_idle ⟨rfl, rfl, fun i p hp => ?_, fun c hc => ?_, fun r hr => ?_,
    fun r hr => ?_, fun _ i p hp => ?_, fun hcareful => ?_⟩ rfl rfl
  · exact absurd hp (by simp [Sys.view, Blueprint.initial])
  · cases hc
  · cases hr
  · cases hr
  · exact absurd hp (by simp [Sys.view, Blueprint.initial])
  · cases hcareful

end FirecrackerSdk
