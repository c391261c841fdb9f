import FirecrackerSdk.Signal.Counting

/-!
# Runs of the signal forwarding manager

Any sequence of calls to `register` and `unregister`, with any answers of the system calls,
keeps the counters of `FirecrackerSdk.Signal.Counted` with nothing held, and keeps the worker
wired up while there are registrations (`FirecrackerSdk.Signal.Steady`).

The one thing that the manager does not see to is a handler that cannot be put back: the
answer of the `signal(2)` call in `release_signals` is ignored, and from then on the signal
goes to the forwarding handler for good. `FirecrackerSdk.Signal.runCalls_counted` says for
every run what holds of every signal, with that exception.
-/

namespace FirecrackerSdk

namespace Signal

open Prog

variable {W : Type} (env : SignalEnv W)

/-! ### The worker and the numbers of registrations -/

/-- The worker, the descriptor and `SIGNAL_PIPE_WRITE_FD` belong to one pipe. -/
def Installed (fd : OwnedFd) (s : SignalState) : Prop :=
  s.manager.writeFd = some fd ∧ s.manager.worker = some ⟨fd.pipe⟩ ∧ s.pipeWriteFd = fd.raw

/-- There is no worker. -/
def Uninstalled (s : SignalState) : Prop :=
  s.manager.writeFd = none ∧ s.manager.worker = none ∧ s.pipeWriteFd = -1

/-- What holds of the manager apart from the counters, also in the middle of a call. -/
structure Steady (s : SignalState) : Prop where
  wired : (∃ fd, Installed fd s) ∨ Uninstalled s
  live : s.manager.registrations.entries ≠ [] → ∃ fd, Installed fd s
  next : s.manager.nextRegistrationId = s.issued % 2 ^ 64
  ids : ∀ e ∈ s.manager.registrations.entries, e.1 < s.issued
  serials : ∀ e ∈ s.manager.registrations.entries, e.2.serial < s.issued
  distinct : (s.manager.registrations.entries.map fun e => e.2.serial).Nodup

theorem Steady.of_untouched {s s' : SignalState} (h : Steady s) (hsame : Untouched s s') :
    Steady s' := by
  have hwired : ∀ {fd}, Installed fd s → Installed fd s' := by
    rintro fd ⟨h₁, h₂, h₃⟩
    exact ⟨hsame.writeFd.trans h₁, hsame.worker.trans h₂, hsame.pipeWriteFd.trans h₃⟩
  refine ⟨?_, ?_, ?_, ?_, ?_, ?_⟩
  · rcases h.wired with ⟨fd, hfd⟩ | ⟨h₁, h₂, h₃⟩
    · exact .inl ⟨fd, hwired hfd⟩
    · exact .inr ⟨hsame.writeFd.trans h₁, hsame.worker.trans h₂, hsame.pipeWriteFd.trans h₃⟩
  · intro hlive
    rw [hsame.registrations] at hlive
    obtain ⟨fd, hfd⟩ := h.live hlive
    exact ⟨fd, hwired hfd⟩
  · rw [hsame.nextRegistrationId, hsame.issued, h.next]
  · rw [hsame.registrations, hsame.issued]
    exact h.ids
  · rw [hsame.registrations, hsame.issued]
    exact h.serials
  · rw [hsame.registrations]
    exact h.distinct

/-- The three ways in which `ensure_worker` ends. -/
theorem ensureWorker_cases (s : SignalSys W) :
    (s.manager.worker.isSome ∧ ensureWorker env s = (.ok (), s)) ∨
    s.manager.worker = none ∧
      ((∃ error w, ensureWorker env s = (.err (.io error), { s with world := w })) ∨
        ∃ fds w, (env.pipe s.world).1 = .ok fds ∧ ensureWorker env s =
          (.ok (), ⟨s.toSignalState.installWorker fds.2, w⟩)) := by
  unfold ensureWorker
  rw [manager_bind]
  by_cases hworker : s.manager.worker.isSome
  · rw [if_pos hworker]
    exact .inl ⟨hworker, rfl⟩
  · rw [if_neg hworker]
    refine .inr ⟨Option.not_isSome_iff_eq_none.mp hworker, ?_⟩
    have hcall : libcPipe env s =
        (.ok (env.pipe s.world).1, { s with world := (env.pipe s.world).2 }) := rfl
    cases hpipe : (env.pipe s.world).1 with
    | error error =>
      rw [hpipe] at hcall
      exact .inl ⟨error, _, bind_of_ok hcall⟩
    | ok fds =>
      rw [hpipe] at hcall
      exact .inr ⟨fds, _, rfl, bind_of_ok hcall⟩

theorem installed_installWorker (s : SignalState) (writeFd : ℕ) :
    Installed ⟨writeFd, s.pipes⟩ (s.installWorker writeFd) := ⟨rfl, rfl, rfl⟩

theorem Steady.installWorker {s : SignalState} (h : Steady s) (writeFd : ℕ) :
    Steady (s.installWorker writeFd) :=
  ⟨.inl ⟨_, installed_installWorker s writeFd⟩, fun _ => ⟨_, installed_installWorker s writeFd⟩,
    h.next, h.ids, h.serials, h.distinct⟩

/-- The two ways in which `take_shutdown_if_idle` ends. -/
theorem takeShutdownIfIdle_cases {s : SignalSys W} (h : Steady s.toSignalState) :
    takeShutdownIfIdle s = (.ok none, s) ∨
    ∃ fd, Installed fd s.toSignalState ∧ s.manager.registrations.entries = [] ∧
      takeShutdownIfIdle s =
        (.ok (some ⟨fd, ⟨fd.pipe⟩⟩), ⟨s.toSignalState.uninstallWorker, s.world⟩) := by
  unfold takeShutdownIfIdle
  rw [manager_bind]
  by_cases hbusy : s.manager.registrations.entries ≠ [] ∨ s.manager.signalRefs.entries ≠ []
  · rw [if_pos hbusy]
    exact .inl rfl
  · rw [if_neg hbusy]
    have hempty : s.manager.registrations.entries = [] :=
      not_not.mp fun hne => hbusy (.inl hne)
    rcases h.wired with ⟨fd, hfd⟩ | hnone
    · refine .inr ⟨fd, hfd, hempty, ?_⟩
      rw [hfd.1, hfd.2.1]
      rfl
    · rw [hnone.1]
      exact .inl rfl

theorem Steady.uninstallWorker {s : SignalState} (h : Steady s)
    (hempty : s.manager.registrations.entries = []) : Steady s.uninstallWorker :=
  ⟨.inr ⟨rfl, rfl, rfl⟩, fun hlive => absurd hempty hlive, h.next, h.ids, h.serials, h.distinct⟩

/-- A new registration. -/
theorem Steady.insertRegistration {s : SignalSys W} {fd : OwnedFd} (h : Steady s.toSignalState)
    (hfd : Installed fd s.toSignalState) (signals : List ℤ) (childPid : ℕ) :
    Steady (Signal.insertRegistration signals childPid s).2.toSignalState := by
  have hmem : ∀ {e}, e ∈ s.manager.registrations.entries.kerase s.manager.nextRegistrationId →
      e ∈ s.manager.registrations.entries := fun he => (List.kerase_sublist _ _).subset he
  refine ⟨.inl ⟨fd, hfd⟩, fun _ => ⟨fd, hfd⟩, ?_, ?_, ?_, ?_⟩
  · change (s.manager.nextRegistrationId + 1) % 2 ^ 64 = (s.issued + 1) % 2 ^ 64
    rw [h.next, Nat.mod_add_mod]
  · rintro e (_ | ⟨_, he⟩)
    · have hle : s.issued % 2 ^ 64 ≤ s.issued := Nat.mod_le _ _
      change s.manager.nextRegistrationId < s.issued + 1
      rw [h.next]
      omega
    · exact (h.ids e (hmem he)).trans (Nat.lt_succ_self _)
  · rintro e (_ | ⟨_, he⟩)
    · exact Nat.lt_succ_self s.issued
    · exact (h.serials e (hmem he)).trans (Nat.lt_succ_self _)
  · refine List.nodup_cons.mpr ⟨?_, h.distinct.sublist ((List.kerase_sublist _ _).map _)⟩
    intro hold
    obtain ⟨e, he, hserial⟩ := List.mem_map.mp hold
    exact absurd hserial (h.serials e (hmem he)).ne

/-- A registration leaves. -/
theorem Steady.removeRegistration {s : SignalState} (h : Steady s) (registrationId : ℕ) :
    Steady { s with manager := { s.manager with
      registrations := s.manager.registrations.erase registrationId } } := by
  have hsub : (s.manager.registrations.erase registrationId).entries.Sublist
      s.manager.registrations.entries := List.kerase_sublist _ _
  refine ⟨h.wired, fun hlive => h.live fun hempty => hlive ?_, h.next,
    fun e he => h.ids e (hsub.subset he), fun e he => h.serials e (hsub.subset he),
    h.distinct.sublist (hsub.map _)⟩
  rw [hempty] at hsub
  exact List.sublist_nil.mp hsub

/-! ### Calls -/

/-- What holds between two calls: no signal is held, and none was left behind as long as the
numbers of registrations did not repeat. -/
structure Settled (original : ℤ → ℕ) (s : SignalState) : Prop extends Steady s where
  counted : ∃ surplus, (s.issued ≤ 2 ^ 64 → surplus = 0) ∧ Counted original surplus [] s

/-- A worker that is no longer needed is taken away. -/
theorem takeShutdownIfIdle_settled {original : ℤ → ℕ} {s : SignalSys W}
    (h : Settled original s.toSignalState) :
    ∃ shutdown s', takeShutdownIfIdle s = (.ok shutdown, s') ∧
      Settled original s'.toSignalState := by
  rcases takeShutdownIfIdle_cases h.toSteady with hkeep | ⟨fd, -, hempty, htake⟩
  · exact ⟨none, s, hkeep, h⟩
  · obtain ⟨surplus, hsurplus, hcounted⟩ := h.counted
    exact ⟨_, _, htake, h.toSteady.uninstallWorker hempty, surplus, hsurplus,
      hcounted.refs, hcounted.remembered, hcounted.installed⟩

/-- The number of the next registration is free until the numbers repeat. -/
theorem Steady.lookup_next {s : SignalState} (h : Steady s) (hissued : s.issued < 2 ^ 64) :
    s.manager.registrations.lookup s.manager.nextRegistrationId = none := by
  refine AList.lookup_eq_none.mpr fun hmem => ?_
  obtain ⟨e, he, hid⟩ := List.mem_map.mp hmem
  have hlt := h.ids e he
  rw [hid, h.next, Nat.mod_eq_of_lt hissued] at hlt
  exact absurd hlt (Nat.lt_irrefl _)

/-- `register_inner` succeeds, or fails with every signal that it had applied released. -/
theorem registerInner_settled {original : ℤ → ℕ} {s : SignalSys W} (signals : List ℤ)
    (childPid : ℕ) (h : Settled original s.toSignalState) :
    ∃ o s', registerInner env signals childPid s = (o, s') ∧ o ≠ .dropped ∧
      Settled original s'.toSignalState := by
  obtain ⟨surplus, hsurplus, hcounted⟩ := h.counted
  have hrest : ∀ {s₁ : SignalSys W} {fd : OwnedFd}, ensureWorker env s = (.ok (), s₁) →
      Steady s₁.toSignalState → Installed fd s₁.toSignalState → s₁.issued = s.issued →
      Counted original surplus [] s₁.toSignalState →
      ∃ o s', registerInner env signals childPid s = (o, s') ∧ o ≠ .dropped ∧
        Settled original s'.toSignalState := by
    intro s₁ fd hensure hsteady hfd hissued hcounted₁
    unfold registerInner
    rw [bind_of_ok hensure]
    obtain ⟨o, s₂, happly, hsame, ⟨rfl, hheld⟩ | ⟨e, rfl, hcounted₂⟩⟩ :=
      applySignals_spec env [] signals hcounted₁
    · rw [bind_of_ok happly]
      have hsteady₂ := hsteady.of_untouched hsame
      have hfd₂ : Installed fd s₂.toSignalState :=
        ⟨hsame.writeFd.trans hfd.1, hsame.worker.trans hfd.2.1, hsame.pipeWriteFd.trans hfd.2.2⟩
      refine ⟨_, _, rfl, nofun,
        hsteady₂.insertRegistration hfd₂ signals childPid, _, ?_,
        hheld.insertRegistration childPid⟩
      intro hbound
      -- while the ids have not wrapped around, the new one is free
      have hlt : s₂.issued < 2 ^ 64 := hbound
      funext signal
      rw [hsteady₂.lookup_next hlt, hsurplus (by rw [← hissued, ← hsame.issued]; omega)]
      rfl
    · rw [bind_of_err happly]
      refine ⟨_, _, rfl, nofun, hsteady.of_untouched hsame, surplus, ?_, hcounted₂⟩
      rw [hsame.issued, hissued]
      exact hsurplus
  -- a worker there is, or none can be started, or a new one
  rcases ensureWorker_cases env s with
    ⟨hsome, hensure⟩ | ⟨-, ⟨error, w, hensure⟩ | ⟨fds, w, -, hensure⟩⟩
  · rcases h.wired with ⟨fd, hfd⟩ | hun
    · exact hrest hensure h.toSteady hfd rfl hcounted
    · rw [hun.2.1] at hsome
      exact absurd hsome Bool.false_ne_true
  · exact ⟨_, _, bind_of_err hensure, nofun, h⟩
  · exact hrest hensure (h.toSteady.installWorker fds.2) (installed_installWorker _ _) rfl
      ⟨hcounted.refs, hcounted.remembered, hcounted.installed⟩

theorem register_settled {original : ℤ → ℕ} {s : SignalSys W} (signals : List ℤ)
    (childPid : ℕ) (h : Settled original s.toSignalState) :
    ∃ o s', register env signals childPid s = (o, s') ∧ o ≠ .dropped ∧
      Settled original s'.toSignalState := by
  obtain ⟨o, s₁, hinner, hreturned, hsettled⟩ := registerInner_settled env signals childPid h
  unfold register
  cases o with
  | ok registrationId =>
    exact ⟨_, s₁, bind_of_ok (attempt_of_ok hinner), nofun, hsettled⟩
  | err error =>
    obtain ⟨shutdown, s₂, htake, hsettled₂⟩ := takeShutdownIfIdle_settled hsettled
    exact ⟨_, s₂, (bind_of_ok (attempt_of_err hinner)).trans (bind_of_ok htake),
      nofun, hsettled₂⟩
  | dropped => exact absurd rfl hreturned

theorem unregister_settled {original : ℤ → ℕ} {s : SignalSys W} (registrationId : ℕ)
    (h : Settled original s.toSignalState) :
    ∃ o s', unregister env registrationId s = (o, s') ∧ o ≠ .dropped ∧
      Settled original s'.toSignalState := by
  obtain ⟨surplus, hsurplus, hcounted⟩ := h.counted
  obtain ⟨s₁, hrelease, hsame, hcounted₁⟩ := releaseSignals_spec env
    (s := { s with manager := { s.manager with
      registrations := s.manager.registrations.erase registrationId } })
    (hcounted.removeRegistration registrationId)
  have hinner : unregisterInner env registrationId s = (.ok (), s₁) :=
    (bind_of_ok (removeRegistration_eq registrationId s)).trans hrelease
  have hsettled : Settled original s₁.toSignalState := by
    refine ⟨(h.toSteady.removeRegistration registrationId).of_untouched hsame, surplus, ?_,
      hcounted₁⟩
    rw [hsame.issued]
    exact hsurplus
  obtain ⟨shutdown, s₂, htake, hsettled₂⟩ := takeShutdownIfIdle_settled hsettled
  exact ⟨_, s₂, (bind_of_ok hinner).trans (bind_of_ok htake), nofun, hsettled₂⟩

/-! ### Runs -/

/-- A call to the manager. -/
inductive Call where
  | register (signals : List ℤ) (childPid : ℕ)
  | unregister (registrationId : ℕ)

/-- Carry out a call. -/
def Call.perform : Call → SignalOp W Unit
  | .register signals childPid => do
    let _ ← Signal.register env signals childPid
    pure ()
  | .unregister registrationId => Signal.unregister env registrationId

/-- The state after a sequence of calls. -/
def runCalls (s : SignalSys W) : List Call → SignalSys W
  | [] => s
  | call :: calls => runCalls (call.perform env s).2 calls

/-- The state before the first call. -/
def initial (original : ℤ → ℕ) (w : W) : SignalSys W :=
  { dispositions := fun signal => .other (original signal), world := w }

/-- **A call returns**, and leaves everything in order. -/
theorem perform_settled {original : ℤ → ℕ} {s : SignalSys W} (call : Call)
    (h : Settled original s.toSignalState) :
    (call.perform env s).1 ≠ .dropped ∧ Settled original (call.perform env s).2.toSignalState := by
  cases call with
  | register signals childPid =>
    obtain ⟨o, s', hrun, hreturned, hsettled⟩ := register_settled env signals childPid h
    rw [Call.perform]
    cases o with
    | ok registrationId =>
      rw [bind_of_ok hrun]
      exact ⟨nofun, hsettled⟩
    | err error =>
      rw [bind_of_err hrun]
      exact ⟨nofun, hsettled⟩
    | dropped => exact absurd rfl hreturned
  | unregister registrationId =>
    obtain ⟨o, s', hrun, hreturned, hsettled⟩ := unregister_settled env registrationId h
    rw [Call.perform, hrun]
    exact ⟨hreturned, hsettled⟩

theorem settled_initial (original : ℤ → ℕ) (w : W) :
    Settled original (initial original w).toSignalState := by
  refine ⟨⟨.inr ⟨rfl, rfl, rfl⟩, fun hlive => absurd rfl hlive, rfl, ?_, ?_, List.nodup_nil⟩,
    0, fun _ => rfl, fun _ => rfl, fun _ => rfl, fun _ => rfl⟩
  · exact fun e he => absurd he List.not_mem_nil
  · exact fun e he => absurd he List.not_mem_nil

theorem runCalls_settled {original : ℤ → ℕ} {s : SignalSys W} (calls : List Call)
    (h : Settled original s.toSignalState) :
    Settled original (runCalls env s calls).toSignalState := by
  induction calls generalizing s with
  | nil => exact h
  | cons call calls ih => exact ih (perform_settled env call h).2

/-- **The manager over whole runs.** As long as fewer than `2 ^ 64` registrations have been
issued, every signal is counted as often as it stands in the lists of the live registrations;
its old handler is remembered while that is positive; the forwarding handler is installed
while it is positive, or when the old handler could not be put back, and otherwise the signal
does what it did before the first registration; no call underflows; and a live registration
has a worker, a descriptor and `SIGNAL_PIPE_WRITE_FD` on one pipe. -/
theorem runCalls_counted (original : ℤ → ℕ) (w : W) (calls : List Call)
    (hissued : (runCalls env (initial original w) calls).issued < 2 ^ 64) :
    (∀ signal, (runCalls env (initial original w) calls).manager.refCount signal =
        registered (runCalls env (initial original w) calls).manager signal) ∧
      (∀ signal, signal ∈ (runCalls env (initial original w) calls).manager.oldHandlers ↔
        0 < registered (runCalls env (initial original w) calls).manager signal) ∧
      (∀ signal, (runCalls env (initial original w) calls).dispositions signal =
        if 0 < registered (runCalls env (initial original w) calls).manager signal ∨
          signal ∈ (runCalls env (initial original w) calls).unrestored then .forward
        else .other (original signal)) ∧
      (∀ call : Call,
        (call.perform env (runCalls env (initial original w) calls)).1 ≠ .dropped) ∧
      ((runCalls env (initial original w) calls).manager.registrations.entries ≠ [] →
        ∃ fd, Installed fd (runCalls env (initial original w) calls).toSignalState) := by
  have h := runCalls_settled env calls (settled_initial original w)
  set s := runCalls env (initial original w) calls
  obtain ⟨surplus, hsurplus, hcounted⟩ := h.counted
  have hrefs : ∀ signal, s.manager.refCount signal = registered s.manager signal := by
    intro signal
    rw [hcounted.refs, hsurplus hissued.le]
    rfl
  refine ⟨hrefs, fun signal => ?_, fun signal => ?_, fun call => ?_, h.live⟩
  · rw [← AList.lookup_isSome, hcounted.remembered, hrefs]
    by_cases hpos : 0 < registered s.manager signal
    · rw [if_pos hpos]
      exact iff_of_true rfl hpos
    · rw [if_neg hpos]
      exact iff_of_false Bool.false_ne_true hpos
  · rw [hcounted.installed, hrefs, home]
    by_cases hpos : 0 < registered s.manager signal
    · rw [if_pos hpos, if_pos (.inl hpos)]
    · rw [if_neg hpos]
      by_cases hmem : signal ∈ s.unrestored
      · rw [if_pos hmem, if_pos (.inr hmem)]
      · rw [if_neg hmem, if_neg (not_or.mpr ⟨hpos, hmem⟩)]
  · exact (perform_settled env call h).1

/-- `signal(2)` fails from the second call on. -/
def failsToRestore : SignalEnv ℕ where
  signal _ calls :=
    (if calls = 0 then none else some ⟨.other 22, "Invalid argument (os error 22)", some 22⟩,
      calls + 1)
  pipe calls := (.ok (3, 4), calls)

/-- One machine registers `SIGTERM` and unregisters it again while another one keeps
`SIGINT`. -/
theorem runCalls_counted_two_machines :
    (runCalls ⟨fun _ w => (none, w), fun w => (.ok (3, 4), w)⟩ (initial (fun _ => 0) ())
        [.register [15, 2, 15] 7, .register [2] 8, .unregister 0]).manager.refCount 2 = 1 ∧
      registered (runCalls ⟨fun _ w => (none, w), fun w => (.ok (3, 4), w)⟩
        (initial (fun _ => 0) ())
        [.register [15, 2, 15] 7, .register [2] 8, .unregister 0]).manager 2 = 1 := by
  have h := (runCalls_counted ⟨fun _ w => (none, w), fun w => (.ok (3, 4), w)⟩ (fun _ => 0) ()
    [.register [15, 2, 15] 7, .register [2] 8, .unregister 0] (by decide +kernel)).1 2
  exact ⟨h.trans (by decide +kernel), by decide +kernel⟩

/-- **A signal stays forwarded with no registration left**, when the old handler could not be
put back. -/
theorem forwarded_without_registration :
    (runCalls failsToRestore (initial (fun _ => 0) 0)
        [.register [15] 7, .unregister 0]).issued < 2 ^ 64 ∧
      ¬ ((runCalls failsToRestore (initial (fun _ => 0) 0)
          [.register [15] 7, .unregister 0]).dispositions 15 = .forward ↔
        0 < registered (runCalls failsToRestore (initial (fun _ => 0) 0)
          [.register [15] 7, .unregister 0]).manager 15) := by
  decide +kernel

end Signal

end FirecrackerSdk
