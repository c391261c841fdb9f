import FirecrackerSdk.Signal.Forwarding

/-!
# The callers of the signal forwarding manager

What holds of the mutex, the manager and the descriptors at every step of
`FirecrackerSdk.Signal.step`, whatever the other threads do.

* Under the mutex (`FirecrackerSdk.Signal.Guarded`): the signals that the counters of
  `FirecrackerSdk.Signal.Counted` are ahead by are those that the caller holding the mutex is
  applying or releasing. So no decrement underflows and the mutex is never poisoned.
* Outside (`FirecrackerSdk.Signal.Wired`): the write end of a pipe is owned by the manager or
  by the one caller that is shutting its worker down, and as long as it is the manager's the
  worker runs and no sentinel has been written.

`FirecrackerSdk.Signal.manage_spec` says once what a step under the mutex can do to the part
of the manager that the other threads see; the rest follows from it.
-/

namespace FirecrackerSdk

namespace Signal

open Prog Net

/-! ### Where a caller is -/

/-- Whether the caller holds the mutex. -/
def Pc.locked : Pc → Bool
  | .idle | .stopping _ | .closing _ | .joining _ | .panicked => false
  | _ => true

/-- The signals that it has applied and not yet registered, or has still to release. -/
def Pc.held : Pc → List ℤ
  | .applying applied _ _ => applied
  | .releasing signals => signals
  | _ => []

/-- The write end that it has taken from the manager. -/
def Pc.owned : Pc → Option OwnedFd
  | .unlocking (some shutdown) => some shutdown.writeFd
  | .stopping shutdown => some shutdown.writeFd
  | .closing shutdown => some shutdown.writeFd
  | _ => none

/-- In the loop of `register_inner` there is a worker, and what has been applied is in
range. -/
def Ready (s : SignalState) : Pc → Prop
  | .applying applied _ _ => (∃ fd, Installed fd s) ∧ ∀ signal ∈ applied, outOfRange signal = false
  | _ => True

/-- The signals of live registrations are in range. -/
def InRange (s : SignalState) : Prop :=
  ∀ r ∈ live s, ∀ signal ∈ r.signals, outOfRange signal = false

/-! ### One step under the mutex -/

/-- The worker stays, and the only new registrations are those that are issued. -/
structure Keeps (s s' : SignalState) : Prop where
  installed : ∀ fd, Installed fd s' ↔ Installed fd s
  pipes : s'.pipes = s.pipes
  issued : s.issued ≤ s'.issued
  live : ∀ r ∈ live s', r.serial < s.issued → r ∈ Signal.live s

theorem Keeps.refl (s : SignalState) : Keeps s s :=
  ⟨fun _ => Iff.rfl, rfl, le_rfl, fun _ h _ => h⟩

theorem Untouched.keeps {s s' : SignalState} (h : Untouched s s') : Keeps s s' := by
  refine ⟨fun fd => ?_, h.pipes, h.issued.ge, fun r hr _ => ?_⟩
  · rw [Installed, Installed, h.writeFd, h.worker, h.pipeWriteFd]
  · rwa [Signal.live, h.registrations] at hr

theorem InRange.of_untouched {s s' : SignalState} (hrange : InRange s) (h : Untouched s s') :
    InRange s' := by
  rw [InRange, Signal.live, h.registrations]
  exact hrange

/-- What a step under the mutex does to the worker and the registrations, and where it
leads. -/
inductive Effect (answer : Answer) (s : SignalState) : Pc → SignalState → Prop
  | keeps {pc : Pc} {s' : SignalState} : Keeps s s' → pc.owned = none → Effect answer s pc s'
  | installs {pc : Pc} {fds : ℕ × ℕ} : answer.pipe = .ok fds → live s = [] → Uninstalled s →
      pc.owned = none → Effect answer s pc (s.installWorker fds.2)
  | uninstalls {fd : OwnedFd} : live s = [] → Installed fd s →
      Effect answer s (.unlocking (some ⟨fd, ⟨fd.pipe⟩⟩)) s.uninstallWorker

/-- Everything that a step under the mutex has to keep. -/
structure Orderly (original : ℤ → ℕ) (s : SignalState) (pc : Pc) : Prop where
  steady : Steady s
  counted : ∃ surplus, Counted original surplus pc.held s
  ready : Ready s pc
  inRange : InRange s

theorem live_eq_nil {s : SignalState} (h : s.manager.registrations.entries = []) :
    live s = [] := by
  rw [live, h, List.map_nil]

/-- Without a worker there are no registrations. -/
theorem Steady.live_eq_nil_of_uninstalled {s : SignalState} (h : Steady s)
    (hnone : s.manager.worker = none) : Signal.live s = [] ∧ Uninstalled s := by
  have hun : ∀ fd, ¬ Installed fd s := by
    rintro fd ⟨-, hworker, -⟩
    rw [hnone] at hworker
    exact absurd hworker nofun
  refine ⟨live_eq_nil (not_not.mp fun hlive => ?_), h.wired.resolve_left ?_⟩
  · obtain ⟨fd, hfd⟩ := h.live hlive
    exact hun fd hfd
  · rintro ⟨fd, hfd⟩
    exact hun fd hfd

theorem Steady.exists_installed {s : SignalState} (h : Steady s)
    (hsome : s.manager.worker.isSome) : ∃ fd, Installed fd s := by
  refine h.wired.resolve_right fun hun => ?_
  rw [hun.2.1] at hsome
  exact absurd hsome Bool.false_ne_true

/-- The registrations after one has come. -/
theorem mem_live_insertRegistration {s : SignalSys Unit} {signals : List ℤ} {childPid : ℕ}
    {r : SignalRegistration}
    (h : r ∈ live (insertRegistration signals childPid s).2.toSignalState) :
    r = ⟨childPid, signals, s.issued⟩ ∨ r ∈ live s.toSignalState := by
  obtain ⟨e, he, rfl⟩ := List.mem_map.mp h
  rcases List.mem_cons.mp he with rfl | hold
  · exact .inl rfl
  · exact .inr (List.mem_map_of_mem ((List.kerase_sublist _ _).subset hold))

/-- The registrations after one has left. -/
theorem mem_live_erase {s : SignalState} {registrationId : ℕ} {r : SignalRegistration}
    (h : r ∈ live { s with manager := { s.manager with
      registrations := s.manager.registrations.erase registrationId } }) : r ∈ live s := by
  obtain ⟨e, he, rfl⟩ := List.mem_map.mp h
  exact List.mem_map_of_mem ((List.kerase_sublist _ _).subset he)

/-- **A step under the mutex returns**, keeps everything in order, and does one of three
things to the worker. -/
theorem manage_spec {original : ℤ → ℕ} (answer : Answer) {pc : Pc} {s : SignalState}
    (hlocked : pc.locked = true) (hinside : ∀ shutdown, pc ≠ .unlocking shutdown)
    (h : Orderly original s pc) :
    ∃ pc' s', manage answer.env pc ⟨s, ()⟩ = (.ok pc', ⟨s', ()⟩) ∧ pc'.locked = true ∧
      Orderly original s' pc' ∧ Effect answer s pc' s' := by
  obtain ⟨hsteady, ⟨surplus, hcounted⟩, hready, hrange⟩ := h
  match pc, hlocked with
  | .registering signals childPid, _ =>
    -- `ensure_worker` finds a worker, fails, or starts one
    rcases ensureWorker_cases answer.env ⟨s, ()⟩ with
      ⟨hsome, hrun⟩ | ⟨hnone, ⟨error, w, hrun⟩ | ⟨fds, w, hpipe, hrun⟩⟩
    · exact ⟨_, _, bind_of_ok (attempt_of_ok hrun), rfl,
        ⟨hsteady, ⟨surplus, hcounted⟩, ⟨hsteady.exists_installed hsome, nofun⟩, hrange⟩,
        .keeps (.refl s) rfl⟩
    · exact ⟨_, _, bind_of_ok (attempt_of_err hrun), rfl,
        ⟨hsteady, ⟨surplus, hcounted⟩, trivial, hrange⟩, .keeps (.refl s) rfl⟩
    · obtain ⟨hempty, hun⟩ := hsteady.live_eq_nil_of_uninstalled hnone
      exact ⟨_, _, bind_of_ok (attempt_of_ok hrun), rfl,
        ⟨hsteady.installWorker fds.2,
          ⟨surplus, hcounted.refs, hcounted.remembered, hcounted.installed⟩,
          ⟨⟨_, installed_installWorker s fds.2⟩, nofun⟩, hrange⟩,
        .installs hpipe hempty hun rfl⟩
  | .applying applied [] childPid, _ =>
    obtain ⟨⟨fd, hfd⟩, happlied⟩ := hready
    -- all signals are applied: what was held is now registered
    refine ⟨_, _, rfl, rfl, ⟨hsteady.insertRegistration (s := ⟨s, ()⟩) hfd applied childPid,
      ⟨_, hcounted.insertRegistration (s := ⟨s, ()⟩) childPid⟩, trivial, ?_⟩, .keeps ?_ rfl⟩
    · intro r hr
      rcases mem_live_insertRegistration hr with rfl | hold
      · exact happlied
      · exact hrange r hold
    · refine ⟨fun _ => Iff.rfl, rfl, Nat.le_succ _, fun r hr hserial => ?_⟩
      rcases mem_live_insertRegistration hr with rfl | hold
      · exact absurd hserial (Nat.lt_irrefl _)
      · exact hold
  | .applying applied (signal :: todo) childPid, _ =>
    obtain ⟨⟨fd, hfd⟩, happlied⟩ := hready
    -- a failure gives the applied signals back from the last one on
    have hback : Counted original surplus applied.reverse s :=
      hcounted.perm (List.reverse_perm applied).symm
    rw [manage]
    by_cases hout : outOfRange signal = true
    · rw [if_pos hout]
      exact ⟨_, _, rfl, rfl, ⟨hsteady, ⟨surplus, hback⟩, trivial, hrange⟩,
        .keeps (.refl s) rfl⟩
    · rw [if_neg hout]
      obtain ⟨o, s', hrun, hsame, ⟨rfl, hheld⟩ | ⟨e, rfl, hheld⟩⟩ :=
        applySignal_spec answer.env (s := ⟨s, ()⟩) signal hcounted
      · refine ⟨_, _, bind_of_ok (attempt_of_ok hrun), rfl,
          ⟨hsteady.of_untouched hsame,
            ⟨surplus, hheld.perm (List.perm_append_singleton signal applied).symm⟩,
            ⟨⟨fd, (hsame.keeps.installed fd).mpr hfd⟩, ?_⟩, hrange.of_untouched hsame⟩,
          .keeps hsame.keeps rfl⟩
        intro x hx
        rcases List.mem_append.mp hx with hx | hx
        · exact happlied x hx
        · rw [List.mem_singleton.mp hx]
          exact Bool.eq_false_iff.mpr hout
      · exact ⟨_, _, bind_of_ok (attempt_of_err hrun), rfl,
          ⟨hsteady.of_untouched hsame, ⟨surplus, hheld.perm (List.reverse_perm applied).symm⟩,
            trivial, hrange.of_untouched hsame⟩, .keeps hsame.keeps rfl⟩
  | .unregistering registrationId, _ =>
    refine ⟨_, _, bind_of_ok (removeRegistration_eq registrationId ⟨s, ()⟩), rfl,
      ⟨hsteady.removeRegistration registrationId,
        ⟨surplus, (hcounted.removeRegistration registrationId).perm
          (List.reverse_perm _).symm⟩, trivial, fun r hr => hrange r (mem_live_erase hr)⟩,
      .keeps ⟨fun _ => Iff.rfl, rfl, le_rfl, fun r hr _ => mem_live_erase hr⟩ rfl⟩
  | .releasing [], _ =>
    exact ⟨_, _, rfl, rfl, ⟨hsteady, ⟨surplus, hcounted⟩, trivial, hrange⟩,
      .keeps (.refl s) rfl⟩
  | .releasing (signal :: signals), _ =>
    obtain ⟨s', hrun, hsame, hheld⟩ := releaseSignal_spec answer.env (s := ⟨s, ()⟩) hcounted
    exact ⟨_, _, bind_of_ok hrun, rfl,
      ⟨hsteady.of_untouched hsame, ⟨surplus, hheld⟩, trivial, hrange.of_untouched hsame⟩,
      .keeps hsame.keeps rfl⟩
  | .settling, _ =>
    -- `take_shutdown_if_idle` takes the worker only when nothing is registered
    rcases takeShutdownIfIdle_cases (s := ⟨s, ()⟩) hsteady with
      hrun | ⟨fd, hfd, hempty, hrun⟩
    · exact ⟨_, _, bind_of_ok hrun, rfl, ⟨hsteady, ⟨surplus, hcounted⟩, trivial, hrange⟩,
        .keeps (.refl s) rfl⟩
    · exact ⟨_, _, bind_of_ok hrun, rfl,
        ⟨hsteady.uninstallWorker hempty,
          ⟨surplus, hcounted.refs, hcounted.remembered, hcounted.installed⟩, trivial, hrange⟩,
        .uninstalls (live_eq_nil hempty) hfd⟩
  | .unlocking shutdown, _ => exact absurd rfl (hinside shutdown)

/-! ### One step of a caller -/

/-- The place of the caller that holds the mutex. -/
def holder (n : Net) : Pc := n.lock.elim .idle n.threads

/-- **The mutex guards the manager**, and is never poisoned. -/
structure Guarded (original : ℤ → ℕ) (n : Net) : Prop where
  clean : n.poisoned = false
  exclusive : ∀ t, (n.threads t).locked = true ↔ n.lock = some t
  orderly : Orderly original n.sys (holder n)

/-- Everything that a step of a caller can do. -/
inductive Moves (original : ℤ → ℕ) (n : Net) (t : ℕ) : Net → Prop
  | keeps {pc : Pc} {s : SignalState} : (n.threads t).locked = true →
      (n.threads t).owned = none → pc.locked = true → Orderly original s pc →
      Keeps n.sys s → pc.owned = none → Moves original n t { n.goto t pc with sys := s }
  | installs {pc : Pc} {readFd writeFd : ℕ} : (n.threads t).locked = true →
      (n.threads t).owned = none → pc.locked = true →
      Orderly original (n.sys.installWorker writeFd) pc → live n.sys = [] → Uninstalled n.sys →
      pc.owned = none → n.fds readFd = none → n.fds writeFd = none → readFd ≠ writeFd →
      Moves original n t
        ({ n.goto t pc with sys := n.sys.installWorker writeFd }.spawn n.sys.pipes readFd writeFd)
  | uninstalls {fd : OwnedFd} : (n.threads t).locked = true → (n.threads t).owned = none →
      Orderly original n.sys.uninstallWorker (.unlocking (some ⟨fd, ⟨fd.pipe⟩⟩)) →
      live n.sys = [] → Installed fd n.sys →
      Moves original n t
        { n.goto t (.unlocking (some ⟨fd, ⟨fd.pipe⟩⟩)) with sys := n.sys.uninstallWorker }
  | unlocks {shutdown : Option SignalForwardWorkerShutdown} {pc : Pc} :
      n.threads t = .unlocking shutdown → pc.locked = false →
      pc.owned = (Pc.unlocking shutdown).owned → pc = shutdown.elim .idle .stopping →
      Moves original n t { n.goto t pc with lock := none }
  | stops {shutdown : SignalForwardWorkerShutdown} : n.threads t = .stopping shutdown →
      Moves original n t ((n.goto t (.closing shutdown)).writeSentinel shutdown.writeFd.raw)
  | closes {shutdown : SignalForwardWorkerShutdown} : n.threads t = .closing shutdown →
      Moves original n t
        ((n.goto t (.joining shutdown.worker)).dropWriteFd shutdown.writeFd)
  | joins {worker : JoinHandle} : n.threads t = .joining worker →
      Moves original n t (n.goto t .idle)

variable {original : ℤ → ℕ} {n n' : Net} {t : ℕ}

/-- The caller that holds the mutex is in order. -/
theorem Guarded.orderly_of_locked (h : Guarded original n) (hlocked : (n.threads t).locked = true) :
    Orderly original n.sys (n.threads t) := by
  have horderly := h.orderly
  rwa [holder, (h.exclusive t).mp hlocked] at horderly

theorem runLocked_moves {answer : Answer} (h : Guarded original n)
    (hlocked : (n.threads t).locked = true)
    (hinside : ∀ shutdown, n.threads t ≠ .unlocking shutdown)
    (hrun : n.runLocked t answer = some n') : Moves original n t n' := by
  -- whoever holds the lock has no worker of its own to stop, until it unlocks
  have howned : (n.threads t).owned = none := by
    cases hpc : n.threads t with
    | unlocking shutdown => exact absurd hpc (hinside shutdown)
    | stopping shutdown => rw [hpc] at hlocked; exact absurd hlocked Bool.false_ne_true
    | closing shutdown => rw [hpc] at hlocked; exact absurd hlocked Bool.false_ne_true
    | _ => rfl
  obtain ⟨pc, s, hmanage, hpc, horderly, heffect⟩ :=
    manage_spec answer hlocked hinside (h.orderly_of_locked hlocked)
  rw [runLocked, hmanage] at hrun
  dsimp only at hrun
  cases heffect with
  | keeps hkeeps hnone =>
    rw [if_pos hkeeps.pipes] at hrun
    obtain rfl := Option.some.inj hrun
    exact .keeps hlocked howned hpc horderly hkeeps hnone
  | @installs pc fds hpipe hempty hun hnone =>
    -- the pipe counter tells a step that starts a worker from the others
    have hnew : (n.sys.installWorker fds.2).pipes ≠ n.sys.pipes := Nat.succ_ne_self _
    rw [if_neg hnew, hpipe] at hrun
    dsimp only at hrun
    split at hrun
    · rename_i hfree
      obtain rfl := Option.some.inj hrun
      exact .installs hlocked howned hpc horderly hempty hun hnone hfree.1 hfree.2.1 hfree.2.2
    · exact absurd hrun nofun
  | uninstalls hempty hfd =>
    have hold : n.sys.uninstallWorker.pipes = n.sys.pipes := rfl
    rw [if_pos hold] at hrun
    obtain rfl := Option.some.inj hrun
    exact .uninstalls hlocked howned horderly hempty hfd

/-- **What a step of a caller can do.** -/
theorem run_moves {answer : Answer} (h : Guarded original n) (hrun : n.run t answer = some n') :
    Moves original n t n' := by
  cases hpc : n.threads t with
  | idle => rw [Net.run, hpc] at hrun; exact absurd hrun nofun
  | panicked => rw [Net.run, hpc] at hrun; exact absurd hrun nofun
  | unlocking shutdown =>
    rw [Net.run, hpc] at hrun
    cases shutdown with
    | none =>
      obtain rfl := Option.some.inj hrun
      exact .unlocks hpc rfl rfl rfl
    | some shutdown =>
      obtain rfl := Option.some.inj hrun
      exact .unlocks hpc rfl rfl rfl
  | stopping shutdown =>
    rw [Net.run, hpc] at hrun
    obtain rfl := Option.some.inj hrun
    exact .stops hpc
  | closing shutdown =>
    rw [Net.run, hpc] at hrun
    obtain rfl := Option.some.inj hrun
    exact .closes hpc
  | joining worker =>
    rw [Net.run, hpc] at hrun
    dsimp only at hrun
    split at hrun
    · obtain rfl := Option.some.inj hrun
      exact .joins hpc
    · exact absurd hrun nofun
  | _ =>
    -- the steps under the lock
    have hlocked : n.runLocked t answer = some n' := by rwa [Net.run, hpc] at hrun
    refine runLocked_moves h ?_ ?_ hlocked
    · rw [hpc]
      rfl
    · intro shutdown heq
      rw [hpc] at heq
      exact absurd heq nofun

/-! ### The mutex -/

/-- Nothing that the mutex is about has changed. -/
theorem Guarded.frame (h : Guarded original n) (hsys : n'.sys = n.sys)
    (hthreads : n'.threads = n.threads) (hlock : n'.lock = n.lock)
    (hpoisoned : n'.poisoned = n.poisoned) : Guarded original n' := by
  refine ⟨hpoisoned.trans h.clean, ?_, ?_⟩
  · rw [hthreads, hlock]
    exact h.exclusive
  · rw [holder, hlock, hthreads, hsys]
    exact h.orderly

/-- A caller goes on under the mutex. -/
theorem Guarded.goto_locked (h : Guarded original n) {pc : Pc} {s : SignalState}
    (hlocked : (n.threads t).locked = true) (hpc : pc.locked = true)
    (horderly : Orderly original s pc) : Guarded original { n.goto t pc with sys := s } := by
  have hlock := (h.exclusive t).mp hlocked
  refine ⟨h.clean, fun t' => ?_, ?_⟩
  · by_cases ht : t' = t
    · subst ht
      exact iff_of_true ((congrArg Pc.locked (Function.update_self _ _ _)).trans hpc) hlock
    · change (Function.update n.threads t pc t').locked = true ↔ n.lock = some t'
      rw [Function.update_of_ne ht]
      exact h.exclusive t'
  · have hholder : holder { n.goto t pc with sys := s } = pc := by
      change n.lock.elim Pc.idle (Function.update n.threads t pc) = pc
      rw [hlock]
      exact Function.update_self _ _ _
    rw [hholder]
    exact horderly

/-- Being in order with nothing held. -/
theorem Orderly.of_held_nil {s : SignalState} {pc pc' : Pc} (h : Orderly original s pc)
    (hheld : pc.held = pc'.held) (hready : Ready s pc') : Orderly original s pc' :=
  ⟨h.steady, by rw [← hheld]; exact h.counted, hready, h.inRange⟩

/-- A caller lets the mutex go. -/
theorem Guarded.unlock (h : Guarded original n) {pc : Pc}
    {shutdown : Option SignalForwardWorkerShutdown} (hat : n.threads t = .unlocking shutdown)
    (hpc : pc.locked = false) : Guarded original { n.goto t pc with lock := none } := by
  have hlocked : (n.threads t).locked = true := by rw [hat]; rfl
  have hlock := (h.exclusive t).mp hlocked
  refine ⟨h.clean, fun t' => ?_, ?_⟩
  · refine iff_of_false ?_ nofun
    by_cases ht : t' = t
    · subst ht
      change (Function.update n.threads t' pc t').locked ≠ true
      rw [Function.update_self, hpc]
      exact Bool.false_ne_true
    · change (Function.update n.threads t pc t').locked ≠ true
      rw [Function.update_of_ne ht]
      intro hother
      have := (h.exclusive t').mp hother
      rw [hlock] at this
      exact ht (Option.some.inj this).symm
  · have horderly := h.orderly_of_locked hlocked
    rw [hat] at horderly
    exact horderly.of_held_nil rfl trivial

/-- A caller that does not hold the mutex goes on without it. -/
theorem Guarded.goto_outside (h : Guarded original n) {pc : Pc}
    (hbefore : (n.threads t).locked = false) (hpc : pc.locked = false) :
    Guarded original (n.goto t pc) := by
  have hlock : n.lock ≠ some t := fun hlock => by
    rw [(h.exclusive t).mpr hlock] at hbefore
    exact absurd hbefore nofun
  refine ⟨h.clean, fun t' => ?_, ?_⟩
  · by_cases ht : t' = t
    · subst ht
      change (Function.update n.threads t' pc t').locked = true ↔ n.lock = some t'
      rw [Function.update_self, hpc]
      exact iff_of_false Bool.false_ne_true hlock
    · change (Function.update n.threads t pc t').locked = true ↔ n.lock = some t'
      rw [Function.update_of_ne ht]
      exact h.exclusive t'
  · have hholder : holder (n.goto t pc) = holder n := by
      change n.lock.elim Pc.idle (Function.update n.threads t pc) = n.lock.elim Pc.idle n.threads
      cases hl : n.lock with
      | none => rfl
      | some t' =>
        refine Function.update_of_ne ?_ _ _
        rintro rfl
        exact hlock hl
    rw [hholder]
    exact h.orderly

/-- A caller takes the mutex. -/
theorem Guarded.acquire (h : Guarded original n) {pc : Pc} (hfree : n.lock = none)
    (hpc : pc.locked = true) (hheld : pc.held = []) (hready : Ready n.sys pc) :
    Guarded original { n.goto t pc with lock := some t } := by
  refine ⟨h.clean, fun t' => ?_, ?_⟩
  · by_cases ht : t' = t
    · subst ht
      exact iff_of_true ((congrArg Pc.locked (Function.update_self _ _ _)).trans hpc) rfl
    · refine iff_of_false ?_ fun heq => ht (Option.some.inj heq).symm
      change (Function.update n.threads t pc t').locked ≠ true
      rw [Function.update_of_ne ht]
      intro hother
      have := (h.exclusive t').mp hother
      rw [hfree] at this
      exact absurd this nofun
  · have horderly := h.orderly
    have hholder : holder { n.goto t pc with lock := some t } = pc := Function.update_self _ _ _
    rw [hholder]
    rw [holder, hfree] at horderly
    exact horderly.of_held_nil hheld.symm hready

/-- **A step of a caller keeps the mutex in order.** -/
theorem Guarded.moves (h : Guarded original n) (hmoves : Moves original n t n') :
    Guarded original n' := by
  cases hmoves with
  | keeps hlocked _ hpc horderly => exact h.goto_locked hlocked hpc horderly
  | installs hlocked _ hpc horderly =>
    exact (h.goto_locked hlocked hpc horderly).frame rfl rfl rfl rfl
  | uninstalls hlocked _ horderly => exact h.goto_locked hlocked rfl horderly
  | unlocks hat hpc => exact h.unlock hat hpc
  | @stops shutdown hat =>
    have hgoto : Guarded original (n.goto t (.closing shutdown)) :=
      h.goto_outside (by rw [hat]; rfl) rfl
    unfold writeSentinel
    split
    · exact hgoto.frame rfl rfl rfl rfl
    · exact hgoto
  | @closes shutdown hat =>
    have hgoto : Guarded original (n.goto t (.joining shutdown.worker)) :=
      h.goto_outside (by rw [hat]; rfl) rfl
    exact hgoto.frame rfl rfl rfl rfl
  | joins hat => exact h.goto_outside (by rw [hat]; rfl) rfl

end Signal

end FirecrackerSdk
