import FirecrackerSdk.Signal.Dispatch

/-!
# Where the handler writes

`forward_signal_handler` reads `SIGNAL_PIPE_WRITE_FD` and then writes to what it has read, with
no lock in between. The manager restores the handlers and stores `-1` before it gives the
descriptor away, but a handler that has read the number by then is not waited for.

`FirecrackerSdk.Signal.Net.writesTo` is the descriptor that a handler is going to write to, and
`FirecrackerSdk.Signal.Net.Owned` says that it is the write end of a pipe that the manager, or
a shutdown that it has handed out, owns. A descriptor stays owned until the shutdown drops it,
so there is one step that matters: `FirecrackerSdk.Signal.handler_writes_to_owned` says that in
every run the handlers write to what is owned exactly if no shutdown drops a descriptor that a
handler has read and not yet written to. `FirecrackerSdk.Signal.handler_outlives_shutdown` is a
run in which one does, and the number is used again before the handler writes.
-/

namespace FirecrackerSdk

namespace Signal

open Net

variable {original : ℤ → ℕ} {n n' : Net} {t : ℕ}

/-! ### Owners -/

/-- The descriptor that the handler of a delivery writes to when it goes on. -/
def Net.writesTo (n : Net) (delivery : ℕ) : Option ℕ :=
  match n.deliveries delivery with
  | some ⟨signal, _, .loaded fd⟩ => if fd < 0 ∨ outOfRange signal then none else some fd.toNat
  | _ => none

/-- The manager, or a shutdown that it has handed out, has this write end. -/
def Net.Owner (n : Net) (fd : OwnedFd) : Prop :=
  Installed fd n.sys ∨ ∃ t, (n.threads t).owned = some fd

/-- A number stands for the write end of a pipe that has an owner. -/
def Net.Owned (n : Net) (f : ℕ) : Prop := ∃ fd : OwnedFd, fd.raw = f ∧ n.Holds fd ∧ n.Owner fd

/-- An owner holds what it owns. -/
theorem Wired.holds_of_owner (h : Wired n) {fd : OwnedFd} (howner : n.Owner fd) : n.Holds fd := by
  rcases howner with hfd | ⟨t, hfd⟩
  · exact (h.current fd hfd).1
  · exact (h.leaving t fd hfd).1

theorem writesTo_eq_some {d f : ℕ} :
    n.writesTo d = some f ↔ ∃ signal before, n.deliveries d = some ⟨signal, before, .loaded f⟩ ∧
      outOfRange signal = false := by
  unfold writesTo
  constructor
  · intro h
    split at h
    · rename_i signal before fd hd
      split at h
      · exact absurd h nofun
      · rename_i hgood
        obtain ⟨hfd, hrange⟩ := not_or.mp hgood
        have heq : fd = f := by
          rw [← Option.some.inj h, Int.toNat_of_nonneg (Int.not_lt.mp hfd)]
        rw [heq] at hd
        exact ⟨signal, before, hd, Bool.eq_false_iff.mpr hrange⟩
    · exact absurd h nofun
  · rintro ⟨signal, before, hd, hrange⟩
    rw [hd]
    dsimp only
    rw [if_neg, Int.toNat_natCast]
    rintro (hneg | hout)
    · exact absurd hneg (Int.not_lt.mpr (Int.natCast_nonneg f))
    · rw [hrange] at hout
      exact absurd hout Bool.false_ne_true

/-! ### Steps outside the callers -/

/-- The callers that are in a call, and what they share, are as they were. -/
def Undisturbed (n n' : Net) : Prop :=
  n'.sys = n.sys ∧ ∀ t, n.threads t ≠ .idle → n'.threads t = n.threads t

theorem undisturbed_of_eq (hsys : n'.sys = n.sys) (hthreads : n'.threads = n.threads) :
    Undisturbed n n' := ⟨hsys, fun t _ => congrFun hthreads t⟩

theorem threads_goto_of_ne {t' : ℕ} (hne : t ≠ t') (pc : Pc) :
    (n.goto t' pc).threads t = n.threads t := Function.update_of_ne hne _ _

theorem undisturbed_proceedCell (cell : Cell) (progress : Progress) (pipe : ℕ) (w : Worker) :
    Undisturbed n ((n.proceedCell cell progress).setWorker pipe w) := by
  obtain ⟨deliveries, heq⟩ := proceedCell_eq n cell progress
  rw [heq]
  exact undisturbed_of_eq rfl rfl

/-- A call moves a thread that is in none. -/
theorem undisturbed_call {t' : ℕ} {call : Call} (h : n.call t' call = some n') :
    Undisturbed n n' := by
  unfold Net.call at h
  split at h
  · exact absurd h nofun
  · rename_i hfree
    have hgoto : ∀ pc t, n.threads t ≠ .idle → (n.goto t' pc).threads t = n.threads t := by
      intro pc t hbusy
      refine threads_goto_of_ne ?_ pc
      rintro rfl
      exact hfree (.inl hbusy)
    split at h
    · obtain rfl := Option.some.inj h
      exact undisturbed_of_eq rfl rfl
    · cases call with
      | register =>
        obtain rfl := Option.some.inj h
        exact ⟨rfl, hgoto _⟩
      | unregister =>
        obtain rfl := Option.some.inj h
        exact ⟨rfl, hgoto _⟩

/-- **Handlers, workers and the rest of the process leave the callers alone.** -/
theorem step_undisturbed {action : Action} (hstep : step n action = some n')
    (hother : ∀ t answer, action ≠ .run t answer) : Undisturbed n n' := by
  cases action with
  | call t' call => exact undisturbed_call hstep
  | run t' answer => exact absurd rfl (hother t' answer)
  | handle => grind [step, Net.handle, undisturbed_of_eq]
  | load => grind [step, Net.load, Net.proceed, undisturbed_of_eq]
  | write => grind [step, Net.write, Net.proceed, Net.push, undisturbed_of_eq]
  | read => grind [step, Net.read, Net.setWorker, undisturbed_of_eq]
  | readFails => grind [step, Net.readFails, undisturbed_of_eq]
  | endOfFile => grind [step, Net.endOfFile, Net.stop, Net.setWorker, undisturbed_of_eq]
  | dispatch =>
    grind [step, Net.dispatch, Net.stop, Net.setWorker, undisturbed_of_eq,
      undisturbed_proceedCell]
  | kill => grind [step, Net.kill, Net.setWorker, undisturbed_of_eq]
  | openElsewhere => grind [step, Net.openElsewhere, undisturbed_of_eq]
  | closeElsewhere => grind [step, Net.closeElsewhere, undisturbed_of_eq]

/-! ### Keeping an owner -/

/-- **A descriptor keeps its owner** in a step of a caller, unless the caller is the owner and
drops it. -/
theorem Net.Owner.moves {fd : OwnedFd} (h : n.Owner fd) (hmoves : Moves original n t n') :
    n'.Owner fd ∨ ∃ shutdown, n.threads t = .closing shutdown ∧ shutdown.writeFd = fd := by
  -- callers that go on with what they had
  have hkept : ∀ {pc : Pc} {m : Net}, pc.owned = (n.threads t).owned →
      m.threads = (n.goto t pc).threads →
      (Installed fd n.sys → m.Owner fd) → m.Owner fd := by
    intro pc m hpc hthreads hinstalled
    rcases h with hfd | ⟨t', hfd⟩
    · exact hinstalled hfd
    · refine .inr ⟨t', ?_⟩
      rw [hthreads, owned_goto hpc, hfd]
  cases hmoves with
  | keeps _ hnone _ _ hkeeps hpc =>
    exact .inl (hkept (hpc.trans hnone.symm) rfl fun hfd => .inl ((hkeeps.installed fd).mpr hfd))
  | installs _ hnone _ _ _ hun hpc =>
    refine .inl (hkept (hpc.trans hnone.symm) rfl fun hfd => ?_)
    have hnone := hfd.1
    rw [hun.1] at hnone
    cases hnone
  | @uninstalls fd' _ hnone _ _ hfd' =>
    left
    rcases h with hfd | ⟨t', hfd⟩
    · have heq : fd' = fd := Option.some.inj (hfd'.1.symm.trans hfd.1)
      refine .inr ⟨t, ?_⟩
      change (Function.update n.threads t _ t).owned = _
      rw [Function.update_self, heq]
      rfl
    · refine .inr ⟨t', ?_⟩
      have hne : t' ≠ t := by
        rintro rfl
        rw [hnone] at hfd
        cases hfd
      exact (congrArg Pc.owned (threads_goto_of_ne hne _)).trans hfd
  | unlocks hat _ hpc =>
    rw [← hat] at hpc
    exact .inl (hkept hpc rfl .inl)
  | stops hat =>
    left
    have hpc : ∀ {shutdown}, n.threads t = .stopping shutdown →
        (Pc.closing shutdown).owned = (n.threads t).owned := fun hat => by rw [hat]; rfl
    unfold writeSentinel
    split
    · exact hkept (hpc hat) rfl .inl
    · exact hkept (hpc hat) rfl .inl
  | @closes shutdown hat =>
    by_cases heq : shutdown.writeFd = fd
    · exact .inr ⟨shutdown, hat, heq⟩
    · left
      rcases h with hfd | ⟨t', hfd⟩
      · exact .inl hfd
      · refine .inr ⟨t', ?_⟩
        have hne : t' ≠ t := by
          rintro rfl
          rw [hat] at hfd
          exact heq (Option.some.inj hfd)
        exact (congrArg Pc.owned (threads_goto_of_ne hne _)).trans hfd
  | joins hat =>
    refine .inl (hkept ?_ rfl .inl)
    rw [hat]
    rfl

theorem Net.Owner.undisturbed {fd : OwnedFd} (h : n.Owner fd) (hsame : Undisturbed n n') :
    n'.Owner fd := by
  rcases h with hfd | ⟨t, hfd⟩
  · left
    rw [hsame.1]
    exact hfd
  · refine .inr ⟨t, ?_⟩
    rw [hsame.2 t, hfd]
    intro hidle
    rw [hidle] at hfd
    exact absurd hfd nofun

/-- The step drops a descriptor under a handler that is going to write to it. -/
def Net.DropsUnderHandler (n : Net) : Action → Prop
  | .run t _ => ∃ shutdown d, n.threads t = .closing shutdown ∧
      n.writesTo d = some shutdown.writeFd.raw
  | _ => False

/-- What a handler is going to write to stays owned. -/
theorem Net.Owned.step {action : Action} {d f : ℕ} (h : Sound original n)
    (hstep : Signal.step n action = some n') (hkept : ¬ n.DropsUnderHandler action)
    (hwrites : n.writesTo d = some f) (howned : n.Owned f) : n'.Owned f := by
  obtain ⟨fd, rfl, -, howner⟩ := howned
  have hnext : n'.Owner fd := by
    by_cases hrun : ∃ t answer, action = .run t answer
    · obtain ⟨t, answer, rfl⟩ := hrun
      rcases howner.moves (run_moves h.guarded hstep) with hnext | ⟨shutdown, hat, rfl⟩
      · exact hnext
      · exact absurd ⟨shutdown, d, hat, hwrites⟩ hkept
    · refine howner.undisturbed (step_undisturbed hstep fun t answer heq => hrun ?_)
      exact ⟨t, answer, heq⟩
  exact ⟨fd, rfl, (h.step hstep).wired.holds_of_owner hnext, hnext⟩

/-! ### Loading the descriptor -/

/-- What is in `SIGNAL_PIPE_WRITE_FD` is owned by the manager. -/
theorem Sound.owned_pipeWriteFd {f : ℕ} (h : Sound original n) (hf : n.sys.pipeWriteFd = f) :
    n.Owned f := by
  rcases h.guarded.orderly.steady.wired with ⟨fd, hfd⟩ | hun
  · refine ⟨fd, ?_, h.wired.holds_of_owner (.inl hfd), .inl hfd⟩
    exact Int.ofNat.inj (hfd.2.2.symm.trans hf)
  · rw [hun.2.2] at hf
    exact absurd hf (by omega)

/-- A delivery whose handler has read a descriptor had read it before, or reads it now. -/
theorem loaded_of_proceed {d d' f : ℕ} {progress : Progress} {signal : ℤ}
    {before : List SignalRegistration}
    (h : (n.proceed d' progress).deliveries d = some ⟨signal, before, .loaded f⟩) :
    n.deliveries d = some ⟨signal, before, .loaded f⟩ ∨ progress = .loaded f := by
  by_cases heq : d = d'
  · subst heq
    right
    change Function.update n.deliveries d _ d = _ at h
    rw [Function.update_self] at h
    obtain ⟨dl, -, hdl⟩ := Option.map_eq_some_iff.mp h
    exact congrArg Delivery.progress hdl
  · left
    change Function.update n.deliveries d' _ d = _ at h
    rwa [Function.update_of_ne heq] at h

/-- A handler is going to write to what it has read. -/
theorem writesTo_of_changes {d f : ℕ} (hchanges : Changes original n n')
    (h : n'.writesTo d = some f) : n.writesTo d = some f ∨ n'.sys.pipeWriteFd = f := by
  obtain ⟨signal, before, hd, hrange⟩ := writesTo_eq_some.mp h
  have hold : n.deliveries d = some ⟨signal, before, .loaded f⟩ → n.writesTo d = some f :=
    fun hd => writesTo_eq_some.mpr ⟨signal, before, hd, hrange⟩
  cases hchanges with
  | moves hmoves =>
    left
    cases hmoves with
    | stops =>
      unfold writeSentinel at hd
      split at hd
      · exact hold hd
      · exact hold hd
    | _ => exact hold hd
  | @starts d' =>
    left
    change Function.update n.deliveries d' _ d = _ at hd
    by_cases heq : d = d'
    · rw [heq, Function.update_self] at hd
      cases hd
    · rw [Function.update_of_ne heq] at hd
      exact hold hd
  -- the only step after which a handler writes to a descriptor that it did not before
  | loads =>
    rcases loaded_of_proceed hd with hd | heq
    · exact .inl (hold hd)
    · exact .inr (Progress.loaded.inj heq)
  | writes =>
    rcases loaded_of_proceed hd with hd | heq
    · exact .inl (hold hd)
    · cases heq
  | loses =>
    rcases loaded_of_proceed hd with hd | heq
    · exact .inl (hold hd)
    · cases heq
  | @dispatches pipe w cell =>
    left
    change (n.proceedCell cell _).deliveries d = _ at hd
    unfold proceedCell at hd
    split at hd
    · rcases loaded_of_proceed hd with hd | heq
      · exact hold hd
      · cases heq
    · exact hold hd
  | _ => exact .inl (hold hd)

/-! ### Whole runs -/

theorem steps_concat {actions : List Action} {action : Action} :
    steps n (actions ++ [action]) = (steps n actions).bind fun m => step m action := by
  induction actions generalizing n with
  | nil =>
    change (step n action).bind some = step n action
    exact Option.bind_fun_some _
  | cons first actions ih =>
    change ((step n first).bind fun m => steps m (actions ++ [action])) = _
    simp only [ih]
    exact (Option.bind_assoc _ _ _).symm

/-- Every handler that is going to write is going to write to what is owned. -/
def Net.WritesOwned (n : Net) : Prop := ∀ d f, n.writesTo d = some f → n.Owned f

/-- **A step keeps the handlers to what is owned**, unless it drops it under one of them. -/
theorem Net.WritesOwned.step {action : Action} (h : n.WritesOwned) (hsound : Sound original n)
    (hstep : Signal.step n action = some n') (hkept : ¬ n.DropsUnderHandler action) :
    n'.WritesOwned := by
  intro d f hwrites
  rcases writesTo_of_changes (step_changes hsound.guarded hstep) hwrites with hbefore | hread
  · exact (h d f hbefore).step hsound hstep hkept hbefore
  · exact (hsound.step hstep).owned_pipeWriteFd hread

/-- After a descriptor is dropped under a handler, the handler writes to what nobody owns. -/
theorem Net.DropsUnderHandler.not_writesOwned {action : Action} (h : n.DropsUnderHandler action) :
    ∃ m, Signal.step n action = some m ∧ ¬ m.WritesOwned := by
  cases action with
  | run t answer =>
    obtain ⟨shutdown, d, hat, hwrites⟩ := h
    refine ⟨(n.goto t (.joining shutdown.worker)).dropWriteFd shutdown.writeFd, ?_,
      fun howned => ?_⟩
    · rw [Signal.step, Net.run, hat]
    · obtain ⟨fd, hraw, ⟨-, hfd⟩, -⟩ := howned d shutdown.writeFd.raw hwrites
      rw [hraw] at hfd
      change Function.update n.fds shutdown.writeFd.raw none shutdown.writeFd.raw = _ at hfd
      rw [Function.update_self] at hfd
      cases hfd
  | _ => exact absurd h id

/-- **The handler writes to a pipe that is owned** in every state of a run, for as long as and
only as long as no shutdown drops a descriptor that a handler has read and not written to. -/
theorem handler_writes_to_owned (original : ℤ → ℕ) (actions : List Action) :
    (∀ before n, before <+: actions → steps (Net.initial original) before = some n →
      ∀ d f, n.writesTo d = some f → n.Owned f) ↔
    ∀ before action n, before ++ [action] <+: actions →
      steps (Net.initial original) before = some n → ¬ n.DropsUnderHandler action := by
  constructor
  · intro h before action n hinitial hrun hdrops
    obtain ⟨m, hstep, hnot⟩ := hdrops.not_writesOwned
    refine hnot (h (before ++ [action]) m hinitial ?_)
    rw [steps_concat, hrun]
    exact hstep
  · intro h before
    -- the state after each step, by induction on the steps before it
    induction before using List.reverseRecOn with
    | nil =>
      intro n _ hrun
      obtain rfl := Option.some.inj hrun
      exact nofun
    | append_singleton before action ih =>
      intro n hinitial hrun
      rw [steps_concat] at hrun
      obtain ⟨m, hm, hstep⟩ := Option.bind_eq_some_iff.mp hrun
      have hshorter : before <+: actions := (List.prefix_append before [action]).trans hinitial
      exact Net.WritesOwned.step (ih m hshorter hm) ((sound_initial original).steps hm) hstep
        (h before action m hinitial hm)

/-- A signal is delivered, its handler reads the descriptor, and the registration goes; the
number is then used for something else. -/
def lateHandler : List Action :=
  [.call 0 (.register [15] 7), .run 0 ⟨none, .ok (3, 4)⟩, .run 0 ⟨none, .ok (3, 4)⟩,
    .run 0 ⟨none, .ok (3, 4)⟩, .run 0 ⟨none, .ok (3, 4)⟩,
    .handle 0 15, .load 0,
    .call 0 (.unregister 0), .run 0 ⟨none, .ok (3, 4)⟩, .run 0 ⟨none, .ok (3, 4)⟩,
    .run 0 ⟨none, .ok (3, 4)⟩, .run 0 ⟨none, .ok (3, 4)⟩, .run 0 ⟨none, .ok (3, 4)⟩,
    .run 0 ⟨none, .ok (3, 4)⟩, .run 0 ⟨none, .ok (3, 4)⟩,
    .openElsewhere 4]

/-- **A handler may outlive the descriptor**: it is going to write to the descriptor of
something else. -/
theorem handler_outlives_shutdown :
    ∃ n, steps (Net.initial fun _ => 0) lateHandler = some n ∧ n.writesTo 0 = some 4 ∧
      n.fds 4 = some .elsewhere ∧ ¬ n.Owned 4 := by
  obtain ⟨n, hn⟩ : ∃ n, steps (Net.initial fun _ => 0) lateHandler = some n :=
    Option.isSome_iff_exists.mp (by decide +kernel)
  have hstate : ((steps (Net.initial fun _ => 0) lateHandler).map fun n =>
      (n.writesTo 0, n.fds 4)) = some (some 4, some .elsewhere) := by
    decide +kernel
  rw [hn] at hstate
  obtain ⟨hwrites, hfd⟩ := Prod.mk.inj (Option.some.inj hstate)
  refine ⟨n, hn, hwrites, hfd, ?_⟩
  rintro ⟨fd, hraw, ⟨-, hholds⟩, -⟩
  rw [hraw, hfd] at hholds
  cases hholds

end Signal

end FirecrackerSdk
