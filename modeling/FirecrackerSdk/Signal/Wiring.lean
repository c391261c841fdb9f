import FirecrackerSdk.Signal.Callers

/-!
# Descriptors, pipes and workers

The write end of a pipe has one owner: the manager, or later the caller that shuts the worker
of that pipe down. Numbers of descriptors are used again, but not while they are owned, so a
sentinel goes to the pipe that it is meant for, and a close closes what it is meant to.

`FirecrackerSdk.Signal.Wired` is the invariant. Its first field is the one that deliveries
rest on: while the manager has a pipe, that pipe has a worker that is running, its write end
is open under the number in `SIGNAL_PIPE_WRITE_FD`, and there is no sentinel among the bytes
that the worker has not yet looked at.
-/

namespace FirecrackerSdk

namespace Signal

open Net

variable {original : ℤ → ℕ} {n n' : Net} {t : ℕ}

/-! ### The invariant -/

/-- The bytes of a pipe that its worker has not looked at, in order. -/
def Net.unread (n : Net) (pipe : ℕ) : List Cell :=
  (n.workers pipe).elim [] (·.buffer) ++ n.pipes pipe

/-- A descriptor is open as the write end of its pipe. -/
def Net.Holds (n : Net) (fd : OwnedFd) : Prop :=
  fd.pipe < n.sys.pipes ∧ n.fds fd.raw = some (.writeEnd fd.pipe)

/-- **Each write end has one owner**, and the pipe of the manager has a worker. -/
structure Wired (n : Net) : Prop where
  current : ∀ fd, Installed fd n.sys → n.Holds fd ∧ n.writeOpen fd.pipe = true ∧
    (∃ w, n.active fd.pipe = some w) ∧ ∀ c ∈ n.unread fd.pipe, c.byte ≠ 0
  leaving : ∀ t fd, (n.threads t).owned = some fd → n.Holds fd ∧
    ∀ fd', Installed fd' n.sys → fd'.pipe ≠ fd.pipe
  alone : ∀ t t' fd fd', (n.threads t).owned = some fd → (n.threads t').owned = some fd' →
    fd'.pipe = fd.pipe → t' = t
  reader : ∀ pipe w, n.active pipe = some w → n.fds w.readFd = some (.readEnd pipe)
  fresh : ∀ pipe, n.sys.pipes ≤ pipe → n.workers pipe = none ∧ n.pipes pipe = []

theorem active_eq_some {pipe : ℕ} {w : Worker} :
    n.active pipe = some w ↔ n.workers pipe = some w ∧ w.stopped = false := by
  rw [active, Option.filter_eq_some_iff, Bool.not_eq_true']

/-- Two descriptors that stand for different things are different. -/
theorem fds_ne {f f' : ℕ} {d d' : Descriptor} (h : n.fds f = some d) (h' : n.fds f' = some d')
    (hne : d ≠ d') : f ≠ f' := by
  rintro rfl
  rw [h] at h'
  exact hne (Option.some.inj h')

theorem fds_ne_of_free {f f' : ℕ} {d : Descriptor} (h : n.fds f = some d)
    (h' : n.fds f' = none) : f ≠ f' := by
  rintro rfl
  rw [h] at h'
  exact absurd h' nofun

/-- A write that reaches a pipe. -/
theorem reaches_eq_some {fd pipe : ℕ} (h : n.reaches fd = some pipe) :
    n.fds fd = some (.writeEnd pipe) ∧ ∃ w, n.active pipe = some w := by
  unfold reaches at h
  split at h
  · rename_i pipe' hfd
    split at h
    · rename_i w hw
      split at h
      · exact absurd h nofun
      · rename_i hrunning
        obtain rfl := Option.some.inj h
        exact ⟨hfd, w, active_eq_some.mpr ⟨hw, Bool.eq_false_iff.mpr hrunning⟩⟩
    · exact absurd h nofun
  · exact absurd h nofun

/-- A write to the write end of a pipe whose worker is running reaches it. -/
theorem reaches_of_active {fd pipe : ℕ} {w : Worker} (hfd : n.fds fd = some (.writeEnd pipe))
    (hw : n.active pipe = some w) : n.reaches fd = some pipe := by
  obtain ⟨hworker, hrunning⟩ := active_eq_some.mp hw
  unfold reaches
  rw [hfd]
  dsimp only
  rw [hworker]
  dsimp only
  rw [hrunning]
  rfl

/-- A pipe with a worker has been made. -/
theorem Wired.lt_of_active (h : Wired n) {pipe : ℕ} {w : Worker}
    (hw : n.active pipe = some w) : pipe < n.sys.pipes := by
  refine Nat.lt_of_not_le fun hle => ?_
  have hworker := (active_eq_some.mp hw).1
  rw [(h.fresh pipe hle).1] at hworker
  exact absurd hworker nofun

/-! ### Steps that leave owners and workers alone -/

/-- Callers move, and nothing changes hands. -/
theorem Wired.of_callers (h : Wired n) (hinstalled : ∀ fd, Installed fd n'.sys → Installed fd n.sys)
    (hcount : n'.sys.pipes = n.sys.pipes)
    (howned : ∀ t, (n'.threads t).owned = (n.threads t).owned) (hfds : n'.fds = n.fds)
    (hopen : n'.writeOpen = n.writeOpen) (hpipes : n'.pipes = n.pipes)
    (hworkers : n'.workers = n.workers) : Wired n' := by
  have hholds : ∀ fd, n'.Holds fd ↔ n.Holds fd := fun fd => by rw [Holds, Holds, hcount, hfds]
  have hactive : ∀ pipe, n'.active pipe = n.active pipe := fun pipe => by
    rw [active, active, hworkers]
  have hunread : ∀ pipe, n'.unread pipe = n.unread pipe := fun pipe => by
    rw [unread, unread, hworkers, hpipes]
  refine ⟨fun fd hfd => ?_, fun t fd hfd => ?_, fun t t' fd fd' hfd hfd' => ?_,
    fun pipe w hw => ?_, fun pipe hle => ?_⟩
  · rw [hholds, hopen, hactive, hunread]
    exact h.current fd (hinstalled fd hfd)
  · rw [howned] at hfd
    rw [hholds]
    exact ⟨(h.leaving t fd hfd).1, fun fd' hfd' => (h.leaving t fd hfd).2 fd' (hinstalled fd' hfd')⟩
  · rw [howned] at hfd hfd'
    exact h.alone t t' fd fd' hfd hfd'
  · rw [hactive] at hw
    rw [hfds]
    exact h.reader pipe w hw
  · rw [hcount] at hle
    rw [hworkers, hpipes]
    exact h.fresh pipe hle

/-- Workers and handlers move: no descriptor of a pipe changes, no worker comes or goes, and
no sentinel is written. -/
theorem Wired.of_traffic (h : Wired n) (hsys : n'.sys = n.sys) (hthreads : n'.threads = n.threads)
    (hopen : n'.writeOpen = n.writeOpen)
    (hfds : ∀ f d, n.fds f = some d → d ≠ .elsewhere → n'.fds f = some d)
    (hback : ∀ pipe w', n'.active pipe = some w' →
      ∃ w, n.active pipe = some w ∧ w'.readFd = w.readFd)
    (hactive : ∀ pipe w, n.active pipe = some w → ∃ w', n'.active pipe = some w')
    (hfresh : ∀ pipe, n.workers pipe = none → n.pipes pipe = [] →
      n'.workers pipe = none ∧ n'.pipes pipe = [])
    (hunread : ∀ pipe, ∀ c ∈ n'.unread pipe, c.byte = 0 → c ∈ n.unread pipe) : Wired n' := by
  have hholds : ∀ fd, n.Holds fd → n'.Holds fd := by
    rintro fd ⟨hlt, hfd⟩
    rw [Holds, hsys]
    exact ⟨hlt, hfds _ _ hfd nofun⟩
  refine ⟨fun fd hfd => ?_, fun t fd hfd => ?_, fun t t' fd fd' hfd hfd' => ?_,
    fun pipe w hw => ?_, fun pipe hle => ?_⟩
  · rw [hsys] at hfd
    obtain ⟨hheld, hwrite, ⟨w, hw⟩, hclean⟩ := h.current fd hfd
    rw [hopen]
    exact ⟨hholds fd hheld, hwrite, hactive _ w hw,
      fun c hc hzero => hclean c (hunread _ c hc hzero) hzero⟩
  · rw [hthreads] at hfd
    rw [hsys]
    exact ⟨hholds fd (h.leaving t fd hfd).1, (h.leaving t fd hfd).2⟩
  · rw [hthreads] at hfd hfd'
    exact h.alone t t' fd fd' hfd hfd'
  · obtain ⟨w₀, hw₀, hread⟩ := hback pipe w hw
    rw [hread]
    exact hfds _ _ (h.reader pipe w₀ hw₀) nofun
  · rw [hsys] at hle
    exact hfresh pipe (h.fresh pipe hle).1 (h.fresh pipe hle).2

/-! ### Steps of a caller -/

/-- A caller that keeps what it owns. -/
theorem owned_goto {pc : Pc} (hpc : pc.owned = (n.threads t).owned) (t' : ℕ) :
    ((n.goto t pc).threads t').owned = (n.threads t').owned := by
  change (Function.update n.threads t pc t').owned = _
  by_cases ht : t' = t
  · rw [ht, Function.update_self, hpc]
  · rw [Function.update_of_ne ht]

/-- A new pipe belongs to the manager. -/
theorem Wired.spawn (h : Wired n) {pc : Pc} {readFd writeFd : ℕ}
    (hpc : pc.owned = (n.threads t).owned) (hread : n.fds readFd = none)
    (hwrite : n.fds writeFd = none) (hne : readFd ≠ writeFd) :
    Wired ({ n.goto t pc with sys := n.sys.installWorker writeFd }.spawn n.sys.pipes readFd
      writeFd) := by
  -- both descriptors were free, so every other one stays open
  have hfds : ∀ {f d}, n.fds f = some d → Function.update (Function.update n.fds readFd
      (some (.readEnd n.sys.pipes))) writeFd (some (.writeEnd n.sys.pipes)) f = some d := by
    intro f d hf
    rw [Function.update_of_ne (fds_ne_of_free hf hwrite),
      Function.update_of_ne (fds_ne_of_free hf hread), hf]
  have hinstalled : ∀ {fd}, Installed fd (n.sys.installWorker writeFd) →
      fd = ⟨writeFd, n.sys.pipes⟩ := fun hfd => (Option.some.inj hfd.1).symm
  have hfresh := h.fresh n.sys.pipes le_rfl
  refine ⟨fun fd hfd => ?_, fun t' fd hfd => ?_, fun t' t'' fd fd' hfd hfd' => ?_,
    fun pipe w hw => ?_, fun pipe hle => ?_⟩
  · -- the new pipe is empty
    obtain rfl := hinstalled hfd
    refine ⟨⟨Nat.lt_succ_self _, Function.update_self _ _ _⟩, Function.update_self _ _ _,
      ⟨{ readFd := readFd }, active_eq_some.mpr ⟨Function.update_self _ _ _, rfl⟩⟩, ?_⟩
    intro c hc
    change c ∈ (Function.update n.workers n.sys.pipes (some { readFd := readFd })
      n.sys.pipes).elim [] (·.buffer) ++ n.pipes n.sys.pipes at hc
    rw [Function.update_self, hfresh.2] at hc
    exact absurd hc List.not_mem_nil
  · have hold := h.leaving t' fd ((owned_goto hpc t').symm.trans hfd)
    refine ⟨⟨hold.1.1.trans (Nat.lt_succ_self _), hfds hold.1.2⟩, fun fd' hfd' => ?_⟩
    rw [hinstalled hfd']
    exact hold.1.1.ne'
  · exact h.alone t' t'' fd fd' ((owned_goto hpc t').symm.trans hfd)
      ((owned_goto hpc t'').symm.trans hfd')
  · obtain ⟨hworker, hrunning⟩ := active_eq_some.mp hw
    by_cases hpipe : pipe = n.sys.pipes
    · subst hpipe
      change Function.update n.workers n.sys.pipes (some { readFd := readFd }) n.sys.pipes =
        some w at hworker
      rw [Function.update_self] at hworker
      obtain rfl := Option.some.inj hworker
      exact (Function.update_of_ne hne _ _).trans (Function.update_self _ _ _)
    · have hold : n.workers pipe = some w := (Function.update_of_ne hpipe _ _).symm.trans hworker
      exact hfds (h.reader pipe w (active_eq_some.mpr ⟨hold, hrunning⟩))
  · have hlt : n.sys.pipes < pipe := hle
    exact ⟨(Function.update_of_ne hlt.ne' _ _).trans (h.fresh pipe hlt.le).1,
      (h.fresh pipe hlt.le).2⟩

/-- The write end changes hands, from the manager to the caller. -/
theorem Wired.take (h : Wired n) {fd : OwnedFd} (hnone : (n.threads t).owned = none)
    (hfd : Installed fd n.sys) :
    Wired { n.goto t (.unlocking (some ⟨fd, ⟨fd.pipe⟩⟩)) with
      sys := n.sys.uninstallWorker } := by
  have hun : ∀ fd', ¬ Installed fd' n.sys.uninstallWorker := fun fd' hfd' => absurd hfd'.1 nofun
  have howned : ∀ {t' fd'}, ((n.goto t (.unlocking (some ⟨fd, ⟨fd.pipe⟩⟩))).threads t').owned =
      some fd' → t' = t ∧ fd' = fd ∨ t' ≠ t ∧ (n.threads t').owned = some fd' := by
    intro t' fd' hfd'
    change (Function.update n.threads t _ t').owned = _ at hfd'
    by_cases ht : t' = t
    · rw [ht, Function.update_self] at hfd'
      exact .inl ⟨ht, (Option.some.inj hfd').symm⟩
    · rw [Function.update_of_ne ht] at hfd'
      exact .inr ⟨ht, hfd'⟩
  refine ⟨fun fd' hfd' => absurd hfd' (hun fd'), fun t' fd' hfd' => ?_,
    fun t₁ t₂ fd₁ fd₂ h₁ h₂ heq => ?_, h.reader, h.fresh⟩
  · refine ⟨?_, fun fd'' hfd'' => absurd hfd'' (hun fd'')⟩
    rcases howned hfd' with ⟨-, rfl⟩ | ⟨-, hold⟩
    · exact (h.current fd' hfd).1
    · exact (h.leaving t' fd' hold).1
  · rcases howned h₁ with ⟨rfl, rfl⟩ | ⟨-, hold₁⟩ <;> rcases howned h₂ with ⟨rfl, rfl⟩ | ⟨-, hold₂⟩
    · rfl
    · exact absurd heq.symm ((h.leaving t₂ fd₂ hold₂).2 fd₁ hfd)
    · exact absurd heq ((h.leaving t₁ fd₁ hold₁).2 fd₂ hfd)
    · exact h.alone t₁ t₂ fd₁ fd₂ hold₁ hold₂ heq

/-- A byte at the end of a pipe. -/
theorem unread_push {pipe : ℕ} {cell : Cell} (pipe' : ℕ) :
    (n.push pipe cell).unread pipe' =
      if pipe' = pipe then n.unread pipe' ++ [cell] else n.unread pipe' := by
  change (n.workers pipe').elim [] (·.buffer) ++
    Function.update n.pipes pipe (n.pipes pipe ++ [cell]) pipe' = _
  by_cases hpipe : pipe' = pipe
  · rw [if_pos hpipe, hpipe, Function.update_self, ← List.append_assoc]
    rfl
  · rw [if_neg hpipe, Function.update_of_ne hpipe]
    rfl

/-- The sentinel goes to a pipe that the manager no longer has. -/
theorem Wired.writeSentinel (h : Wired n) {fd : OwnedFd} (hfd : (n.threads t).owned = some fd) :
    Wired (n.writeSentinel fd.raw) := by
  unfold Net.writeSentinel
  split
  · rename_i pipe hreaches
    obtain ⟨hwrite, w, hw⟩ := reaches_eq_some hreaches
    have hpipe : pipe = fd.pipe := by
      rw [(h.leaving t fd hfd).1.2] at hwrite
      exact (Descriptor.writeEnd.inj (Option.some.inj hwrite)).symm
    refine ⟨fun fd' hfd' => ?_, h.leaving, h.alone, h.reader, fun pipe' hle => ?_⟩
    · obtain ⟨hheld, hopen, hactive, hclean⟩ := h.current fd' hfd'
      refine ⟨hheld, hopen, hactive, ?_⟩
      rw [unread_push, if_neg]
      · exact hclean
      · rw [hpipe]
        exact (h.leaving t fd hfd).2 fd' hfd'
    · refine ⟨(h.fresh pipe' hle).1, (Function.update_of_ne ?_ _ _).trans (h.fresh pipe' hle).2⟩
      exact ((h.lt_of_active hw).trans_le hle).ne'
  · exact h

/-- A caller drops the write end that it owns. -/
theorem Wired.dropWriteFd (h : Wired n) {fd : OwnedFd} {pc : Pc}
    (hfd : (n.threads t).owned = some fd) (hpc : pc.owned = none) :
    Wired ((n.goto t pc).dropWriteFd fd) := by
  have hwrite := (h.leaving t fd hfd).1.2
  have howned : ∀ {t' fd'}, ((n.goto t pc).threads t').owned = some fd' →
      t' ≠ t ∧ (n.threads t').owned = some fd' := by
    intro t' fd' hfd'
    change (Function.update n.threads t pc t').owned = _ at hfd'
    by_cases ht : t' = t
    · rw [ht, Function.update_self, hpc] at hfd'
      exact absurd hfd' nofun
    · rw [Function.update_of_ne ht] at hfd'
      exact ⟨ht, hfd'⟩
  have hfds : ∀ {f d}, n.fds f = some d → d ≠ .writeEnd fd.pipe →
      Function.update n.fds fd.raw none f = some d := fun hf hne =>
    (Function.update_of_ne (fds_ne hf hwrite hne) _ _).trans hf
  refine ⟨fun fd' hfd' => ?_, fun t' fd' hfd' => ?_, fun t₁ t₂ fd₁ fd₂ h₁ h₂ => ?_,
    fun pipe w hw => hfds (h.reader pipe w hw) nofun, h.fresh⟩
  · obtain ⟨hheld, hopen, hactive, hclean⟩ := h.current fd' hfd'
    have hne := (h.leaving t fd hfd).2 fd' hfd'
    refine ⟨⟨hheld.1, hfds hheld.2 fun heq => hne (Descriptor.writeEnd.inj heq)⟩, ?_, hactive,
      hclean⟩
    exact (Function.update_of_ne hne _ _).trans hopen
  · obtain ⟨ht, hold⟩ := howned hfd'
    have hother := h.leaving t' fd' hold
    refine ⟨⟨hother.1.1, hfds hother.1.2 fun heq => ht ?_⟩, hother.2⟩
    exact h.alone t t' fd fd' hfd hold (Descriptor.writeEnd.inj heq)
  · exact h.alone t₁ t₂ fd₁ fd₂ (howned h₁).2 (howned h₂).2

/-- **A step of a caller keeps every owner.** -/
theorem Wired.moves (h : Wired n) (hmoves : Moves original n t n') : Wired n' := by
  cases hmoves with
  | keeps _ hnone _ _ hkeeps hpc =>
    exact h.of_callers (fun fd => (hkeeps.installed fd).mp) hkeeps.pipes
      (owned_goto (hpc.trans hnone.symm)) rfl rfl rfl rfl
  | installs _ hnone _ _ _ _ hpc hread hwrite hne =>
    exact h.spawn (hpc.trans hnone.symm) hread hwrite hne
  | uninstalls _ hnone _ _ hfd => exact h.take hnone hfd
  | unlocks hat _ hpc =>
    rw [← hat] at hpc
    exact h.of_callers (fun _ => id) rfl (owned_goto hpc) rfl rfl rfl rfl
  | @stops shutdown hat =>
    have howned : (Pc.closing shutdown).owned = (n.threads t).owned := by rw [hat]; rfl
    have hgoto : Wired (n.goto t (.closing shutdown)) :=
      h.of_callers (fun _ => id) rfl (owned_goto howned) rfl rfl rfl rfl
    refine hgoto.writeSentinel (t := t) ?_
    rw [owned_goto howned, hat]
    rfl
  | closes hat =>
    refine h.dropWriteFd ?_ rfl
    rw [hat]
    rfl
  | joins hat =>
    have howned : Pc.idle.owned = (n.threads t).owned := by rw [hat]; rfl
    exact h.of_callers (fun _ => id) rfl (owned_goto howned) rfl rfl rfl rfl

/-! ### Steps of handlers and workers -/

/-- A byte other than the sentinel is written. -/
theorem Wired.push (h : Wired n) {pipe : ℕ} {cell : Cell} {w : Worker}
    (hw : n.active pipe = some w) (hbyte : cell.byte ≠ 0) : Wired (n.push pipe cell) := by
  refine h.of_traffic rfl rfl rfl (fun _ _ hf _ => hf) (fun _ w' hw' => ⟨w', hw', rfl⟩)
    (fun _ w' hw' => ⟨w', hw'⟩) ?_ ?_
  · intro pipe' hworker hempty
    refine ⟨hworker, (Function.update_of_ne ?_ _ _).trans hempty⟩
    rintro rfl
    rw [(active_eq_some.mp hw).1] at hworker
    exact absurd hworker nofun
  · intro pipe' c hc hzero
    rw [unread_push] at hc
    split at hc
    · rcases List.mem_append.mp hc with hc | hc
      · exact hc
      · rw [List.mem_singleton.mp hc] at hzero
        exact absurd hzero hbyte
    · exact hc

/-- A worker goes on with the same descriptor. -/
theorem Wired.of_worker (h : Wired n) {pipe : ℕ} {w w' : Worker} (hw : n.active pipe = some w)
    (hworkers : n'.workers = Function.update n.workers pipe (some w'))
    (hread : w'.readFd = w.readFd) (hrunning : w'.stopped = false) (hsys : n'.sys = n.sys)
    (hthreads : n'.threads = n.threads) (hopen : n'.writeOpen = n.writeOpen)
    (hfds : n'.fds = n.fds)
    (hpipes : ∀ pipe', pipe' ≠ pipe → n'.pipes pipe' = n.pipes pipe')
    (hunread : ∀ c ∈ n'.unread pipe, c ∈ n.unread pipe) : Wired n' := by
  have hself : n'.workers pipe = some w' := by rw [hworkers, Function.update_self]
  have hother : ∀ {pipe'}, pipe' ≠ pipe → n'.workers pipe' = n.workers pipe' := by
    intro pipe' hne
    rw [hworkers, Function.update_of_ne hne]
  refine h.of_traffic hsys hthreads hopen (fun _ _ hf _ => by rw [hfds, hf]) ?_ ?_ ?_ ?_
  · intro pipe' w₁ hw₁
    obtain ⟨hworker, hrunning₁⟩ := active_eq_some.mp hw₁
    by_cases hpipe : pipe' = pipe
    · subst hpipe
      obtain rfl := Option.some.inj (hself.symm.trans hworker)
      exact ⟨w, hw, hread⟩
    · exact ⟨w₁, active_eq_some.mpr ⟨(hother hpipe).symm.trans hworker, hrunning₁⟩, rfl⟩
  · intro pipe' w₁ hw₁
    by_cases hpipe : pipe' = pipe
    · subst hpipe
      exact ⟨w', active_eq_some.mpr ⟨hself, hrunning⟩⟩
    · obtain ⟨hworker, hrunning₁⟩ := active_eq_some.mp hw₁
      exact ⟨w₁, active_eq_some.mpr ⟨(hother hpipe).trans hworker, hrunning₁⟩⟩
  · intro pipe' hworker hempty
    have hne : pipe' ≠ pipe := by
      rintro rfl
      rw [(active_eq_some.mp hw).1] at hworker
      exact absurd hworker nofun
    exact ⟨(hother hne).trans hworker, (hpipes pipe' hne).trans hempty⟩
  · intro pipe' c hc _
    by_cases hpipe : pipe' = pipe
    · subst hpipe
      exact hunread c hc
    · rw [unread, hother hpipe, hpipes pipe' hpipe] at hc
      exact hc

/-- A worker of a pipe that the manager no longer has returns. -/
theorem Wired.stop (h : Wired n) {pipe : ℕ} {w w' : Worker} (hw : n.active pipe = some w)
    (hread : w'.readFd = w.readFd) (hgone : ∀ fd, Installed fd n.sys → fd.pipe ≠ pipe) :
    Wired (n.stop pipe w') := by
  -- the worker closes the read end of its own pipe, and nothing else
  have hreader := h.reader pipe w hw
  have hother : ∀ {pipe'}, pipe' ≠ pipe → (n.stop pipe w').workers pipe' = n.workers pipe' :=
    fun hne => Function.update_of_ne hne _ _
  have hfds : ∀ {f d}, n.fds f = some d → d ≠ .readEnd pipe → (n.stop pipe w').fds f = some d := by
    intro f d hf hne
    refine (Function.update_of_ne ?_ _ _).trans hf
    rw [hread]
    exact fds_ne hf hreader hne
  refine ⟨fun fd hfd => ?_, fun t fd hfd => ?_, h.alone, fun pipe' w₁ hw₁ => ?_,
    fun pipe' hle => ?_⟩
  · obtain ⟨hheld, hopen, ⟨w₁, hw₁⟩, hclean⟩ := h.current fd hfd
    obtain ⟨hworker, hrunning⟩ := active_eq_some.mp hw₁
    have hne := hgone fd hfd
    refine ⟨⟨hheld.1, hfds hheld.2 nofun⟩, hopen,
      ⟨w₁, active_eq_some.mpr ⟨(hother hne).trans hworker, hrunning⟩⟩, ?_⟩
    rw [unread, hother hne]
    exact hclean
  · exact ⟨⟨(h.leaving t fd hfd).1.1, hfds (h.leaving t fd hfd).1.2 nofun⟩,
      (h.leaving t fd hfd).2⟩
  · obtain ⟨hworker, hrunning⟩ := active_eq_some.mp hw₁
    have hne : pipe' ≠ pipe := by
      rintro rfl
      change Function.update n.workers pipe' (some { w' with stopped := true }) pipe' =
        some w₁ at hworker
      rw [Function.update_self] at hworker
      rw [← Option.some.inj hworker] at hrunning
      exact absurd hrunning nofun
    have hold := h.reader pipe' w₁
      (active_eq_some.mpr ⟨(hother hne).symm.trans hworker, hrunning⟩)
    exact hfds hold fun heq => hne (Descriptor.readEnd.inj heq)
  · refine ⟨(hother ?_).trans (h.fresh pipe' hle).1, (h.fresh pipe' hle).2⟩
    exact ((h.lt_of_active hw).trans_le hle).ne'

/-! ### All steps -/

/-- Everything that a step can do. -/
inductive Changes (original : ℤ → ℕ) (n : Net) : Net → Prop
  | stays : Changes original n n
  | acquires {t : ℕ} {pc : Pc} : n.lock = none → n.threads t = .idle → pc.locked = true →
      pc.held = [] → pc.owned = none → Ready n.sys pc →
      Changes original n { n.goto t pc with lock := some t }
  | moves {t : ℕ} {n' : Net} : Moves original n t n' → Changes original n n'
  | starts {d : ℕ} {signal : ℤ} : n.deliveries d = none → Changes original n
      { n with deliveries := Function.update n.deliveries d (some ⟨signal, live n.sys, .started⟩) }
  | loads {d : ℕ} {signal : ℤ} {before : List SignalRegistration} :
      n.deliveries d = some ⟨signal, before, .started⟩ →
      Changes original n (n.proceed d (.loaded n.sys.pipeWriteFd))
  | writes {d : ℕ} {signal : ℤ} {before : List SignalRegistration} {fd : ℤ} {pipe : ℕ} :
      n.deliveries d = some ⟨signal, before, .loaded fd⟩ → 0 ≤ fd → outOfRange signal = false →
      n.reaches fd.toNat = some pipe →
      Changes original n
        ((n.proceed d (.written pipe)).push pipe ⟨(signal % 256).toNat, some d⟩)
  | loses {d : ℕ} {signal : ℤ} {before : List SignalRegistration} {fd : ℤ} :
      n.deliveries d = some ⟨signal, before, .loaded fd⟩ →
      (fd < 0 ∨ outOfRange signal = true ∨ n.reaches fd.toNat = none) →
      Changes original n (n.proceed d .lost)
  | reads {pipe size : ℕ} {w : Worker} : n.active pipe = some w → w.buffer = [] →
      Changes original n
        { n.setWorker pipe { w with buffer := (n.pipes pipe).take size } with
          pipes := Function.update n.pipes pipe ((n.pipes pipe).drop size) }
  | ends {pipe : ℕ} {w : Worker} : n.active pipe = some w → w.pending = [] →
      n.writeOpen pipe = false → Changes original n (n.stop pipe w)
  | returns {pipe : ℕ} {w : Worker} {cell : Cell} {buffer : List Cell} :
      n.active pipe = some w → w.pending = [] → w.buffer = cell :: buffer → cell.byte = 0 →
      Changes original n (n.stop pipe { w with buffer := buffer })
  | dispatches {pipe : ℕ} {w : Worker} {cell : Cell} {buffer : List Cell}
      {found : List SignalRegistration} : n.active pipe = some w → w.pending = [] →
      w.buffer = cell :: buffer → cell.byte ≠ 0 → found.Perm (n.targets cell.byte) →
      Changes original n
        ((n.proceedCell cell (.dispatched pipe (live n.sys))).setWorker pipe
          { w with buffer := buffer, pending := found.map (killOf cell) })
  | kills {pipe : ℕ} {w : Worker} {k : Kill} {pending : List Kill} :
      n.active pipe = some w → w.pending = k :: pending →
      Changes original n
        { n.setWorker pipe { w with pending := pending } with kills := n.kills ++ [k] }
  | opens {fd : ℕ} : n.fds fd = none →
      Changes original n { n with fds := Function.update n.fds fd (some .elsewhere) }
  | closes {fd : ℕ} : n.fds fd = some .elsewhere →
      Changes original n { n with fds := Function.update n.fds fd none }

theorem call_changes {call : Call} (h : n.call t call = some n') : Changes original n n' := by
  unfold Net.call at h
  split at h
  · exact absurd h nofun
  · rename_i hfree
    obtain ⟨hidle, hlock⟩ := not_or.mp hfree
    split at h
    · obtain rfl := Option.some.inj h
      exact .stays
    · cases call with
      | register signals childPid =>
        obtain rfl := Option.some.inj h
        exact .acquires (not_not.mp hlock) (not_not.mp hidle) rfl rfl rfl trivial
      | unregister registrationId =>
        obtain rfl := Option.some.inj h
        exact .acquires (not_not.mp hlock) (not_not.mp hidle) rfl rfl rfl trivial

theorem write_changes {d : ℕ} (h : n.write d = some n') : Changes original n n' := by
  unfold Net.write at h
  split at h
  · rename_i signal before fd hd
    split at h
    · rename_i hbad
      obtain rfl := Option.some.inj h
      exact .loses hd (hbad.imp_right .inl)
    · rename_i hgood
      obtain ⟨hfd, hrange⟩ := not_or.mp hgood
      split at h
      · rename_i pipe hreaches
        obtain rfl := Option.some.inj h
        exact .writes hd (Int.not_lt.mp hfd) (Bool.eq_false_iff.mpr hrange) hreaches
      · rename_i hreaches
        obtain rfl := Option.some.inj h
        exact .loses hd (.inr (.inr hreaches))
  · exact absurd h nofun

theorem dispatch_changes {pipe : ℕ} {found : List SignalRegistration}
    (h : n.dispatch pipe found = some n') : Changes original n n' := by
  unfold Net.dispatch at h
  split at h
  · exact absurd h nofun
  · rename_i w hw
    split at h
    · exact absurd h nofun
    · rename_i cell buffer hbuffer
      split at h
      · exact absurd h nofun
      · rename_i hpending
        split at h
        · rename_i hzero
          obtain rfl := Option.some.inj h
          exact .returns hw (not_not.mp hpending) hbuffer hzero
        · rename_i hbyte
          split at h
          · rename_i hfree
            obtain rfl := Option.some.inj h
            exact .dispatches hw (not_not.mp hpending) hbuffer hbyte hfree.2
          · exact absurd h nofun

/-- **What a step can do.** -/
theorem step_changes {action : Action} (h : Guarded original n) (hstep : step n action = some n') :
    Changes original n n' := by
  cases action with
  | call t call => exact call_changes hstep
  | run t answer => exact .moves (run_moves h hstep)
  | handle d signal =>
    obtain ⟨hnew, ⟨⟩⟩ := Option.ite_none_right_eq_some.mp hstep
    exact .starts hnew.1
  | load d =>
    simp only [step, load] at hstep
    split at hstep
    · rename_i hd
      obtain rfl := Option.some.inj hstep
      exact .loads hd
    · exact absurd hstep nofun
  | write d => exact write_changes hstep
  | read pipe size =>
    simp only [step, Net.read] at hstep
    split at hstep
    · exact absurd hstep nofun
    · rename_i w hw
      obtain ⟨hidle, ⟨⟩⟩ := Option.ite_none_right_eq_some.mp hstep
      exact .reads hw hidle.1
  | readFails pipe =>
    simp only [step, readFails] at hstep
    split at hstep
    · exact absurd hstep nofun
    · obtain ⟨-, ⟨⟩⟩ := Option.ite_none_right_eq_some.mp hstep
      exact .stays
  | endOfFile pipe =>
    simp only [step, endOfFile] at hstep
    split at hstep
    · exact absurd hstep nofun
    · rename_i w hw
      obtain ⟨hclosed, ⟨⟩⟩ := Option.ite_none_right_eq_some.mp hstep
      exact .ends hw hclosed.2.1 hclosed.2.2.2
  | dispatch pipe found => exact dispatch_changes hstep
  | kill pipe =>
    simp only [step, Net.kill] at hstep
    split at hstep
    · exact absurd hstep nofun
    · rename_i w hw
      split at hstep
      · exact absurd hstep nofun
      · rename_i k pending hpending
        obtain rfl := Option.some.inj hstep
        exact .kills hw hpending
  | openElsewhere fd =>
    obtain ⟨hfree, ⟨⟩⟩ := Option.ite_none_right_eq_some.mp hstep
    exact .opens hfree
  | closeElsewhere fd =>
    obtain ⟨htheirs, ⟨⟩⟩ := Option.ite_none_right_eq_some.mp hstep
    exact .closes htheirs

/-- Only the progress of deliveries changes. -/
theorem proceedCell_eq (n : Net) (cell : Cell) (progress : Progress) :
    ∃ deliveries, n.proceedCell cell progress = { n with deliveries := deliveries } := by
  unfold proceedCell
  split
  · exact ⟨_, rfl⟩
  · exact ⟨n.deliveries, rfl⟩

/-- **Every step keeps the mutex in order.** -/
theorem Guarded.changes (h : Guarded original n) (hchanges : Changes original n n') :
    Guarded original n' := by
  cases hchanges with
  | stays => exact h
  | acquires hlock _ hpc hheld _ hready => exact h.acquire hlock hpc hheld hready
  | moves hmoves => exact h.moves hmoves
  | @dispatches pipe w cell =>
    obtain ⟨deliveries, heq⟩ := proceedCell_eq n cell (.dispatched pipe (live n.sys))
    rw [heq]
    exact h.frame rfl rfl rfl rfl
  | _ => exact h.frame rfl rfl rfl rfl

/-! ### The bytes that are unread -/

theorem unread_eq_of_active {pipe : ℕ} {w : Worker} (hw : n.active pipe = some w) :
    n.unread pipe = w.buffer ++ n.pipes pipe := by
  rw [unread, (active_eq_some.mp hw).1]
  rfl

/-- A worker whose buffer changes. -/
theorem unread_setWorker (pipe : ℕ) (w : Worker) (pipe' : ℕ) :
    (n.setWorker pipe w).unread pipe' =
      if pipe' = pipe then w.buffer ++ n.pipes pipe else n.unread pipe' := by
  change (Function.update n.workers pipe (some w) pipe').elim [] (·.buffer) ++ n.pipes pipe' = _
  by_cases hpipe : pipe' = pipe
  · rw [if_pos hpipe, hpipe, Function.update_self]
    rfl
  · rw [if_neg hpipe, Function.update_of_ne hpipe]
    rfl

/-- Bytes that are read are still to be looked at. -/
theorem unread_read {pipe size : ℕ} {w : Worker} (hw : n.active pipe = some w)
    (hbuffer : w.buffer = []) (pipe' : ℕ) :
    { n.setWorker pipe { w with buffer := (n.pipes pipe).take size } with
      pipes := Function.update n.pipes pipe ((n.pipes pipe).drop size) : Net }.unread pipe' =
      n.unread pipe' := by
  change (Function.update n.workers pipe (some _) pipe').elim [] (·.buffer) ++
    Function.update n.pipes pipe _ pipe' = _
  by_cases hpipe : pipe' = pipe
  · subst hpipe
    rw [Function.update_self, Function.update_self, unread_eq_of_active hw, hbuffer]
    exact List.take_append_drop size (n.pipes pipe')
  · rw [Function.update_of_ne hpipe, Function.update_of_ne hpipe]
    rfl

/-- **Every step keeps every owner.** -/
theorem Wired.changes (h : Wired n) (hchanges : Changes original n n') : Wired n' := by
  cases hchanges with
  | stays => exact h
  | acquires _ hidle _ _ hpc =>
    refine h.of_callers (fun _ => id) rfl (owned_goto ?_) rfl rfl rfl rfl
    rw [hidle, hpc]
    rfl
  | moves hmoves => exact h.moves hmoves
  | starts => exact h.of_callers (fun _ => id) rfl (fun _ => rfl) rfl rfl rfl rfl
  | loads => exact h.of_callers (fun _ => id) rfl (fun _ => rfl) rfl rfl rfl rfl
  | loses => exact h.of_callers (fun _ => id) rfl (fun _ => rfl) rfl rfl rfl rfl
  | @writes d signal before fd pipe _ _ hrange hreaches =>
    have hproceed : Wired (n.proceed d (.written pipe)) :=
      h.of_callers (fun _ => id) rfl (fun _ => rfl) rfl rfl rfl rfl
    obtain ⟨-, w, hw⟩ := reaches_eq_some hreaches
    refine hproceed.push (w := w) hw ?_
    simp only [outOfRange, Bool.or_eq_false_iff, decide_eq_false_iff_not] at hrange
    dsimp only
    omega
  | reads hw hbuffer =>
    refine h.of_worker hw rfl rfl (active_eq_some.mp hw).2 rfl rfl rfl rfl
      (fun _ hne => Function.update_of_ne hne _ _) ?_
    rw [unread_read hw hbuffer]
    exact fun c hc => hc
  | ends hw _ hclosed =>
    refine h.stop hw rfl fun fd hfd heq => ?_
    -- the pipe that the manager writes to is open, so its worker sees no end of file
    have hopen := (h.current fd hfd).2.1
    rw [heq, hclosed] at hopen
    exact absurd hopen Bool.false_ne_true
  | @returns pipe w cell buffer hw _ hbuffer hzero =>
    refine h.stop hw rfl fun fd hfd heq => ?_
    -- there is no sentinel in the pipe that the manager writes to
    refine (h.current fd hfd).2.2.2 cell ?_ hzero
    rw [heq, unread_eq_of_active hw, hbuffer]
    exact List.mem_cons_self
  | @dispatches pipe w cell buffer found hw _ hbuffer =>
    obtain ⟨deliveries, heq⟩ := proceedCell_eq n cell (.dispatched pipe (live n.sys))
    rw [heq]
    refine h.of_worker hw rfl rfl (active_eq_some.mp hw).2 rfl rfl rfl rfl (fun _ _ => rfl) ?_
    rw [unread_setWorker, if_pos rfl, unread_eq_of_active hw, hbuffer]
    exact fun c hc => List.mem_cons_of_mem _ hc
  | kills hw =>
    refine h.of_worker hw rfl rfl (active_eq_some.mp hw).2 rfl rfl rfl rfl (fun _ _ => rfl) ?_
    change ∀ c ∈ (n.setWorker _ _).unread _, _
    rw [unread_setWorker, if_pos rfl, unread_eq_of_active hw]
    exact fun c hc => hc
  | opens hfree =>
    refine h.of_traffic rfl rfl rfl (fun f d hf _ => ?_) (fun _ w hw => ⟨w, hw, rfl⟩)
      (fun _ w hw => ⟨w, hw⟩) (fun _ hworker hempty => ⟨hworker, hempty⟩) (fun _ _ hc _ => hc)
    exact (Function.update_of_ne (fds_ne_of_free hf hfree) _ _).trans hf
  | closes htheirs =>
    refine h.of_traffic rfl rfl rfl (fun f d hf hne => ?_) (fun _ w hw => ⟨w, hw, rfl⟩)
      (fun _ w hw => ⟨w, hw⟩) (fun _ hworker hempty => ⟨hworker, hempty⟩) (fun _ _ hc _ => hc)
    exact (Function.update_of_ne (fds_ne hf htheirs hne) _ _).trans hf

end Signal

end FirecrackerSdk
