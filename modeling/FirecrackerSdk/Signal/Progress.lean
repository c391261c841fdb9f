import FirecrackerSdk.Signal.Dispatch

/-!
# The manager does not deadlock

There are two things to wait for: the mutex, which callers and workers take, and a worker,
which a caller that has shut it down joins. A caller that holds the mutex can always go on
(`FirecrackerSdk.Signal.run_enabled`), because joining happens outside the mutex. A worker that
is joined is on its way to return (`FirecrackerSdk.Signal.Net.Ending`): the sentinel has been
written and is among the bytes that it has not looked at, and the write end is closed, so that
behind the sentinel there is the end of the file. All that can hold it up is the mutex.

The invariant is `FirecrackerSdk.Signal.Retiring`, and
`FirecrackerSdk.Signal.forwarding_never_deadlocks` is the result for every run, with any number of
callers and of workers, old and new.
-/

namespace FirecrackerSdk

namespace Signal

open Net

variable {original : ℤ → ℕ} {n n' : Net} {t : ℕ}

/-! ### A caller that holds the mutex can go on -/

/-- What the system calls may answer: the descriptors of a new pipe are free. -/
def Answer.Possible (answer : Answer) (n : Net) : Prop :=
  ∀ readFd writeFd, answer.pipe = .ok (readFd, writeFd) →
    n.fds readFd = none ∧ n.fds writeFd = none ∧ readFd ≠ writeFd

theorem runLocked_enabled {answer : Answer} (h : Guarded original n)
    (hlocked : (n.threads t).locked = true)
    (hinside : ∀ shutdown, n.threads t ≠ .unlocking shutdown) (hanswer : answer.Possible n) :
    (n.runLocked t answer).isSome := by
  obtain ⟨pc, s, hmanage, -, -, heffect⟩ :=
    manage_spec answer hlocked hinside (h.orderly_of_locked hlocked)
  rw [runLocked, hmanage]
  dsimp only
  cases heffect with
  | keeps hkeeps =>
    rw [if_pos hkeeps.pipes]
    rfl
  | @installs pc fds hpipe =>
    have hnew : (n.sys.installWorker fds.2).pipes ≠ n.sys.pipes := Nat.succ_ne_self _
    rw [if_neg hnew, hpipe]
    dsimp only
    rw [if_pos (hanswer fds.1 fds.2 hpipe)]
    rfl
  | uninstalls =>
    have hold : n.sys.uninstallWorker.pipes = n.sys.pipes := rfl
    rw [if_pos hold]
    rfl

/-- **The caller that holds the mutex can go on**, whatever the system calls answer. -/
theorem run_enabled {answer : Answer} (h : Guarded original n) (hlock : n.lock = some t)
    (hanswer : answer.Possible n) : (step n (.run t answer)).isSome := by
  have hlocked := (h.exclusive t).mpr hlock
  change (n.run t answer).isSome
  cases hpc : n.threads t with
  | idle => rw [hpc] at hlocked; cases hlocked
  | stopping => rw [hpc] at hlocked; cases hlocked
  | closing => rw [hpc] at hlocked; cases hlocked
  | joining => rw [hpc] at hlocked; cases hlocked
  | panicked => rw [hpc] at hlocked; cases hlocked
  | unlocking shutdown =>
    rw [Net.run, hpc]
    cases shutdown with
    | none => rfl
    | some shutdown => rfl
  | _ =>
    have hrun : n.run t answer = n.runLocked t answer := by rw [Net.run, hpc]
    rw [hrun]
    refine runLocked_enabled h hlocked (fun shutdown hat => ?_) hanswer
    rw [hpc] at hat
    cases hat

/-! ### Workers on their way to return -/

/-- The worker of a pipe has returned, or has a sentinel ahead. -/
def Net.Ending (n : Net) (pipe : ℕ) : Prop :=
  n.returned pipe = true ∨ (∃ w, n.active pipe = some w) ∧ ∃ c ∈ n.unread pipe, c.byte = 0

theorem returned_eq_true {pipe : ℕ} :
    n.returned pipe = true ↔ ∃ w, n.workers pipe = some w ∧ w.stopped = true := by
  rw [returned, Option.any_eq_true]

/-- A pipe that is ending has been made. -/
theorem Net.Ending.exists_worker {pipe : ℕ} (h : n.Ending pipe) : ∃ w, n.workers pipe = some w := by
  rcases h with hreturned | ⟨⟨w, hw⟩, -⟩
  · obtain ⟨w, hw, -⟩ := returned_eq_true.mp hreturned
    exact ⟨w, hw⟩
  · exact ⟨w, (active_eq_some.mp hw).1⟩

/-- The worker is where it was, and no sentinel has gone. -/
theorem Net.Ending.of_worker_eq {pipe : ℕ} (h : n.Ending pipe)
    (hworker : n'.workers pipe = n.workers pipe)
    (hunread : ∀ c ∈ n.unread pipe, c ∈ n'.unread pipe) : n'.Ending pipe := by
  rcases h with hreturned | ⟨hactive, c, hc, hzero⟩
  · left
    rwa [returned, hworker]
  · refine .inr ⟨?_, c, hunread c hc, hzero⟩
    rwa [active, hworker]

theorem Net.Ending.of_same {pipe : ℕ} (h : n.Ending pipe) (hworkers : n'.workers = n.workers)
    (hpipes : n'.pipes = n.pipes) : n'.Ending pipe := by
  refine h.of_worker_eq (congrFun hworkers pipe) fun c hc => ?_
  rwa [unread, hworkers, hpipes]

theorem Net.Ending.push {pipe : ℕ} (h : n.Ending pipe) (pipe' : ℕ) (cell : Cell) :
    (n.push pipe' cell).Ending pipe := by
  refine h.of_worker_eq rfl fun c hc => ?_
  rw [unread_push]
  split
  · exact List.mem_append_left _ hc
  · exact hc

/-- A worker that goes on and does not pass over a sentinel. -/
theorem Net.Ending.of_worker {pipe pipe' : ℕ} {w w' : Worker} (h : n.Ending pipe)
    (hw : n.active pipe' = some w)
    (hworkers : n'.workers = Function.update n.workers pipe' (some w'))
    (hrunning : w'.stopped = false)
    (hunread : ∀ c ∈ n.unread pipe, c.byte = 0 → c ∈ n'.unread pipe) : n'.Ending pipe := by
  have hactive : ∀ {w₁}, n.active pipe = some w₁ → ∃ w₂, n'.active pipe = some w₂ := by
    intro w₁ hw₁
    obtain ⟨hworker, hgoing⟩ := active_eq_some.mp hw₁
    by_cases heq : pipe = pipe'
    · refine ⟨w', active_eq_some.mpr ⟨?_, hrunning⟩⟩
      rw [hworkers, heq, Function.update_self]
    · refine ⟨w₁, active_eq_some.mpr ⟨?_, hgoing⟩⟩
      rw [hworkers, Function.update_of_ne heq, hworker]
  rcases h with hreturned | ⟨⟨w₁, hw₁⟩, c, hc, hzero⟩
  · left
    obtain ⟨w₁, hworker, hstopped⟩ := returned_eq_true.mp hreturned
    -- the worker that moves is running, the one that has returned is another
    have hne : pipe ≠ pipe' := by
      rintro rfl
      obtain ⟨hworker', hgoing⟩ := active_eq_some.mp hw
      rw [← Option.some.inj (hworker'.symm.trans hworker), hgoing] at hstopped
      cases hstopped
    refine returned_eq_true.mpr ⟨w₁, ?_, hstopped⟩
    rw [hworkers, Function.update_of_ne hne, hworker]
  · exact .inr ⟨hactive hw₁, c, hunread c hc hzero, hzero⟩

/-- A worker that returns. -/
theorem Net.Ending.stop {pipe : ℕ} (h : n.Ending pipe) (pipe' : ℕ) (w : Worker) :
    (n.stop pipe' w).Ending pipe := by
  by_cases heq : pipe = pipe'
  · subst heq
    exact .inl (returned_eq_true.mpr ⟨_, Function.update_self _ _ _, rfl⟩)
  · have hother : (n.stop pipe' w).workers pipe = n.workers pipe := Function.update_of_ne heq _ _
    refine h.of_worker_eq hother fun c hc => ?_
    rw [unread, hother]
    exact hc

theorem Net.Ending.writeSentinel {pipe : ℕ} (h : n.Ending pipe) (f : ℕ) :
    (n.writeSentinel f).Ending pipe := by
  unfold Net.writeSentinel
  split
  · exact h.push _ _
  · exact h

theorem Net.Ending.moves {pipe : ℕ} (h : n.Ending pipe) (hwired : Wired n)
    (hmoves : Moves original n t n') : n'.Ending pipe := by
  cases hmoves with
  | installs =>
    have hne : pipe ≠ n.sys.pipes := by
      rintro rfl
      obtain ⟨w, hw⟩ := h.exists_worker
      rw [(hwired.fresh n.sys.pipes le_rfl).1] at hw
      cases hw
    have hother : ∀ w, Function.update n.workers n.sys.pipes (some w) pipe = n.workers pipe :=
      fun w => Function.update_of_ne hne _ _
    refine h.of_worker_eq (hother _) fun c hc => ?_
    change c ∈ (Function.update n.workers n.sys.pipes _ pipe).elim [] (·.buffer) ++ n.pipes pipe
    rw [hother]
    exact hc
  | @stops shutdown =>
    have hgoto : (n.goto t (.closing shutdown)).Ending pipe := h.of_same rfl rfl
    exact hgoto.writeSentinel _
  | _ => exact h.of_same rfl rfl

/-- **A worker that is on its way to return stays on it.** -/
theorem Net.Ending.changes {pipe : ℕ} (h : n.Ending pipe) (hwired : Wired n)
    (hchanges : Changes original n n') : n'.Ending pipe := by
  cases hchanges with
  | stays => exact h
  | moves hmoves => exact h.moves hwired hmoves
  | writes => exact (h.of_same rfl rfl).push _ _
  | reads hw hbuffer =>
    refine h.of_worker hw rfl (active_eq_some.mp hw).2 fun c hc _ => ?_
    rwa [unread_read hw hbuffer]
  | ends => exact h.stop _ _
  | returns => exact h.stop _ _
  | @dispatches pipe' w cell buffer found hw _ hbuffer hbyte =>
    obtain ⟨deliveries, heq⟩ := proceedCell_eq n cell (.dispatched pipe' (live n.sys))
    rw [heq]
    refine h.of_worker hw rfl (active_eq_some.mp hw).2 fun c hc hzero => ?_
    rw [unread_setWorker]
    split
    · rename_i hpipe
      rw [hpipe, unread_eq_of_active hw, hbuffer] at hc
      -- the byte that leaves is a signal, so the sentinel is still ahead
      rcases List.mem_cons.mp hc with rfl | hc
      · exact absurd hzero hbyte
      · exact hc
    · exact hc
  | @kills pipe' w k pending hw =>
    refine h.of_worker hw rfl (active_eq_some.mp hw).2 fun c hc _ => ?_
    change c ∈ (n.setWorker pipe' { w with pending := pending }).unread pipe
    rw [unread_setWorker]
    split
    · rename_i hpipe
      rw [hpipe, unread_eq_of_active hw] at hc
      exact hc
    · exact hc
  | _ => exact h.of_same rfl rfl

/-! ### Callers that shut a worker down -/

/-- What a caller has seen to for the worker that it shuts down. -/
def Net.Retires (n : Net) : Pc → Prop
  | .unlocking (some shutdown) => shutdown.worker.pipe = shutdown.writeFd.pipe
  | .stopping shutdown => shutdown.worker.pipe = shutdown.writeFd.pipe
  | .closing shutdown =>
    shutdown.worker.pipe = shutdown.writeFd.pipe ∧ n.Ending shutdown.worker.pipe
  | .joining worker => n.Ending worker.pipe ∧ n.writeOpen worker.pipe = false
  | _ => True

/-- **A worker that is joined is on its way to return.** -/
structure Retiring (n : Net) : Prop where
  made : ∀ pipe, pipe < n.sys.pipes → ∃ w, n.workers pipe = some w
  retires : ∀ t, n.Retires (n.threads t)

/-- A caller under the mutex that has nothing to shut down. -/
theorem retires_of_locked {pc : Pc} (hlocked : pc.locked = true) (hnone : pc.owned = none) :
    n.Retires pc := by
  match pc, hlocked with
  | .unlocking none, _ => trivial
  | .unlocking (some shutdown), _ => cases hnone
  | .registering .., _ => trivial
  | .applying .., _ => trivial
  | .unregistering .., _ => trivial
  | .releasing .., _ => trivial
  | .settling, _ => trivial

theorem Net.Retires.mono {pc : Pc} (h : n.Retires pc)
    (hending : ∀ pipe, n.Ending pipe → n'.Ending pipe)
    (hopen : ∀ pipe, n.Ending pipe → n.writeOpen pipe = false → n'.writeOpen pipe = false) :
    n'.Retires pc := by
  match pc with
  | .unlocking (some _) => exact h
  | .stopping _ => exact h
  | .closing _ => exact ⟨h.1, hending _ h.2⟩
  | .joining _ => exact ⟨hending _ h.1, hopen _ h.1 h.2⟩
  | .unlocking none => trivial
  | .idle => trivial
  | .registering .. => trivial
  | .applying .. => trivial
  | .unregistering .. => trivial
  | .releasing .. => trivial
  | .settling => trivial
  | .panicked => trivial

/-- The write end of a pipe that is ending is not opened again. -/
theorem writeOpen_of_changes {pipe : ℕ} (h : n.Ending pipe) (hwired : Wired n)
    (hchanges : Changes original n n') (hclosed : n.writeOpen pipe = false) :
    n'.writeOpen pipe = false := by
  cases hchanges with
  | moves hmoves =>
    cases hmoves with
    | installs =>
      -- a new pipe has had no worker, and this one has
      refine (Function.update_of_ne ?_ _ _).trans hclosed
      rintro rfl
      obtain ⟨w, hw⟩ := h.exists_worker
      rw [(hwired.fresh n.sys.pipes le_rfl).1] at hw
      cases hw
    | @closes shutdown =>
      change Function.update n.writeOpen shutdown.writeFd.pipe false pipe = false
      by_cases heq : pipe = shutdown.writeFd.pipe
      · rw [heq, Function.update_self]
      · rw [Function.update_of_ne heq, hclosed]
    | stops =>
      unfold writeSentinel
      split
      · exact hclosed
      · exact hclosed
    | _ => exact hclosed
  | @dispatches pipe' w cell =>
    obtain ⟨deliveries, heq⟩ := proceedCell_eq n cell (.dispatched pipe' (live n.sys))
    rw [heq]
    exact hclosed
  | _ => exact hclosed

/-- After the sentinel has been written, the worker has it ahead, if it has not returned. -/
theorem Net.ending_writeSentinel {fd : OwnedFd} (hholds : n.Holds fd)
    (hworker : ∃ w, n.workers fd.pipe = some w) : (n.writeSentinel fd.raw).Ending fd.pipe := by
  obtain ⟨w, hw⟩ := hworker
  by_cases hstopped : w.stopped = true
  · have hending : n.Ending fd.pipe := .inl (returned_eq_true.mpr ⟨w, hw, hstopped⟩)
    exact hending.writeSentinel _
  · have hactive : n.active fd.pipe = some w :=
      active_eq_some.mpr ⟨hw, Bool.eq_false_iff.mpr hstopped⟩
    rw [Net.writeSentinel, reaches_of_active hholds.2 hactive]
    refine .inr ⟨⟨w, hactive⟩, ⟨0, none⟩, ?_, rfl⟩
    rw [unread_push, if_pos rfl]
    exact List.mem_append_right _ (List.mem_singleton.mpr rfl)

/-- A pipe whose worker changes still has one. -/
theorem exists_update {pipe pipe' : ℕ} {w' : Worker} (h : ∃ w, n.workers pipe = some w) :
    ∃ w, Function.update n.workers pipe' (some w') pipe = some w := by
  by_cases heq : pipe = pipe'
  · rw [heq, Function.update_self]
    exact ⟨w', rfl⟩
  · rwa [Function.update_of_ne heq]

/-- Every pipe that has been made keeps a worker, running or not. -/
theorem made_of_changes (h : ∀ pipe, pipe < n.sys.pipes → ∃ w, n.workers pipe = some w)
    (hchanges : Changes original n n') :
    ∀ pipe, pipe < n'.sys.pipes → ∃ w, n'.workers pipe = some w := by
  intro pipe hlt
  cases hchanges with
  | moves hmoves =>
    cases hmoves with
    | keeps _ _ _ _ hkeeps =>
      refine h pipe ?_
      rw [← hkeeps.pipes]
      exact hlt
    | @installs pc readFd writeFd =>
      change ∃ w, Function.update n.workers n.sys.pipes (some { readFd := readFd }) pipe = some w
      by_cases heq : pipe = n.sys.pipes
      · rw [heq, Function.update_self]
        exact ⟨_, rfl⟩
      · exact exists_update (h pipe (lt_of_le_of_ne (Nat.le_of_lt_succ hlt) heq))
    | stops =>
      unfold writeSentinel at hlt ⊢
      split at hlt
      · exact h pipe hlt
      · exact h pipe hlt
    | _ => exact h pipe hlt
  | reads => exact exists_update (h pipe hlt)
  | ends => exact exists_update (h pipe hlt)
  | returns => exact exists_update (h pipe hlt)
  | kills => exact exists_update (h pipe hlt)
  | @dispatches pipe' w cell =>
    obtain ⟨deliveries, heq⟩ := proceedCell_eq n cell (.dispatched pipe' (live n.sys))
    rw [heq] at hlt ⊢
    exact exists_update (h pipe hlt)
  | _ => exact h pipe hlt

/-- One thread goes on, and the others have what they had. -/
theorem retires_goto {pc : Pc} {m : Net} (h : ∀ t, n.Retires (n.threads t))
    (hmono : ∀ {pc}, n.Retires pc → m.Retires pc) (hthreads : m.threads = (n.goto t pc).threads)
    (hpc : m.Retires pc) : ∀ t, m.Retires (m.threads t) := by
  intro t'
  rw [hthreads]
  change m.Retires (Function.update n.threads t pc t')
  by_cases heq : t' = t
  · rwa [heq, Function.update_self]
  · rw [Function.update_of_ne heq]
    exact hmono (h t')

theorem Retiring.moves (h : Retiring n) (hwired : Wired n) (hmoves : Moves original n t n')
    (hmono : ∀ {pc}, n.Retires pc → n'.Retires pc) : ∀ t, n'.Retires (n'.threads t) := by
  have hat := h.retires t
  cases hmoves with
  | keeps _ _ hpc _ _ hnone =>
    exact retires_goto h.retires hmono rfl (retires_of_locked hpc hnone)
  | installs _ _ hpc _ _ _ hnone =>
    exact retires_goto h.retires hmono rfl (retires_of_locked hpc hnone)
  | uninstalls => exact retires_goto h.retires hmono rfl rfl
  | @unlocks shutdown _ hpc _ _ heq =>
    subst heq
    refine retires_goto h.retires hmono rfl ?_
    rw [hpc] at hat
    cases shutdown with
    | none => trivial
    | some shutdown => exact hat
  | @stops shutdown hpc =>
    rw [hpc] at hat
    have howned : (n.threads t).owned = some shutdown.writeFd := by rw [hpc]; rfl
    -- the sentinel is written to a pipe whose descriptor is still open
    have hholds := (hwired.leaving t shutdown.writeFd howned).1
    have hending : ((n.goto t (.closing shutdown)).writeSentinel shutdown.writeFd.raw).Ending
        shutdown.writeFd.pipe := ending_writeSentinel hholds (h.made _ hholds.1)
    have hthreads : ((n.goto t (.closing shutdown)).writeSentinel shutdown.writeFd.raw).threads =
        (n.goto t (.closing shutdown)).threads := by
      unfold writeSentinel
      split
      · rfl
      · rfl
    refine retires_goto h.retires hmono hthreads ⟨hat, ?_⟩
    rwa [show shutdown.worker.pipe = shutdown.writeFd.pipe from hat]
  | @closes shutdown hpc =>
    rw [hpc] at hat
    -- the descriptor was the last one for its pipe, so its worker sees the end of file
    obtain ⟨hpair, hending⟩ := hat
    refine retires_goto h.retires hmono rfl ⟨hending.of_same rfl rfl, ?_⟩
    rw [hpair]
    exact Function.update_self _ _ _
  | joins => exact retires_goto h.retires hmono rfl trivial

/-- **Every step keeps the workers that are joined on their way.** -/
theorem Retiring.changes (h : Retiring n) (hwired : Wired n) (hchanges : Changes original n n') :
    Retiring n' := by
  have hmono : ∀ {pc}, n.Retires pc → n'.Retires pc := fun hpc =>
    hpc.mono (fun _ hending => hending.changes hwired hchanges)
      (fun _ hending => writeOpen_of_changes hending hwired hchanges)
  refine ⟨made_of_changes h.made hchanges, ?_⟩
  have hstill : n'.threads = n.threads → ∀ t, n'.Retires (n'.threads t) := by
    intro hthreads t
    rw [hthreads]
    exact hmono (h.retires t)
  cases hchanges with
  | moves hmoves => exact h.moves hwired hmoves hmono
  | acquires _ _ hpc _ hnone =>
    exact retires_goto h.retires hmono rfl (retires_of_locked hpc hnone)
  | @dispatches pipe w cell =>
    refine hstill ?_
    obtain ⟨deliveries, heq⟩ := proceedCell_eq n cell (.dispatched pipe (live n.sys))
    rw [heq]
    rfl
  | _ => exact hstill rfl

theorem Retiring.steps {actions : List Action} (h : Retiring n) (hsound : Sound original n)
    (hsteps : Signal.steps n actions = some n') : Retiring n' := by
  induction actions generalizing n with
  | nil =>
    obtain rfl := Option.some.inj hsteps
    exact h
  | cons action actions ih =>
    obtain ⟨m, hstep, hrest⟩ := Option.bind_eq_some_iff.mp hsteps
    exact ih (h.changes hsound.wired (step_changes hsound.guarded hstep)) (hsound.step hstep) hrest

theorem retiring_initial (original : ℤ → ℕ) : Retiring (Net.initial original) :=
  ⟨fun _ hlt => absurd hlt (Nat.not_lt_zero _), fun _ => trivial⟩

/-! ### What a worker waits for -/

/-- A worker that has calls of `kill(2)` pending can issue the next. -/
theorem kill_enabled {pipe : ℕ} {w : Worker} (hw : n.active pipe = some w)
    (hpending : w.pending ≠ []) : (step n (.kill pipe)).isSome := by
  obtain ⟨k, pending, heq⟩ := List.exists_cons_of_ne_nil hpending
  rw [step, Net.kill, hw]
  dsimp only
  rw [heq]
  rfl

/-- A worker that looks at a sentinel can return. -/
theorem dispatch_sentinel_enabled {pipe : ℕ} {w : Worker} {cell : Cell} {buffer : List Cell}
    (hw : n.active pipe = some w) (hpending : w.pending = []) (hbuffer : w.buffer = cell :: buffer)
    (hzero : cell.byte = 0) : (step n (.dispatch pipe [])).isSome := by
  rw [step, Net.dispatch, hw]
  dsimp only
  rw [hbuffer]
  dsimp only
  rw [if_neg (not_not.mpr hpending), if_pos hzero]
  rfl

/-- A worker that looks at a signal can dispatch it when nobody holds the mutex. -/
theorem dispatch_enabled {pipe : ℕ} {w : Worker} {cell : Cell} {buffer : List Cell}
    (hw : n.active pipe = some w) (hpending : w.pending = []) (hbuffer : w.buffer = cell :: buffer)
    (hbyte : cell.byte ≠ 0) (hlock : n.lock = none) :
    (step n (.dispatch pipe (n.targets cell.byte))).isSome := by
  rw [step, Net.dispatch, hw]
  dsimp only
  rw [hbuffer]
  dsimp only
  rw [if_neg (not_not.mpr hpending), if_neg hbyte, if_pos ⟨hlock, List.Perm.refl _⟩]
  rfl

/-- A worker with an empty buffer can read what is in the pipe. -/
theorem read_enabled {pipe : ℕ} {w : Worker} (hw : n.active pipe = some w)
    (hpending : w.pending = []) (hbuffer : w.buffer = []) (hpipe : n.pipes pipe ≠ []) :
    (step n (.read pipe 1)).isSome := by
  rw [step, Net.read, hw]
  dsimp only
  rw [if_pos ⟨hbuffer, hpending, Nat.one_pos, by decide, List.length_pos_iff.mpr hpipe⟩]
  rfl

/-- A worker sees the end of the file when there is nothing to read and no one to write. -/
theorem endOfFile_enabled {pipe : ℕ} {w : Worker} (hw : n.active pipe = some w)
    (hpending : w.pending = []) (hbuffer : w.buffer = []) (hpipe : n.pipes pipe = [])
    (hclosed : n.writeOpen pipe = false) : (step n (.endOfFile pipe)).isSome := by
  rw [step, Net.endOfFile, hw]
  dsimp only
  rw [if_pos ⟨hbuffer, hpending, hpipe, hclosed⟩]
  rfl

/-- The worker whose step this is. A `read(2)` that fails is not counted. -/
def Action.worker : Action → Option ℕ
  | .read pipe _ => some pipe
  | .endOfFile pipe => some pipe
  | .dispatch pipe _ => some pipe
  | .kill pipe => some pipe
  | _ => none

/-- The worker of a pipe can go on. -/
def Net.WorkerEnabled (n : Net) (pipe : ℕ) : Prop :=
  ∃ action : Action, action.worker = some pipe ∧ (step n action).isSome

/-- A caller holds the mutex and can go on, whatever the system calls answer. -/
def Net.HolderEnabled (n : Net) : Prop :=
  ∃ t, n.lock = some t ∧ (∃ answer : Answer, answer.Possible n) ∧
    ∀ answer : Answer, answer.Possible n → (step n (.run t answer)).isSome

theorem Guarded.holderEnabled (h : Guarded original n) (hlock : n.lock ≠ none) :
    n.HolderEnabled := by
  obtain ⟨t, ht⟩ := Option.ne_none_iff_exists'.mp hlock
  have hfails : (⟨none, .error ⟨.other 24, "", none⟩⟩ : Answer).Possible n := by
    intro readFd writeFd hpipe
    cases hpipe
  exact ⟨t, ht, ⟨_, hfails⟩, fun _ hanswer => run_enabled h ht hanswer⟩

/-- **A worker whose write end is closed can go on**, unless it waits for the mutex. -/
theorem Guarded.worker_enabled {pipe : ℕ} {w : Worker} (h : Guarded original n)
    (hw : n.active pipe = some w) (hclosed : n.writeOpen pipe = false) :
    n.WorkerEnabled pipe ∨ n.HolderEnabled := by
  by_cases hpending : w.pending = []
  · cases hbuffer : w.buffer with
    | nil =>
      left
      by_cases hpipe : n.pipes pipe = []
      · exact ⟨.endOfFile pipe, rfl, endOfFile_enabled hw hpending hbuffer hpipe hclosed⟩
      · exact ⟨.read pipe 1, rfl, read_enabled hw hpending hbuffer hpipe⟩
    | cons cell buffer =>
      by_cases hzero : cell.byte = 0
      · exact .inl ⟨_, rfl, dispatch_sentinel_enabled hw hpending hbuffer hzero⟩
      · by_cases hlock : n.lock = none
        · exact .inl ⟨_, rfl, dispatch_enabled hw hpending hbuffer hzero hlock⟩
        · exact .inr (h.holderEnabled hlock)
  · exact .inl ⟨.kill pipe, rfl, kill_enabled hw hpending⟩

/-- Someone waits. -/
inductive Net.Blocked (n : Net) : Prop
  /-- A call waits for the mutex. -/
  | call {t : ℕ} : n.threads t = .idle → n.lock ≠ none → Net.Blocked n
  /-- A worker waits for the mutex, to dispatch a signal. -/
  | dispatch {pipe : ℕ} {w : Worker} {cell : Cell} {buffer : List Cell} :
      n.active pipe = some w → w.pending = [] → w.buffer = cell :: buffer → cell.byte ≠ 0 →
      n.lock ≠ none → Net.Blocked n
  /-- A caller waits for a worker to return. -/
  | join {t : ℕ} {worker : JoinHandle} : n.threads t = .joining worker →
      n.returned worker.pipe = false → Net.Blocked n

/-- **The manager never deadlocks.** In every run the mutex is not poisoned, and:

* A caller in `join` holds no lock, and the worker that it waits for has returned or has the
  sentinel ahead, behind which there is the end of the file.
* A worker that is waited for can go on, unless it waits for a mutex whose holder can.
* Whenever someone waits, the holder of the mutex or a worker can go on. -/
theorem forwarding_never_deadlocks (original : ℤ → ℕ) (actions : List Action) (n : Net)
    (h : steps (Net.initial original) actions = some n) :
    n.poisoned = false ∧
    (∀ t worker, n.threads t = .joining worker → n.lock ≠ some t ∧
      n.writeOpen worker.pipe = false ∧
      (n.returned worker.pipe = true ∨ ∃ c ∈ n.unread worker.pipe, c.byte = 0) ∧
      (n.returned worker.pipe = false → n.WorkerEnabled worker.pipe ∨ n.HolderEnabled)) ∧
    (n.Blocked → n.HolderEnabled ∨ ∃ pipe, n.WorkerEnabled pipe) := by
  have hsound := (sound_initial original).steps h
  have hretiring := (retiring_initial original).steps (sound_initial original) h
  have hjoin : ∀ t worker, n.threads t = .joining worker →
      n.returned worker.pipe = false → n.WorkerEnabled worker.pipe ∨ n.HolderEnabled := by
    intro t worker hat hwaits
    -- whoever joins has written the sentinel and closed the pipe
    have hretires := hretiring.retires t
    rw [hat] at hretires
    obtain ⟨hreturned | ⟨⟨w, hw⟩, -⟩, hclosed⟩ := hretires
    · rw [hwaits] at hreturned
      cases hreturned
    · exact hsound.guarded.worker_enabled hw hclosed
  refine ⟨hsound.guarded.clean, fun t worker hat => ⟨fun hlock => ?_, ?_, ?_, hjoin t worker hat⟩,
    fun hblocked => ?_⟩
  · have hlocked := (hsound.guarded.exclusive t).mpr hlock
    rw [hat] at hlocked
    cases hlocked
  · have hretires := hretiring.retires t
    rw [hat] at hretires
    exact hretires.2
  · have hretires := hretiring.retires t
    rw [hat] at hretires
    exact hretires.1.imp_right fun hahead => hahead.2
  · cases hblocked with
    | call _ hlock => exact .inl (hsound.guarded.holderEnabled hlock)
    | dispatch _ _ _ _ hlock => exact .inl (hsound.guarded.holderEnabled hlock)
    -- a worker that waits for the lock waits for its holder
    | join hat hwaits =>
      rcases hjoin _ _ hat hwaits with hworker | hholder
      · exact .inr ⟨_, hworker⟩
      · exact .inl hholder

/-- A caller waits for a worker that still has a signal to dispatch before the sentinel. -/
def joinedEarly : List Action :=
  [.call 0 (.register [15] 7), .run 0 ⟨none, .ok (3, 4)⟩, .run 0 ⟨none, .ok (3, 4)⟩,
    .run 0 ⟨none, .ok (3, 4)⟩, .run 0 ⟨none, .ok (3, 4)⟩,
    .handle 0 15, .load 0, .write 0,
    .call 0 (.unregister 0), .run 0 ⟨none, .ok (3, 4)⟩, .run 0 ⟨none, .ok (3, 4)⟩,
    .run 0 ⟨none, .ok (3, 4)⟩, .run 0 ⟨none, .ok (3, 4)⟩, .run 0 ⟨none, .ok (3, 4)⟩,
    .run 0 ⟨none, .ok (3, 4)⟩, .run 0 ⟨none, .ok (3, 4)⟩,
    .read 0 2, .call 1 (.register [15] 8)]

/-- The worker waits for the mutex, which another caller holds, and the caller can go on. -/
theorem forwarding_never_deadlocks_joinedEarly :
    ∃ n, steps (Net.initial fun _ => 0) joinedEarly = some n ∧
      n.threads 0 = .joining ⟨0⟩ ∧ n.lock = some 1 ∧
      (n.HolderEnabled ∨ ∃ pipe, n.WorkerEnabled pipe) := by
  obtain ⟨n, hn⟩ : ∃ n, steps (Net.initial fun _ => 0) joinedEarly = some n :=
    Option.isSome_iff_exists.mp (by decide +kernel)
  have hstate : ((steps (Net.initial fun _ => 0) joinedEarly).map fun n =>
      (n.threads 0, n.lock, n.returned 0)) = some (.joining ⟨0⟩, some 1, false) := by
    decide +kernel
  rw [hn] at hstate
  obtain ⟨hat, hrest⟩ := Prod.mk.inj (Option.some.inj hstate)
  obtain ⟨hlock, hwaits⟩ := Prod.mk.inj hrest
  have hgoes := (forwarding_never_deadlocks (fun _ => 0) joinedEarly n hn).2.2 (.join hat hwaits)
  exact ⟨n, hn, hat, hlock, hgoes⟩

end Signal

end FirecrackerSdk
