import FirecrackerSdk.Machine.Keeping
import Mathlib.Data.List.Perm.Basic

/-!
# Kills that come too late

The worker that forwards signals takes the targets of a signal while it holds the lock of the
manager, and issues the kills afterwards. The machine reaps its child and removes the
registration, in this order or the other. Neither waits for the other, so the steps of the
two mix in any way (`FirecrackerSdk.Move`); the notes of a run say when the machine does what.

A process id that has been reaped may be given to another process, so a kill is late when it is
issued for a process that the machine has reaped by then. There are two ways for that to happen.
A registration that is live names a process that has been reaped, and the worker takes it; that
is possible between the reap and `shutdown_signal_forwarder` inside of one call, and nowhere else.
Or the process is reaped while the worker has a kill for it still to issue. These are the only
two ways (`FirecrackerSdk.kills_in_time_iff`).
-/

namespace FirecrackerSdk

/-! ### The worker -/

/-- A kill that is to be issued: the process id, the signal, and which process had the id when
the registration was made. -/
structure Target where
  pid : ℕ
  signal : ℤ
  uid : ℕ
  deriving DecidableEq

/-- A kill that was issued, and whether the process had been reaped by then. -/
structure IssuedKill extends Target where
  late : Bool
  deriving DecidableEq

/-- What happens next. -/
inductive Move where
  /-- The world sees something of the machine. -/
  | machine (n : Note)
  /-- `dispatch_signal` takes the targets of a signal, under the lock. -/
  | take (signal : ℤ)
  /-- It issues one of the kills it has taken; the registrations are in a hash map, so
  their order is arbitrary. -/
  | kill (i : ℕ)

/-- What the machine has left, what the worker has still to do, and what it has done. -/
structure Scene where
  custody : Custody := {}
  pending : List Target := []
  issued : List IssuedKill := []

namespace Custody

/-- Whether a process has been reaped. -/
def reaped (c : Custody) (uid : ℕ) : Bool := c.procs[uid]?.any (·.reaped)

/-- The targets of a signal. -/
def targets (c : Custody) (signal : ℤ) : List Target :=
  (c.live.filter fun r => r.signals.contains signal).map fun r => ⟨r.pid, signal, r.uid⟩

/-- Which process is reaped by what is noted. -/
def reaps (c : Custody) : Note → Option ℕ
  | .tried => (c.procs[c.last]?.filter fun p => p.exit.isSome).map fun _ => c.last
  | .waited _ => c.procs[c.last]?.map fun _ => c.last
  | _ => none

/-- The process with this number has this id. -/
def Has (c : Custody) (uid pid : ℕ) : Prop := ∃ p, c.procs[uid]? = some p ∧ p.pid = pid

end Custody

namespace Scene

/-- The machine moves, or the worker does. -/
def step (s : Scene) : Move → Scene
  | .machine n => { s with custody := s.custody.step n }
  | .take signal => { s with pending := s.pending ++ s.custody.targets signal }
  | .kill i =>
    match s.pending[i]? with
    | none => s
    | some t =>
      { s with
        pending := s.pending.eraseIdx i
        issued := s.issued ++ [⟨t, s.custody.reaped t.uid⟩] }

/-- What a list of moves leads to. -/
def run (moves : List Move) : Scene := moves.foldl step {}

/-- Whether a move falls into none of the two windows: the machine does not reap a process that
there is still a kill to issue for, and the worker does not take the registration of a
process that has been reaped. -/
def unraced (s : Scene) : Move → Bool
  | .machine n => s.pending.all fun t => s.custody.reaps n ≠ some t.uid
  | .take signal => (s.custody.targets signal).all fun t => !s.custody.reaped t.uid
  | .kill _ => true

/-- Whether a move of the machine registers the process that was spawned last, if any. -/
def names (s : Scene) : Move → Bool
  | .machine n => s.custody.names n
  | _ => true

end Scene

/-- **No move falls into one of the two windows.** -/
def Unraced (moves : List Move) : Bool := Guarded.all Scene.step Scene.unraced {} moves

/-- The moves of the machine. -/
def machineNotes (moves : List Move) : List Note :=
  moves.filterMap fun
    | .machine n => some n
    | _ => none

/-! ### What is reaped when -/

namespace Custody

variable {c : Custody}

/-- Changing the last process changes whether that one has been reaped, if it is there. -/
theorem reaped_modify {f : Proc → Proc} {g : Proc → Bool}
    (hf : ∀ p, (f p).reaped = (p.reaped || g p)) (c : Custody) (u : ℕ) :
    ((c.procs.modify c.last f)[u]?.any (·.reaped)) = (c.reaped u ||
      decide (((c.procs[c.last]?.filter g).map fun _ => c.last) = some u)) := by
  unfold reaped
  by_cases hu : c.last = u
  · subst hu
    rw [List.getElem?_modify_eq]
    cases hp : c.procs[c.last]? with
    | none => rfl
    | some p =>
      change (f p).reaped = _
      rw [hf]
      cases hg : g p <;> simp [hg]
  · rw [List.getElem?_modify_ne _ _ hu]
    have hne : ((c.procs[c.last]?.filter g).map fun _ => c.last) ≠ some u := by
      intro h
      obtain ⟨_, -, h⟩ := Option.map_eq_some_iff.mp h
      exact hu h
    rw [decide_eq_false hne, Bool.or_false]

theorem step_waited (c : Custody) (status : ExitStatus) :
    (c.step (.waited status)).procs = c.procs.modify c.last (Proc.reap ∘ Op.endProc status) :=
  List.modify_modify_eq ..

/-- **A note changes what has been reaped by the process it reaps, and by nothing else.** -/
theorem reaped_step (c : Custody) (n : Note) (u : ℕ) :
    (c.step n).reaped u = (c.reaped u || decide (c.reaps n = some u)) := by
  cases n with
  | spawned pid =>
    change ((c.procs ++ [{ pid := pid }])[u]?.any (·.reaped)) = (c.reaped u || false)
    rw [Bool.or_false, reaped]
    -- the new process comes last and has not been reaped
    rcases lt_trichotomy u c.procs.length with hu | rfl | hu
    · rw [List.getElem?_append_left hu]
    · simp
    · rw [List.getElem?_eq_none_iff.mpr hu.le, List.getElem?_eq_none_iff.mpr]
      rw [List.length_append, List.length_singleton]
      omega
  | exited exits =>
    change ((endAll exits c.procs)[u]?.any (·.reaped)) = (c.reaped u || false)
    obtain ⟨g, hg, hkeeps⟩ := endAll_getElem? exits c.procs u
    rw [Bool.or_false, reaped, hg]
    cases c.procs[u]? with
    | none => rfl
    | some p => exact (hkeeps p).2.1
  | tried =>
    -- `try_wait` reaps the child if it has exited
    refine reaped_modify (f := Proc.tryReap) (fun p => ?_) c u
    unfold Proc.tryReap
    cases hexit : p.exit.isSome <;> simp [Proc.reap]
  | waited status =>
    have hthere : c.procs[c.last]?.filter (fun _ => true) = c.procs[c.last]? := by
      cases c.procs[c.last]? <;> rfl
    rw [reaped, step_waited, reaped_modify (f := Proc.reap ∘ Op.endProc status)
      (g := fun _ => true) (fun p => (Bool.or_true _).symm) c u, hthere]
    rfl
  | waitFailed => exact (Bool.or_false _).symm
  | waitDropped => exact (Bool.or_false _).symm
  | registered id signals pid => exact (Bool.or_false _).symm
  | unregistered id => exact (Bool.or_false _).symm

/-- A process keeps its id. -/
theorem Has.step {uid pid : ℕ} (h : c.Has uid pid) (n : Note) : (c.step n).Has uid pid := by
  obtain ⟨p, hp, rfl⟩ := h
  have hmodify : ∀ {f : Proc → Proc}, (∀ q, (f q).pid = q.pid) →
      ∃ q, (c.procs.modify c.last f)[uid]? = some q ∧ q.pid = p.pid := by
    intro f hf
    refine ⟨if c.last = uid then f p else p, ?_, ?_⟩
    · rw [List.getElem?_modify, hp]
      rfl
    · split
      · exact hf p
      · rfl
  cases n with
  | spawned pid => exact ⟨p, getElem?_snoc_eq_some.mpr (.inl hp), rfl⟩
  | exited exits =>
    obtain ⟨p', hp', hpid, -⟩ := exists_endAll hp exits
    exact ⟨p', hp', hpid⟩
  | tried =>
    refine hmodify fun q => ?_
    unfold Proc.tryReap
    split <;> rfl
  | waited status =>
    rw [Has, step_waited]
    exact hmodify fun q => endProc_pid status q
  | waitFailed => exact ⟨p, hp, rfl⟩
  | waitDropped => exact ⟨p, hp, rfl⟩
  | registered id signals pid => exact ⟨p, hp, rfl⟩
  | unregistered id => exact ⟨p, hp, rfl⟩

end Custody

/-! ### Late kills -/

namespace Scene

variable {s : Scene}

/-- **The worker is up to date**: it has a kill to issue only for processes that have not been
reaped, and it has issued none late. -/
def InTime (s : Scene) : Prop :=
  (∀ t ∈ s.pending, s.custody.reaped t.uid = false) ∧ ∀ k ∈ s.issued, k.late = false

/-- **A move leaves the worker up to date exactly if it found it so and falls into none of the
two windows.** -/
theorem inTime_step (s : Scene) (m : Move) :
    InTime (s.step m) ↔ InTime s ∧ s.unraced m = true := by
  cases m with
  | machine n =>
    have hpending : (∀ t ∈ s.pending, (s.custody.step n).reaped t.uid = false) ↔
        (∀ t ∈ s.pending, s.custody.reaped t.uid = false) ∧ s.unraced (.machine n) = true := by
      rw [unraced, List.all_eq_true, ← forall₂_and]
      refine forall₂_congr fun t _ => ?_
      rw [Custody.reaped_step, Bool.or_eq_false_iff]
      simp
    rw [InTime, InTime, and_right_comm]
    exact and_congr_left fun _ => hpending
  | take signal =>
    have hpending : (∀ t ∈ s.pending ++ s.custody.targets signal, s.custody.reaped t.uid = false) ↔
        (∀ t ∈ s.pending, s.custody.reaped t.uid = false) ∧ s.unraced (.take signal) = true := by
      rw [List.forall_mem_append, unraced, List.all_eq_true]
      simp
    rw [InTime, InTime, and_right_comm]
    exact and_congr_left fun _ => hpending
  | kill i =>
    change InTime (s.step (.kill i)) ↔ InTime s ∧ true = true
    rw [step, and_iff_left rfl]
    cases ht : s.pending[i]? with
    | none => exact Iff.rfl
    | some t =>
      -- the kill moves from what is to be done to what has been done
      obtain ⟨hi, rfl⟩ := List.getElem?_eq_some_iff.mp ht
      have hperm := List.getElem_cons_eraseIdx_perm hi
      have hsplit : (∀ t ∈ s.pending, s.custody.reaped t.uid = false) ↔
          s.custody.reaped s.pending[i].uid = false ∧
            ∀ t ∈ s.pending.eraseIdx i, s.custody.reaped t.uid = false := by
        refine Iff.trans ?_ (List.forall_mem_cons
          (p := fun t : Target => s.custody.reaped t.uid = false))
        exact forall_congr' fun t => imp_congr_left hperm.mem_iff.symm
      rw [InTime, InTime, hsplit]
      simp only [List.forall_mem_append, List.forall_mem_singleton]
      tauto

/-- Everything that the worker has to do with names a process of the machine by its id. -/
structure Named (s : Scene) : Prop where
  live : ∀ r ∈ s.custody.live, s.custody.Has r.uid r.pid
  pending : ∀ t ∈ s.pending, s.custody.Has t.uid t.pid
  issued : ∀ k ∈ s.issued, s.custody.Has k.uid k.pid

theorem Named.step (h : Named s) {m : Move} (hm : s.names m = true) : Named (s.step m) := by
  cases m with
  | machine n =>
    refine ⟨fun r hr => ?_, fun t ht => (h.pending t ht).step n, fun k hk => (h.issued k hk).step n⟩
    have hold : ∀ r ∈ s.custody.live, (s.custody.step n).Has r.uid r.pid := fun r hr =>
      (h.live r hr).step n
    cases n with
    | registered id signals pid =>
      rcases List.mem_append.mp hr with hr | hr
      · exact hold r (List.mem_of_mem_filter hr)
      · -- a registration names the process spawned last, under its id
        rw [List.mem_singleton] at hr
        subst hr
        obtain ⟨p, hp, hpid⟩ := (Option.any_eq_true _ _).mp hm
        exact ⟨p, hp, of_decide_eq_true hpid⟩
    | unregistered id => exact hold r (List.mem_of_mem_filter hr)
    | _ => exact hold r hr
  | take signal =>
    refine ⟨h.live, fun t ht => ?_, h.issued⟩
    rcases List.mem_append.mp ht with ht | ht
    · exact h.pending t ht
    · -- a kill to issue is taken from a live registration
      obtain ⟨r, hr, rfl⟩ := List.mem_map.mp ht
      exact h.live r (List.mem_of_mem_filter hr)
  | kill i =>
    rw [Scene.step]
    cases ht : s.pending[i]? with
    | none => exact h
    | some t =>
      refine ⟨h.live, fun t' ht' => h.pending t' (List.mem_of_mem_eraseIdx ht'), fun k hk => ?_⟩
      rcases List.mem_append.mp hk with hk | hk
      · exact h.issued k hk
      · rw [List.mem_singleton] at hk
        subst hk
        exact h.pending t (List.mem_of_getElem? ht)

end Scene

/-! ### Runs -/

/-- A kill is no business of the machine. -/
theorem Scene.kill_custody (s : Scene) (i : ℕ) : (s.step (.kill i)).custody = s.custody := by
  rw [step]
  cases s.pending[i]? <;> rfl

/-- Between the moves of the machine its custody stays as it is. -/
theorem foldl_custody (moves : List Move) (s : Scene) :
    (moves.foldl Scene.step s).custody = (machineNotes moves).foldl Custody.step s.custody := by
  induction moves generalizing s with
  | nil => rfl
  | cons m moves ih =>
    rw [List.foldl_cons, ih]
    cases m with
    | machine n => rfl
    | take signal => rfl
    | kill i =>
      rw [s.kill_custody]
      rfl

theorem run_custody (moves : List Move) :
    (Scene.run moves).custody = Custody.run (machineNotes moves) :=
  foldl_custody moves {}

/-- The registrations of a mixed run are those of the machine. -/
theorem names_of_wellNamed {moves : List Move} (h : WellNamed (machineNotes moves) = true) :
    Guarded.all Scene.step Scene.names {} moves = true := by
  have hall : ∀ s : Scene, Guarded.all Scene.step Scene.names s moves =
      Guarded.all Custody.step Custody.names s.custody (machineNotes moves) := by
    clear h
    induction moves with
    | nil => exact fun _ => rfl
    | cons m moves ih =>
      intro s
      rw [Guarded.all, ih]
      cases m with
      | machine n => rfl
      | take signal => exact Bool.true_and _
      | kill i =>
        rw [s.kill_custody]
        exact Bool.true_and _
  rw [hall]
  exact h

variable {W : Type} (env : Env W)

/-- **When every kill is issued in time.** For every machine, world and sequence of calls, and
for every way to mix the steps of the machine with steps of the worker: if no signal is
taken while a live registration for it names a process that has been reaped, and no process
is reaped while there is still a kill to issue for it, no kill is issued for a process that
the machine has reaped; and, once the worker has nothing left to do, only then. Every kill
is for a process of the machine, under its id; and between two calls no live registration
names a process that has been reaped. -/
theorem kills_in_time_iff (b : Blueprint) (clock : ℕ) (w : W) (calls : List Call)
    (moves : List Move)
    (hmoves : machineNotes moves =
      (runCalls env.recording calls (b.initial clock { base := w })).world.log) :
    ((Unraced moves = true → ∀ k ∈ (Scene.run moves).issued, k.late = false) ∧
      ((Scene.run moves).pending = [] → (∀ k ∈ (Scene.run moves).issued, k.late = false) →
        Unraced moves = true)) ∧
    (Scene.run moves).custody.procs =
      (runCalls env.recording calls (b.initial clock { base := w })).procs ∧
    (∀ k ∈ (Scene.run moves).issued, (Scene.run moves).custody.Has k.uid k.pid) ∧
    ∀ r ∈ (Scene.run moves).custody.live, (Scene.run moves).custody.reaped r.uid = false := by
  set s := runCalls env.recording calls (b.initial clock { base := w }) with hs
  obtain ⟨htracked, hrested⟩ : Held s.view := runCalls_keeps env calls _ (held_initial b clock w)
  have hcustody : (Scene.run moves).custody = s.view.custody := by
    rw [run_custody, hmoves]
    rfl
  -- the condition is exactly what keeps all kills in time, step by step
  have hintime : Scene.InTime (Scene.run moves) ↔ Unraced moves = true :=
    Guarded.all_iff Scene.inTime_step ⟨by simp, by simp⟩ moves
  have hnamed : Scene.Named (Scene.run moves) := by
    refine Guarded.invariant (I := Scene.Named) (fun s m h hm => h.step hm) ⟨?_, ?_, ?_⟩
      (names_of_wellNamed ?_)
    · simp
    · simp
    · simp
    · rw [hmoves]
      exact htracked.wellNamed
  refine ⟨⟨fun h => (hintime.mpr h).2, fun hpending h => hintime.mp ⟨?_, h⟩⟩, ?_, hnamed.issued,
    fun r hr => ?_⟩
  · rw [hpending]
    simp
  · rw [hcustody]
    exact htracked.mirror
  · -- between two calls the machine is at rest
    obtain ⟨p, hp, -⟩ := hnamed.live r hr
    rw [Custody.reaped, hp]
    rw [hcustody] at hr hp
    rw [htracked.mirror] at hp
    exact hrested.unreaped r hr p hp

/-- A machine with little more than a socket. -/
def plainSample : Blueprint :=
  plainBlueprint { socketPath := "/run/fc.sock", disableValidation := true } "vm"

/-- A start and a `wait` in a world in which nothing goes wrong. -/
def startedAndAwaited : Sys (Recorded Unit) :=
  runCalls (Env.answering Query.smooth).recording [.start, .wait]
    (plainSample.initial 0 { base := () })

/-- What the machine does there, mixed with what the worker does before the child is reaped,
before the registration is removed, and after that. -/
def mixed (running reaped removed : List Move) : List Move :=
  [.machine (.spawned 4242), .machine (.registered 0 [2, 3, 15, 1, 6] 4242),
    .machine (.exited []), .machine .tried, .machine (.exited [])] ++ running ++
  [.machine (.waited (.code 0))] ++ reaped ++
  [.machine (.unregistered 0), .machine (.exited [])] ++ removed

/-- The worker forwards a signal while the child is running. -/
theorem kills_in_time_while_running :
    (Scene.run (mixed [.take 15, .kill 0] [] [])).issued = [⟨⟨4242, 15, 0⟩, false⟩] ∧
      ∀ k ∈ (Scene.run (mixed [.take 15, .kill 0] [] [])).issued, k.late = false := by
  refine ⟨by decide +kernel, ?_⟩
  have hlog : machineNotes (mixed [.take 15, .kill 0] [] []) = startedAndAwaited.world.log := by
    decide +kernel
  rw [startedAndAwaited] at hlog
  exact (kills_in_time_iff (.answering Query.smooth) plainSample 0 () [.start, .wait]
    (mixed [.take 15, .kill 0] [] []) hlog).1.1 (by decide +kernel)

/-- The worker takes the signal after `wait` has reaped the child and before it removes the
registration; or it takes it before, and issues the kill afterwards. Either way the kill comes
too late. -/
theorem kill_after_reap :
    machineNotes (mixed [] [.take 15, .kill 0] []) = startedAndAwaited.world.log ∧
      (Scene.run (mixed [] [.take 15, .kill 0] [])).issued = [⟨⟨4242, 15, 0⟩, true⟩] ∧
      machineNotes (mixed [.take 15] [] [.kill 0]) = startedAndAwaited.world.log ∧
      (Scene.run (mixed [.take 15] [] [.kill 0])).issued = [⟨⟨4242, 15, 0⟩, true⟩] := by
  decide +kernel

end FirecrackerSdk
