import FirecrackerSdk.Lib.Lifo
import FirecrackerSdk.Machine.Starting

/-!
# Cleanup functions run once, in reverse order, and leave nothing behind

The machine's list of cleanup functions is a stack, and the trace of a run is a history
of that stack in the sense of `Lifo`: registering pushes, `do_cleanup` drains. The
invariant (`FirecrackerSdk.CleanupInv`) says that the history replays to the list, that no
function is registered twice, and – the reason why one boolean can guard four different
callers – that a machine whose cleanup is done has neither a child nor a forwarder nor
a registered function. Every step of the ledger preserves it
(`FirecrackerSdk.cleanupInv_step`), so it holds in every state that a run reaches.

From it: every cleanup function runs at most once, every drain runs the pending
functions last one first and runs all of them, and whenever a call has reported the
end of the machine, the machine is quiescent
(`FirecrackerSdk.cleanup_once_reversed_quiescent`). That a function which the trace calls
executed was really run is `FirecrackerSdk.executions_eq_notes`.
-/

namespace FirecrackerSdk

/-! ### The trace as the history of a stack -/

/-- The cleanup functions that were registered, in order. -/
def pushedFuncs (trace : List Event) : List CleanupFn :=
  trace.filterMap fun
    | .pushed cleanup => some cleanup
    | _ => none

/-- The cleanup functions that were executed, in order. -/
def executedFuncs (trace : List Event) : List CleanupFn :=
  trace.filterMap fun
    | .executed x => some x.cleanup
    | _ => none

/-- The cleanup functions that are pending: registered and not executed yet, in the order
in which they were registered. -/
def pendingFuncs (trace : List Event) : List CleanupFn :=
  (pushedFuncs trace).filter fun cleanup => cleanup ∉ executedFuncs trace

/-- What an event does to the stack of cleanup functions. -/
def Event.toLifo : Event → Option (Lifo.Step CleanupFn)
  | .pushed cleanup => some (.push cleanup)
  | .drainBegin => some .opens
  | .executed x => some (.pop x.cleanup)
  | .drainEnd => some .closes
  | _ => none

/-- The history of the stack that a trace tells. -/
def history (trace : List Event) : List (Lifo.Step CleanupFn) := trace.filterMap Event.toLifo

theorem history_append (t t' : List Event) : history (t ++ t') = history t ++ history t' :=
  List.filterMap_append

theorem history_calm {A : ClientCall → Prop} {events : List Event}
    (h : ∀ e ∈ events, e.isCalm A) : history events = [] := by
  rw [history, List.filterMap_eq_nil_iff]
  intro e he
  have := h e he
  cases e with
  | client call failure => rfl
  | acquired cleanup => rfl
  | _ => exact this.elim

theorem history_pushed (cleanups : List CleanupFn) :
    history (cleanups.map .pushed) = cleanups.map .push := by
  rw [history, List.filterMap_map]
  exact (congrFun (List.filterMap_eq_map (f := Lifo.Step.push)) cleanups : _)

theorem history_drain (execs : List Execution) :
    history (.drainBegin :: (execs.map .executed ++ [.drainEnd])) =
      .opens :: ((execs.map (·.cleanup)).map .pop ++ [.closes]) := by
  have hexecs : history (execs.map .executed) = (execs.map (·.cleanup)).map .pop := by
    rw [history, List.filterMap_map, List.map_map]
    exact (congrFun (List.filterMap_eq_map
      (f := fun x : Execution => Lifo.Step.pop x.cleanup)) execs : _)
  change .opens :: history (execs.map .executed ++ [.drainEnd]) = _
  rw [history_append, hexecs]
  rfl

theorem pushes_history (trace : List Event) : Lifo.pushes (history trace) = pushedFuncs trace := by
  rw [Lifo.pushes, history, List.filterMap_filterMap, pushedFuncs]
  refine List.filterMap_congr fun e _ => ?_
  cases e <;> rfl

theorem pushedFuncs_append (t t' : List Event) :
    pushedFuncs (t ++ t') = pushedFuncs t ++ pushedFuncs t' :=
  List.filterMap_append

/-- A drain registers nothing. -/
theorem pushedFuncs_drain (execs : List Execution) :
    pushedFuncs (.drainBegin :: (execs.map .executed ++ [.drainEnd])) = [] := by
  rw [pushedFuncs, List.filterMap_eq_nil_iff]
  intro e he
  simp only [List.mem_cons, List.mem_append, List.mem_map, List.not_mem_nil, or_false] at he
  rcases he with rfl | ⟨x, -, rfl⟩ | rfl <;> rfl

theorem pops_history (trace : List Event) : Lifo.pops (history trace) = executedFuncs trace := by
  rw [Lifo.pops, history, List.filterMap_filterMap, executedFuncs]
  refine List.filterMap_congr fun e _ => ?_
  cases e <;> rfl

theorem pending_history (trace : List Event) :
    Lifo.pending (history trace) = pendingFuncs trace := by
  rw [Lifo.pending, pushes_history, pops_history, pendingFuncs]

/-! ### The invariant -/

/-- **The invariant of the cleanup functions.** -/
structure CleanupInv (l : Ledger) : Prop where
  done : l.cleanupDone = true → l.toCore.Quiescent
  replay : (⟨[], false⟩ : Lifo.Stack CleanupFn).replay (history l.trace) =
    some ⟨l.cleanupFuncs.reverse, false⟩
  nodup : ((pushedFuncs l.trace).map (·.id)).Nodup
  bound : ∀ c ∈ pushedFuncs l.trace, c.id < l.fresh

/-- Events that the stack does not see change nothing. -/
theorem CleanupInv.of_silent {l l' : Ledger} (h : CleanupInv l) {events : List Event}
    (htrace : l'.trace = l.trace ++ events) (hevents : history events = [])
    (hfuncs : l'.cleanupFuncs = l.cleanupFuncs) (hfresh : l.fresh ≤ l'.fresh)
    (hdone : l'.cleanupDone = true → l'.toCore.Quiescent) : CleanupInv l' := by
  have hpushed : pushedFuncs l'.trace = pushedFuncs l.trace := by
    rw [← pushes_history, ← pushes_history, htrace, history_append, hevents, List.append_nil]
  refine ⟨hdone, ?_, ?_, fun c hc => ?_⟩
  · rw [htrace, history_append, hevents, List.append_nil, hfuncs]
    exact h.replay
  · rw [hpushed]
    exact h.nodup
  · rw [hpushed] at hc
    exact (h.bound c hc).trans_le hfresh

/-- Registering new functions. -/
theorem CleanupInv.of_push {A : ClientCall → Prop} {l l' : Ledger} (h : CleanupInv l)
    {events : List Event} {cleanups : List CleanupFn} (hevents : ∀ e ∈ events, e.isCalm A)
    (htrace : l'.trace = l.trace ++ events ++ cleanups.map .pushed)
    (hfuncs : l'.cleanupFuncs = l.cleanupFuncs ++ cleanups) (hfresh : l.fresh ≤ l'.fresh)
    (hnodup : (cleanups.map (·.id)).Nodup)
    (hids : ∀ c ∈ cleanups, l.fresh ≤ c.id ∧ c.id < l'.fresh) (hdone : l'.cleanupDone = false) :
    CleanupInv l' := by
  have hhist : history l'.trace = history l.trace ++ cleanups.map .push := by
    rw [htrace, history_append, history_append, history_calm hevents, List.append_nil,
      history_pushed]
  have hpushed : pushedFuncs l'.trace = pushedFuncs l.trace ++ cleanups := by
    have hnew : Lifo.pushes (cleanups.map .push) = cleanups := by
      rw [← history_pushed, pushes_history, pushedFuncs, List.filterMap_map]
      exact List.filterMap_some
    rw [← pushes_history, hhist, Lifo.pushes_append, pushes_history, hnew]
  refine ⟨by simp [hdone], ?_, ?_, fun c hc => ?_⟩
  · rw [hhist, Lifo.replay_append, h.replay, Option.bind_some, Lifo.replay_push, hfuncs,
      List.reverse_append]
  · rw [hpushed, List.map_append]
    refine List.nodup_append'.mpr ⟨h.nodup, hnodup, fun i hi hi' => ?_⟩
    -- the old ids are below the counter, the new ones are not
    obtain ⟨c, hc, rfl⟩ := List.mem_map.mp hi
    obtain ⟨c', hc', hid⟩ := List.mem_map.mp hi'
    have := h.bound c hc
    have := (hids c' hc').1
    omega
  · rw [hpushed] at hc
    rcases List.mem_append.mp hc with hc | hc
    · exact (h.bound c hc).trans_le hfresh
    · exact (hids c hc).2

/-- A drain empties the stack. -/
theorem CleanupInv.of_drained {site : DrainSite} {l l' : Ledger} {execs : List Execution}
    (h : CleanupInv l) (hdrain : Drained site l execs l') (hprocess : l.process = none)
    (hforwarder : l.signalForwarder = none) (fatalErr : Option Error) :
    CleanupInv { l' with fatalErr := fatalErr } := by
  cases hdrain with
  | idle hdone =>
    refine h.of_silent (List.append_nil _).symm rfl rfl le_rfl fun _ => ?_
    exact ⟨hprocess, hforwarder, (h.done hdone).cleanupFuncs, hdone⟩
  | drain hdone hcleanups hsite hfatal hrunning hprocs =>
    refine ⟨fun _ => ⟨hprocess, hforwarder, rfl, rfl⟩, ?_, ?_, ?_⟩
    · change Lifo.Stack.replay _ (history (l.trace ++ _)) = _
      rw [history_append, Lifo.replay_append, h.replay, Option.bind_some, history_drain, hcleanups]
      change Lifo.Stack.replay ⟨l.cleanupFuncs.reverse, true⟩ _ = _
      rw [Lifo.replay_append, Lifo.replay_pop]
      rfl
    · change ((pushedFuncs (l.trace ++ _)).map _).Nodup
      rw [pushedFuncs_append, pushedFuncs_drain, List.append_nil]
      exact h.nodup
    · intro c hc
      change c ∈ pushedFuncs (l.trace ++ _) at hc
      rw [pushedFuncs_append, pushedFuncs_drain, List.append_nil] at hc
      exact h.bound c hc

/-- **Every step preserves the invariant.** -/
theorem cleanupInv_step {p : Policy} {l l' : Ledger} (hstep : Step p l l') (h : CleanupInv l) :
    CleanupInv l' := by
  -- while there is a child, the cleanup is not done
  have hbusy : ∀ {child : Child}, l.process = some child → l.cleanupDone ≠ true := by
    intro child hchild hdone
    rw [(h.done hdone).process] at hchild
    cases hchild
  cases hstep with
  | calm hfresh hevents =>
    refine h.of_silent rfl (history_calm hevents) rfl hfresh fun hdone => ?_
    exact h.done hdone
  | settle _ => exact ⟨h.done, h.replay, h.nodup, h.bound⟩
  | relink _ =>
    refine ⟨fun hdone => ?_, h.replay, h.nodup, h.bound⟩
    exact ⟨(h.done hdone).1, (h.done hdone).2, (h.done hdone).3, hdone⟩
  | begin =>
    refine ⟨fun hdone => ?_, h.replay, h.nodup, h.bound⟩
    exact ⟨(h.done hdone).1, (h.done hdone).2, (h.done hdone).3, hdone⟩
  | push hfresh hevents hnodup hids => exact h.of_push hevents rfl rfl hfresh hnodup hids rfl
  | launch hlaunch hid =>
    have hnone : ∀ e ∈ ([] : List Event), e.isCalm p.mayCall := by simp
    refine h.of_push hnone (by simp) rfl (Nat.le_succ _) (by simp) ?_ rfl
    intro c hc
    rw [List.mem_singleton.mp hc, hid]
    exact ⟨le_rfl, Nat.lt_succ_self _⟩
  | observe hchild hexit =>
    exact ⟨fun hdone => absurd hdone (hbusy hchild), h.replay, h.nodup, h.bound⟩
  | collect hchild hexit =>
    exact ⟨fun hdone => absurd hdone (hbusy hchild), h.replay, h.nodup, h.bound⟩
  | abandon hchild =>
    exact h.of_silent rfl rfl rfl le_rfl fun hdone => absurd hdone (hbusy hchild)
  | forward hchild =>
    exact ⟨fun hdone => absurd hdone (hbusy hchild), h.replay, h.nodup, h.bound⟩
  | unforward =>
    refine ⟨fun hdone => ?_, h.replay, h.nodup, h.bound⟩
    exact ⟨(h.done hdone).1, rfl, (h.done hdone).3, hdone⟩
  | finalize hsite hne hprocess hforwarder hdrain hfailure =>
    exact h.of_drained hdrain hprocess hforwarder _
  | aborting => exact h.of_silent rfl rfl rfl le_rfl fun hdone => h.done hdone
  | abort hsite hprocess hforwarder hentered hafter hdrain hcause hfailure =>
    exact h.of_drained hdrain hprocess hforwarder _

theorem cleanupInv_initial {W : Type} (b : Blueprint) (clock : ℕ) (w : W) :
    CleanupInv (b.initial clock w).ledger :=
  ⟨by simp [Blueprint.initial, Blueprint.machine, Sys.ledger, Machine.core], rfl, List.nodup_nil,
    by simp [Blueprint.initial, Sys.ledger, pushedFuncs]⟩

/-- The invariant holds in every state that a run reaches. -/
theorem cleanupInv_runCalls {W : Type} (env : Env W) (b : Blueprint) (clock : ℕ) (w : W)
    (calls : List Call) : CleanupInv (runCalls env calls (b.initial clock w)).ledger :=
  Walk.invariant (fun _ _ => cleanupInv_step) (runCalls_leads env calls _)
    (cleanupInv_initial b clock w)

/-! ### What follows from it -/

/-- No cleanup function is executed twice, and only registered ones are. -/
theorem CleanupInv.executed {l : Ledger} (h : CleanupInv l) :
    ((executedFuncs l.trace).map (·.id)).Nodup ∧ executedFuncs l.trace ⊆ pushedFuncs l.trace := by
  have hperm := Lifo.perm_of_replay h.replay
  rw [List.nil_append, pushes_history, pops_history] at hperm
  constructor
  · have hids := (hperm.map (·.id)).nodup_iff.mp h.nodup
    rw [List.map_append] at hids
    exact hids.of_append_left
  · intro c hc
    exact hperm.mem_iff.mpr (List.mem_append_left _ hc)

/-- What the machine holds was registered. -/
theorem CleanupInv.registered {l : Ledger} (h : CleanupInv l) :
    l.cleanupFuncs ⊆ pushedFuncs l.trace := by
  intro c hc
  have hperm := Lifo.perm_of_replay h.replay
  rw [List.nil_append, pushes_history, pops_history] at hperm
  exact hperm.mem_iff.mpr (List.mem_append_right _ (List.mem_reverse.mpr hc))

/-- Every drain goes through, and executes the pending functions from the last to the
first. -/
theorem CleanupInv.drains {l : Ledger} (h : CleanupInv l) {before rest : List Event}
    (htrace : l.trace = before ++ .drainBegin :: rest) :
    ∃ during after, rest = during ++ .drainEnd :: after ∧
      executedFuncs during = (pendingFuncs before).reverse := by
  have hreplay := h.replay
  rw [htrace, history_append] at hreplay
  have hmem : Event.drainEnd ∈ rest := by
    have hcloses := Lifo.closes_mem_of_replay hreplay rfl
    obtain ⟨e, he, heq⟩ := List.mem_filterMap.mp hcloses
    cases e <;> first | exact he | cases heq
  -- the drain ends where the first `drainEnd` stands
  obtain ⟨during, after, hrest, hno⟩ := List.eq_append_cons_of_mem hmem
  refine ⟨during, after, hrest, ?_⟩
  have hcloses : Lifo.Step.closes ∉ history during := by
    intro hin
    obtain ⟨e, he, heq⟩ := List.mem_filterMap.mp hin
    cases e <;> first | exact hno he | cases heq
  have hnodup : (Lifo.pushes (history before)).Nodup := by
    have hall := h.nodup
    rw [htrace, pushedFuncs_append, List.map_append] at hall
    rw [pushes_history]
    exact List.Nodup.of_map _ hall.of_append_left
  rw [← pops_history, ← pending_history]
  rw [hrest] at hreplay
  change Lifo.Stack.replay _ (history before ++ .opens :: history (during ++ .drainEnd :: after))
    = _ at hreplay
  rw [history_append] at hreplay
  exact Lifo.pops_of_drain hreplay hnodup hcloses

/-- When a call has reported the end of the machine: `wait` has returned, `stop_vmm` has
succeeded, `start` has failed, or `pid` has seen the process exit. -/
def Concludes : Call → Outcome Error (Option ℕ) → Prop
  | .wait, .ok _ => True
  | .wait, .err _ => True
  | .stopVmm, .ok _ => True
  | .start, .err e => e ≠ .alreadyStarted
  | .pid, .err e => e = .process "machine process has exited"
  | _, _ => False

/-- A call that has reported the end leaves nothing to finalize. -/
theorem Concludes.settled {W : Type} (env : Env W) (c : Call) (s : Sys W)
    (h : Concludes c (c.exec env s).1) : Machine.Settled (c.exec env s).2 := by
  cases c with
  | setupNetwork | createLogFiles | startVmm => exact absurd h (by simp [Concludes])
  -- a start that fails has been aborted, unless it was refused
  | start =>
    obtain ⟨o, s', hs, -, -, ho⟩ := Machine.start_spec env (p := anything) trivial trivial trivial s
      (Machine.runHandlers_anything env _ _)
    dsimp only [Call.exec] at h ⊢
    rcases ho with ⟨rfl, -⟩ | rfl | rfl | ⟨f, rfl, -, hset⟩
    · rw [Prog.bind_of_err hs] at h
      exact absurd rfl h
    · rw [Prog.bind_of_dropped hs] at h
      exact h.elim
    · rw [Prog.bind_of_ok hs] at h
      exact h.elim
    · rw [Prog.bind_of_err hs]
      exact hset
  | stopVmm =>
    obtain ⟨o, s', hs, -, ho⟩ := Machine.stopVmmAt_spec env (p := anything) .finalize trivial
      (by decide) s
    dsimp only [Call.exec, Machine.stopVmm] at h ⊢
    cases o with
    | ok a =>
      rw [Prog.bind_of_ok hs]
      exact ho rfl
    | err e =>
      rw [Prog.bind_of_err hs] at h
      exact h.elim
    | dropped =>
      rw [Prog.bind_of_dropped hs] at h
      exact h.elim
  -- a wait ends with the machine settled, whatever it returns
  | wait =>
    obtain ⟨o, s', hs, -, ho⟩ := Machine.wait_spec env (p := anything) trivial s
    dsimp only [Call.exec] at h ⊢
    rcases ho with ⟨hset, -⟩ | rfl
    · cases o with
      | ok a =>
        rw [Prog.bind_of_ok hs]
        exact hset
      | err e =>
        rw [Prog.bind_of_err hs]
        exact hset
      | dropped =>
        rw [Prog.bind_of_dropped hs] at h
        exact h.elim
    · rw [Prog.bind_of_dropped hs] at h
      exact h.elim
  | pid =>
    obtain ⟨o, s', hs, -, -, ho⟩ := Machine.pid_spec env (p := anything) trivial s
    dsimp only [Call.exec] at h ⊢
    cases o with
    | ok a =>
      rw [Prog.bind_of_ok hs] at h
      exact h.elim
    | err e =>
      rw [Prog.bind_of_err hs] at h ⊢
      exact ho (congrArg Outcome.err h)
    | dropped =>
      rw [Prog.bind_of_dropped hs] at h
      exact h.elim

/-- **Cleanup functions run at most once, in the reverse of the order in which they were
registered, and a machine whose end has been reported is quiescent.** For every
environment – every outcome of every system call, client call, handler and cleanup
function – every machine and every sequence of public calls. A drain goes on past the
functions that fail: it executes everything that is pending. -/
theorem cleanup_once_reversed_quiescent {W : Type} (env : Env W) (b : Blueprint) (clock : ℕ)
    (w : W) (calls : List Call) :
    (((executedFuncs (runCalls env calls (b.initial clock w)).trace).map (·.id)).Nodup ∧
      executedFuncs (runCalls env calls (b.initial clock w)).trace ⊆
        pushedFuncs (runCalls env calls (b.initial clock w)).trace) ∧
    (∀ before rest,
      (runCalls env calls (b.initial clock w)).trace = before ++ .drainBegin :: rest →
      ∃ during after, rest = during ++ .drainEnd :: after ∧
        executedFuncs during = (pendingFuncs before).reverse) ∧
    ∀ c : Call, Concludes c (c.exec env (runCalls env calls (b.initial clock w))).1 →
      (c.exec env (runCalls env calls (b.initial clock w))).2.machine.core.Quiescent := by
  have h := cleanupInv_runCalls env b clock w calls
  refine ⟨h.executed, fun before rest htrace => h.drains htrace, fun c hc => ?_⟩
  have hset := Concludes.settled env c _ hc
  have hinv := Walk.invariant (fun _ _ => cleanupInv_step)
    (Call.exec_leads env c (runCalls env calls (b.initial clock w))) h
  exact hinv.done hset.2

end FirecrackerSdk
