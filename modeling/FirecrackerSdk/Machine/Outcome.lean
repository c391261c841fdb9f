import FirecrackerSdk.Machine.Starting

/-!
# The outcome of a machine

What the user is told about the end of a machine, and what is kept from him.

Once a machine is settled – no child, cleanup done – no call changes it any more, so
whatever `wait` reports it reports for ever (`FirecrackerSdk.terminal_outcome_stable`). The two
writers of `fatal_err` have different policies, the first error wins in one and the
last in the other, but both have finished when the state is settled.

Not every cleanup failure finds its way into that outcome. Three branches lose one: a
drain inside the `stop_vmm` that `abort_start` calls, whose result is remembered and then
overwritten; a drain by `wait`, `stop_vmm` or `pid` while an error is already stored,
which `remember_terminal_error` drops; and `abort_start` overwriting a stored error that it
does not report itself. A run that takes none of them
(`FirecrackerSdk.KeepsFailures`) reports every failure
(`FirecrackerSdk.cleanup_failures_reported`).
-/

namespace FirecrackerSdk

open Prog

variable {W : Type} (env : Env W)

/-! ### A settled machine stays as it is -/

namespace Machine

theorem wait_of_settled {s : Sys W} (h : Settled s) :
    wait env s = (reported s.machine.fatalErr, s) := by
  have hguard : finalizeIfNeeded env .finalize s = (.ok (), s) := by
    unfold finalizeIfNeeded
    rw [Op.machine_bind, h.1, h.2]
    rfl
  unfold wait
  rw [bind_of_ok hguard, Op.machine_bind]
  cases s.machine.fatalErr with
  | none => rfl
  | some e => rfl

theorem stopVmm_of_settled {s : Sys W} (h : Settled s) : stopVmm env s = (.ok (), s) := by
  have hsigterm : sendSigtermToVmm env s = (.ok (), s) := by
    unfold sendSigtermToVmm
    rw [Op.machine_bind, h.1]
    rfl
  unfold stopVmm stopVmmAt
  rw [bind_of_ok hsigterm]
  unfold finalizeIfNeeded
  rw [Op.machine_bind, h.1, h.2]
  rfl

theorem pid_of_settled {s : Sys W} (h : Settled s) :
    pid env s = (.err (.process "machine is not running"), s) := by
  unfold pid
  rw [Op.machine_bind, h.1]
  rfl

theorem start_of_started {s : Sys W} (h : s.machine.started = true) :
    start env s = (.err .alreadyStarted, s) := by
  unfold start
  rw [Op.machine_bind, h]
  rfl

end Machine

/-- Observing or stopping a settled machine does nothing. -/
theorem runCalls_of_settled {s : Sys W} (h : Machine.Settled s) {calls : List Call}
    (hcalls : ∀ c ∈ calls, c = .wait ∨ c = .stopVmm ∨ c = .pid ∨
      c = .start ∧ s.machine.started = true) : runCalls env calls s = s := by
  induction calls with
  | nil => rfl
  | cons c calls ih =>
    rw [List.forall_mem_cons] at hcalls
    have hc : (c.exec env s).2 = s := by
      rcases hcalls.1 with rfl | rfl | rfl | ⟨rfl, hstarted⟩
      · dsimp only [Call.exec]
        rw [bind_apply, Machine.wait_of_settled env h]
        cases s.machine.fatalErr <;> rfl
      · dsimp only [Call.exec]
        rw [bind_of_ok (Machine.stopVmm_of_settled env h)]
        rfl
      · dsimp only [Call.exec]
        rw [bind_of_err (Machine.pid_of_settled env h)]
      · dsimp only [Call.exec]
        rw [bind_of_err (Machine.start_of_started env hstarted)]
    rw [runCalls, hc]
    exact ih hcalls.2

/-- **The terminal outcome of a machine is stable.** After a start that failed, every
later `wait` reports the very error that the start returned, every `start` is refused
and every `pid` is an error; after a `wait` that returned, every later `wait` returns
the same – in every environment, from every state, and after any of the calls that
the user may make in between. -/
theorem terminal_outcome_stable (s : Sys W) :
    (∀ e s', Machine.start env s = (.err e, s') → e ≠ .alreadyStarted →
      ∀ calls, (∀ c ∈ calls, c = .start ∨ c = .stopVmm ∨ c = .wait ∨ c = .pid) →
        (Machine.wait env (runCalls env calls s')).1 = .err e ∧
        (Machine.start env (runCalls env calls s')).1 = .err .alreadyStarted ∧
        ∃ e', (Machine.pid env (runCalls env calls s')).1 = .err e') ∧
    ∀ r s', Machine.wait env s = (r, s') → r ≠ .dropped →
      ∀ calls, (∀ c ∈ calls, c = .wait ∨ c = .stopVmm ∨ c = .pid) →
        (Machine.wait env (runCalls env calls s')).1 = r := by
  constructor
  · intro e s' hstart he calls hcalls
    obtain ⟨o, s'', hs, -, hstarted, ho⟩ := Machine.start_spec env (p := anything) trivial trivial
      trivial s (Machine.runHandlers_anything env _ _)
    rw [hstart] at hs
    obtain ⟨rfl, rfl⟩ := Prod.mk.inj hs
    rcases ho with ⟨h, -⟩ | h | h | ⟨f, h, hf, hset⟩
    · exact absurd (Outcome.err.inj h) he
    · cases h
    · cases h
    · obtain rfl := Outcome.err.inj h
      -- an aborted machine is settled, and none of these calls changes it
      have hrun : runCalls env calls s' = s' := by
        refine runCalls_of_settled env hset fun c hc => ?_
        rcases hcalls c hc with rfl | rfl | rfl | rfl
        · exact .inr (.inr (.inr ⟨rfl, hstarted⟩))
        · exact .inr (.inl rfl)
        · exact .inl rfl
        · exact .inr (.inr (.inl rfl))
      rw [hrun, Machine.wait_of_settled env hset, Machine.start_of_started env hstarted,
        Machine.pid_of_settled env hset, hf]
      exact ⟨rfl, rfl, _, rfl⟩
  · intro r s' hwait hr calls hcalls
    obtain ⟨o, s'', hs, -, ho⟩ := Machine.wait_spec env (p := anything) trivial s
    rw [hwait] at hs
    obtain ⟨rfl, rfl⟩ := Prod.mk.inj hs
    rcases ho with ⟨hset, rfl⟩ | rfl
    · -- so is one that has been waited for
      have hrun : runCalls env calls s' = s' := by
        refine runCalls_of_settled env hset fun c hc => ?_
        rcases hcalls c hc with rfl | rfl | rfl
        · exact .inl rfl
        · exact .inr (.inl rfl)
        · exact .inr (.inr (.inl rfl))
      rw [hrun, Machine.wait_of_settled env hset]
    · exact absurd rfl hr

/-! ### Cleanup failures -/

/-- What the failed cleanup functions of a run display. -/
def failingTexts (trace : List Event) : List String :=
  trace.filterMap fun
    | .executed x => x.failure.map Error.display
    | _ => none

/-- **A run that takes none of the branches that lose a cleanup failure.** Each function
that fails is drained by `abort_start` itself, or by `wait`, `stop_vmm` or `pid` while no
error is stored; and `abort_start` is entered with no error stored, or before anything
has failed, or with the stored error as its cause. -/
def KeepsFailures (trace : List Event) : Prop :=
  (∀ x, .executed x ∈ trace → x.failure.isSome →
    x.site = .abort ∨ x.site = .finalize ∧ x.fatal = none) ∧
  ∀ before fatal cause after, trace = before ++ .aborting fatal cause :: after →
    fatal = none ∨ failingTexts before = [] ∨ fatal.map Error.copy = some cause

theorem KeepsFailures.of_append {t t' : List Event} (h : KeepsFailures (t ++ t')) :
    KeepsFailures t := by
  refine ⟨fun x hx => h.1 x (List.mem_append_left _ hx), fun before fatal cause after ht => ?_⟩
  refine h.2 before fatal cause (after ++ t') ?_
  rw [ht, List.append_assoc, List.cons_append]

/-- Everything that failed is shown by the stored error, and was shown by the error that
was stored whenever `abort_start` was entered. -/
structure Reported (l : Ledger) : Prop where
  stored : ∀ t ∈ failingTexts l.trace,
    ∃ f, l.fatalErr = some f ∧ Text.Occurs t f.copy.display
  entered : ∀ before fatal cause after, l.trace = before ++ .aborting fatal cause :: after →
    ∀ t ∈ failingTexts before, ∃ f, fatal = some f ∧ Text.Occurs t f.copy.display

theorem failingTexts_append (t t' : List Event) :
    failingTexts (t ++ t') = failingTexts t ++ failingTexts t' :=
  List.filterMap_append

theorem mem_failingTexts {trace : List Event} {t : String} :
    t ∈ failingTexts trace ↔
      ∃ x e, .executed x ∈ trace ∧ x.failure = some e ∧ e.display = t := by
  unfold failingTexts
  rw [List.mem_filterMap]
  constructor
  · rintro ⟨ev, hev, h⟩
    cases ev with
    | executed x =>
      obtain ⟨e, he, ht⟩ := Option.map_eq_some_iff.mp h
      exact ⟨x, e, hev, he, ht⟩
    | _ => cases h
  · rintro ⟨x, e, hx, he, rfl⟩
    exact ⟨_, hx, by simp [he]⟩

/-- An element that is not among the ones added stands in the old part of a list. -/
theorem split_of_append {α : Type} {xs ys before after : List α} {a : α}
    (h : xs ++ ys = before ++ a :: after) (ha : a ∉ ys) : ∃ after', xs = before ++ a :: after' := by
  rcases List.append_eq_append_iff.mp h with ⟨zs, hbefore, hys⟩ | ⟨zs, hxs, hafter⟩
  · exact absurd (hys ▸ List.mem_append_right _ List.mem_cons_self) ha
  · cases zs with
    | nil =>
      rw [List.nil_append] at hafter
      exact absurd (hafter ▸ List.mem_cons_self) ha
    | cons z zs =>
      obtain ⟨rfl, -⟩ := List.cons.inj hafter
      exact ⟨zs, hxs⟩

/-- Steps that neither fail nor enter `abort_start`. -/
theorem Reported.of_silent {l l' : Ledger} (h : Reported l) {events : List Event}
    (htrace : l'.trace = l.trace ++ events) (hfail : failingTexts events = [])
    (hentry : ∀ fatal cause, .aborting fatal cause ∉ events)
    (hfatal : ∀ f, l.fatalErr = some f → l'.fatalErr = some f) : Reported l' := by
  constructor
  · intro t ht
    rw [htrace, failingTexts_append, hfail, List.append_nil] at ht
    obtain ⟨f, hf, hocc⟩ := h.stored t ht
    exact ⟨f, hfatal f hf, hocc⟩
  · intro before fatal cause after hsplit
    rw [htrace] at hsplit
    obtain ⟨after', hold⟩ := split_of_append hsplit (hentry fatal cause)
    exact h.entered before fatal cause after' hold

theorem failingTexts_drain (execs : List Execution) :
    failingTexts (.drainBegin :: (execs.map .executed ++ [.drainEnd])) = failureTexts execs := by
  change failingTexts (execs.map .executed ++ [.drainEnd]) = _
  rw [failingTexts_append, failingTexts, List.filterMap_map]
  exact List.append_nil _

theorem failingTexts_calm {A : ClientCall → Prop} {events : List Event}
    (h : ∀ e ∈ events, e.isCalm A) : failingTexts events = [] := by
  rw [List.eq_nil_iff_forall_not_mem]
  intro t ht
  obtain ⟨x, e, hx, -⟩ := mem_failingTexts.mp ht
  exact h _ hx

/-- A drain, with an error stored afterwards that shows the old failures and the new
ones. -/
theorem Reported.of_drained {site : DrainSite} {l l' : Ledger} {execs : List Execution}
    (h : Reported l) (hdrain : Drained site l execs l') {fatalErr : Option Error}
    (hold : ∀ t ∈ failingTexts l.trace, ∃ f, fatalErr = some f ∧ Text.Occurs t f.copy.display)
    (hnew : ∀ t ∈ failureTexts execs, ∃ f, fatalErr = some f ∧ Text.Occurs t f.copy.display) :
    Reported { l' with fatalErr := fatalErr } := by
  cases hdrain with
  | idle hdone => exact ⟨hold, h.entered⟩
  | drain hdone hcleanups hsite hfatal hrunning hprocs =>
    constructor
    · intro t ht
      change t ∈ failingTexts (l.trace ++ _) at ht
      rw [failingTexts_append, failingTexts_drain] at ht
      rcases List.mem_append.mp ht with ht | ht
      · exact hold t ht
      · exact hnew t ht
    · intro before fatal cause after hsplit
      obtain ⟨after', hpre⟩ := split_of_append hsplit (by simp)
      exact h.entered before fatal cause after' hpre

/-- Every failure of a drain has a record in the trace that follows. -/
theorem Drained.failing {site : DrainSite} {l l' : Ledger} {execs : List Execution}
    (h : Drained site l execs l') {t : String} (ht : t ∈ failureTexts execs) :
    ∃ x, .executed x ∈ l'.trace ∧ x.failure.isSome ∧ x.site = site ∧ x.fatal = l.fatalErr := by
  obtain ⟨x, hx, hfail⟩ := List.mem_filterMap.mp ht
  obtain ⟨e, he, -⟩ := Option.map_eq_some_iff.mp hfail
  cases h with
  | idle hdone => cases hx
  | drain hdone hcleanups hsite hfatal hrunning hprocs =>
    exact ⟨x, by simp [hx], by rw [he]; rfl, hsite x hx, hfatal x hx⟩

/-- **Every step keeps the failures**, in a run that takes none of the losing
branches. -/
theorem reported_step {p : Policy} {l l' : Ledger} (hstep : Step p l l')
    (ih : KeepsFailures l.trace → Reported l) (hkeeps : KeepsFailures l'.trace) : Reported l' := by
  have h : Reported l := by
    obtain ⟨events, htrace, -⟩ := hstep.trace
    exact ih (htrace ▸ hkeeps).of_append
  cases hstep with
  | calm hfresh hevents =>
    refine h.of_silent rfl (failingTexts_calm hevents) (fun _ _ hmem => ?_) fun _ hf => hf
    exact hevents _ hmem
  | push hfresh hevents hnodup hids =>
    refine h.of_silent (List.append_assoc _ _ _) ?_ (fun _ _ hmem => ?_) fun _ hf => hf
    · rw [failingTexts_append, failingTexts_calm hevents, failingTexts, List.filterMap_map]
      simp
    · rcases List.mem_append.mp hmem with hmem | hmem
      · exact hevents _ hmem
      · simp at hmem
  | launch hlaunch hid => exact h.of_silent rfl rfl (by simp) fun _ hf => hf
  | abandon hchild => exact h.of_silent rfl rfl (by simp) fun _ hf => hf
  | finalize hsite hne hprocess hforwarder hdrain hfailure =>
    rename_i drained site execs failure
    -- where something fails, nothing was stored, and so nothing had failed before
    have hnone : ∀ t ∈ failureTexts execs, l.fatalErr = none := by
      intro t ht
      obtain ⟨x, hx, hsome, hxsite, hxfatal⟩ := hdrain.failing ht
      rcases hkeeps.1 x hx hsome with habort | ⟨-, hnone⟩
      · exact absurd (hxsite.symm.trans habort) hne
      · rw [← hxfatal, hnone]
    have hfatal : drained.fatalErr = l.fatalErr := by
      cases hdrain <;> rfl
    refine h.of_drained hdrain (fun t ht => ?_) fun t ht => ?_
    · obtain ⟨f, hf, hocc⟩ := h.stored t ht
      exact ⟨f, by rw [hfatal, hf]; rfl, hocc⟩
    · obtain ⟨e, he, hocc⟩ := hfailure t ht
      refine ⟨e.copy, ?_, ?_⟩
      · rw [hfatal, hnone t ht, he]
        rfl
      · rw [Error.copy_copy_display]
        exact hocc
  | aborting =>
    rename_i cause
    constructor
    · intro t ht
      change t ∈ failingTexts (l.trace ++ _) at ht
      rw [failingTexts_append] at ht
      exact h.stored t (by simpa [failingTexts] using ht)
    · intro before fatal cause' after hsplit t ht
      change l.trace ++ [.aborting l.fatalErr cause] = _ at hsplit
      rcases List.eq_nil_or_concat after with rfl | ⟨after', e, rfl⟩
      · obtain ⟨rfl, hlast⟩ := List.append_inj' hsplit rfl
        cases hlast
        exact h.stored t ht
      · rw [List.concat_eq_append, ← List.cons_append, ← List.append_assoc] at hsplit
        obtain ⟨hpre, -⟩ := List.append_inj' hsplit rfl
        exact h.entered before fatal cause' after' hpre t ht
  | abort hsite hprocess hforwarder hentered hafter hdrain hcause hfailure =>
    refine h.of_drained hdrain (fun t ht => ⟨_, rfl, ?_⟩) fun t ht => ⟨_, rfl, hfailure t ht⟩
    have hkeeps₀ : KeepsFailures l.trace := by
      obtain ⟨events, htrace, -⟩ := hdrain.trace
      have happend : KeepsFailures (l.trace ++ events) := htrace ▸ hkeeps
      exact happend.of_append
    rw [hentered, failingTexts_append] at ht
    rcases List.mem_append.mp ht with ht | ht
    · -- what failed before `abort_start` was entered is shown by its cause
      obtain ⟨f, hf, hocc⟩ := h.entered _ _ _ _ hentered t ht
      rcases hkeeps₀.2 _ _ _ _ hentered with hnone | hnil | hcopy
      · rw [hf] at hnone
        cases hnone
      · rw [hnil] at ht
        cases ht
      · rw [hf] at hcopy
        obtain rfl := Option.some.inj hcopy
        exact hcause t hocc (by rwa [Error.copy_copy_display])
    · -- and what failed since then was drained inside its `stop_vmm`
      obtain ⟨x, e, hx, he, -⟩ := mem_failingTexts.mp ht
      rcases List.mem_cons.mp hx with hx | hx
      · cases hx
      · have hxsite := hafter x hx
        have hmem : .executed x ∈ l.trace := by
          rw [hentered]
          exact List.mem_append_right _ (List.mem_cons_of_mem _ hx)
        rcases hkeeps₀.1 x hmem (by rw [he]; rfl) with h' | ⟨h', -⟩ <;> rw [hxsite] at h' <;>
          cases h'
  | _ => exact ⟨h.stored, h.entered⟩

/-- The failures are reported in every state that such a run reaches. -/
theorem reported_runCalls (b : Blueprint) (clock : ℕ) (w : W) (calls : List Call)
    (h : KeepsFailures (runCalls env calls (b.initial clock w)).trace) :
    Reported (runCalls env calls (b.initial clock w)).ledger := by
  refine Walk.invariant (I := fun l => KeepsFailures l.trace → Reported l)
    (fun _ _ => reported_step) (runCalls_leads env calls _) (fun _ => ?_) h
  constructor
  · intro t ht
    cases ht
  · intro before fatal cause after hsplit
    exact absurd hsplit (by simp [Blueprint.initial, Sys.ledger])

/-- **Every cleanup failure is reported, in a run that takes none of the losing branches**:
by the `wait` that comes after it, and by the start that it happened in. The condition
is on the trace of the run so far, with the call that reports. -/
theorem cleanup_failures_reported (b : Blueprint) (clock : ℕ) (w : W) (calls : List Call) :
    (∀ r s', Machine.wait env (runCalls env calls (b.initial clock w)) = (r, s') → r ≠ .dropped →
      KeepsFailures s'.trace → ∀ t ∈ failingTexts s'.trace,
        ∃ e, r = .err e ∧ Text.Occurs t e.display) ∧
    ∀ e s' events, Machine.start env (runCalls env calls (b.initial clock w)) = (.err e, s') →
      s'.trace = (runCalls env calls (b.initial clock w)).trace ++ events →
      KeepsFailures s'.trace → ∀ t ∈ failingTexts events, Text.Occurs t e.display := by
  have hrun := reported_runCalls env b clock w calls
  have hcall : ∀ s' : Sys W, Leads anything (runCalls env calls (b.initial clock w)) s' →
      KeepsFailures s'.trace → Reported s'.ledger := fun s' hl =>
    Walk.invariant (I := fun l => KeepsFailures l.trace → Reported l)
      (fun _ _ => reported_step) hl hrun
  constructor
  · intro r s' hwait hr hkeeps t ht
    obtain ⟨o, s'', hs, hl, ho⟩ := Machine.wait_spec env (p := anything) trivial
      (runCalls env calls (b.initial clock w))
    rw [hwait] at hs
    obtain ⟨rfl, rfl⟩ := Prod.mk.inj hs
    rcases ho with ⟨-, rfl⟩ | rfl
    · -- the wait returns a copy of the stored error, with the same text
      obtain ⟨f, hf, hocc⟩ := (hcall s' hl hkeeps).stored t ht
      refine ⟨f.copy, ?_, hocc⟩
      change s'.machine.fatalErr = some f at hf
      rw [hf]
      rfl
    · exact absurd rfl hr
  · intro e s' events hstart htrace hkeeps t ht
    obtain ⟨o, s'', hs, hl, -, ho⟩ := Machine.start_spec env (p := anything) trivial trivial trivial
      (runCalls env calls (b.initial clock w)) (Machine.runHandlers_anything env _ _)
    rw [hstart] at hs
    obtain ⟨rfl, rfl⟩ := Prod.mk.inj hs
    rcases ho with ⟨-, rfl⟩ | h | h | ⟨f, h, hf, -⟩
    · -- a refused start executes nothing
      have : events = [] := by simpa using htrace
      rw [this] at ht
      cases ht
    · cases h
    · cases h
    · obtain rfl := Outcome.err.inj h
      -- the start returns the error that the abort has stored
      have hmem : t ∈ failingTexts s'.trace := by
        rw [htrace, failingTexts_append]
        exact List.mem_append_right _ ht
      obtain ⟨f', hf', hocc⟩ := (hcall s' hl hkeeps).stored t hmem
      change s'.machine.fatalErr = some f' at hf'
      rw [hf] at hf'
      obtain rfl := Option.some.inj hf'
      exact hocc

/-- A world in which signals cannot be forwarded and the API socket cannot be removed. -/
def stubbornSocket : Env Unit := .answering fun
  | .register _ _ => .error (.io ⟨.other 22, "Invalid argument", some 22⟩)
  | .removeFile _ => .error ⟨.other 13, "Permission denied", some 13⟩
  | query => query.smooth

/-- A start in that world: the forwarder fails after the spawn, so `abort_start` stops a
live process, and the socket's removal fails inside that stop. Neither the start nor
any later `wait` says so. -/
theorem cleanup_failure_swallowed :
    "io error: Permission denied" ∈
        failingTexts (Machine.start stubbornSocket sampleMachine).2.trace ∧
      (Machine.start stubbornSocket sampleMachine).1 =
        .err (.io ⟨.other 22, "Invalid argument", none⟩) ∧
      (Machine.wait stubbornSocket (Machine.start stubbornSocket sampleMachine).2).1 =
        .err (.io ⟨.other 22, "Invalid argument", none⟩) ∧
      ¬ Text.Occurs "io error: Permission denied"
        (Error.io ⟨.other 22, "Invalid argument", none⟩).display := by
  decide +kernel

end FirecrackerSdk
