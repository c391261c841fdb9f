import FirecrackerSdk.Machine.Calm

/-!
# The operations walk along the steps of the ledger

The connection between the two levels: each operation of the model, run in any
environment and cut off anywhere, moves the ledger along the steps of
`FirecrackerSdk.Step`. For the functions that end something the statement also says
how they end – which fields are cleared, and what is returned.

* `FirecrackerSdk.Machine.doCleanup_spec` – a drain;
* `FirecrackerSdk.Machine.waitForProcessExit_spec` – the child leaves the machine;
* `FirecrackerSdk.Machine.finalize_spec` and `FirecrackerSdk.Machine.abortStart_spec` – the two
  ways to end a machine.
-/

namespace FirecrackerSdk

open Prog

variable {W : Type}

/-- The ledger of `s` leads to that of `s'` along a walk. -/
def Leads (p : Policy) (s s' : Sys W) : Prop := Walk p s.ledger s'.ledger

instance (p : Policy) : Std.Refl (Leads (W := W) p) where
  refl _ := Relation.ReflTransGen.refl

instance (p : Policy) : IsTrans (Sys W) (Leads p) where
  trans _ _ _ := Relation.ReflTransGen.trans

variable {p : Policy}

theorem Leads.trans {s t u : Sys W} (h : Leads p s t) (h' : Leads p t u) : Leads p s u :=
  Relation.ReflTransGen.trans h h'

/-- One step. -/
theorem Leads.step {s s' : Sys W} (h : Step p s.ledger s'.ledger) : Leads p s s' := .single h

/-- A change that the ledger does not see. -/
theorem Leads.of_eq {s s' : Sys W} (h : s'.ledger = s.ledger) : Leads p s s' := by
  rw [Leads, h]

/-- Time passes. -/
theorem Leads.of_settles {s s' : Sys W} (hm : s'.machine.core = s.machine.core)
    (hp : Settles s.procs s'.procs) (hf : s'.fresh = s.fresh) (ht : s'.trace = s.trace) :
    Leads p s s' := by
  have hl : s'.ledger = { s.ledger with procs := s'.procs } := by
    unfold Sys.ledger
    rw [hm, hf, ht]
  refine .step ?_
  rw [hl]
  exact .settle hp

/-- What owns nothing is a step. -/
theorem Calm.leads {s s' : Sys W} (h : Calm p.mayCall s s') : Leads p s s' := by
  obtain ⟨hc, hp, hf, events, ht, he⟩ := h
  have hl : s'.ledger = { s.ledger with fresh := s'.fresh, trace := s.trace ++ events } := by
    unfold Sys.ledger
    rw [hc, hp, ht]
  refine .step ?_
  rw [hl]
  exact .calm hf he

theorem leads_of_calm {α : Type} {x : Op W α} (h : Within (Calm p.mayCall) x) :
    Within (Leads p) x :=
  fun s => (h s).leads

theorem passive_leads (env : Env W) : Passive env p.mayCall (Leads p) where
  ask q _ := leads_of_calm (calm_ask env q)
  update hf := leads_of_calm (calm_update hf)
  emit he := leads_of_calm (calm_emit he)
  box action := leads_of_calm (calm_box action)
  clock f := leads_of_calm (calm_clock f)

namespace Machine

variable (env : Env W)

/-! ### Executing and draining cleanup functions -/

theorem settle_spec (s : Sys W) :
    ∃ s', Op.settle env s = (.ok (), s') ∧ s'.machine = s.machine ∧
      Settles s.procs s'.procs ∧ s'.fresh = s.fresh ∧ s'.trace = s.trace :=
  ⟨_, rfl, rfl, settles_exits _ _, rfl, rfl⟩

/-- Calling a cleanup function touches the world only, and always returns. -/
theorem callCleanup_spec (cleanup : CleanupFn) (s : Sys W) :
    ∃ r s', (callCleanup env cleanup).attempt s = (.ok r, s') ∧ s'.machine = s.machine ∧
      s'.procs = s.procs ∧ s'.fresh = s.fresh ∧ s'.trace = s.trace := by
  have hask : ∀ {α : Type} (q : Query α), Op.ask env q s =
      (.ok (env.answer q s.world).1, { s with world := (env.answer q s.world).2 }) :=
    fun _ => rfl
  unfold callCleanup
  split
  · rename_i path _
    rw [attempt_bind_of_ok (hask _)]
    split
    · exact ⟨_, _, rfl, rfl, rfl, rfl, rfl⟩
    · split
      · exact ⟨_, _, rfl, rfl, rfl, rfl, rfl⟩
      · exact ⟨_, _, rfl, rfl, rfl, rfl, rfl⟩
  · rename_i tag _
    rw [attempt_bind_of_ok (hask _)]
    cases (env.answer (.external tag) s.world).1 with
    | ok a => exact ⟨_, _, rfl, rfl, rfl, rfl, rfl⟩
    | error e => exact ⟨_, _, rfl, rfl, rfl, rfl, rfl⟩

/-- Executing a cleanup function adds one record to the trace. -/
theorem execute_spec (site : DrainSite) (cleanup : CleanupFn) (s : Sys W) :
    ∃ (x : Execution) (s' : Sys W), execute env site cleanup s = (.ok x.failure, s') ∧
      x.cleanup = cleanup ∧ x.site = site ∧ x.fatal = s.machine.fatalErr ∧
      (x.vmmRunning = true → Op.anyRunning s.procs = true) ∧
      s'.machine = s.machine ∧ Settles s.procs s'.procs ∧ s'.fresh = s.fresh ∧
      s'.trace = s.trace ++ [.executed x] := by
  obtain ⟨s₁, h₁, hm₁, hp₁, hf₁, ht₁⟩ := settle_spec env s
  obtain ⟨r, s₂, h₂, hm₂, hp₂, hf₂, ht₂⟩ := callCleanup_spec env cleanup s₁
  refine ⟨⟨cleanup, errOf r, site, s₂.machine.fatalErr, Op.anyRunning s₂.procs⟩,
    { s₂ with trace := s₂.trace ++ [.executed
      ⟨cleanup, errOf r, site, s₂.machine.fatalErr, Op.anyRunning s₂.procs⟩] },
    ?_, rfl, rfl, ?_, ?_, ?_, ?_, ?_, ?_⟩
  · refine (bind_of_ok h₁).trans ((bind_of_ok h₂).trans rfl)
  · rw [hm₂, hm₁]
  · intro hrun
    rw [hp₂] at hrun
    exact hp₁.anyRunning hrun
  · exact hm₂.trans hm₁
  · change Settles s.procs s₂.procs
    rw [hp₂]
    exact hp₁
  · exact hf₂.trans hf₁
  · change s₂.trace ++ _ = _
    rw [ht₂, ht₁]

/-- **The loop of a drain**: every registered function is executed, the last one
first. -/
theorem drainCleanups_spec (site : DrainSite) (s : Sys W) :
    ∃ execs s', drainCleanups env site s.machine.cleanupFuncs.length s =
        (.ok (failureTexts execs), s') ∧
      execs.map (·.cleanup) = s.machine.cleanupFuncs.reverse ∧ (∀ x ∈ execs, x.site = site) ∧
      (∀ x ∈ execs, x.fatal = s.machine.fatalErr) ∧
      (∀ x ∈ execs, x.vmmRunning = true → Op.anyRunning s.procs = true) ∧
      s'.machine = { s.machine with cleanupFuncs := [] } ∧ Settles s.procs s'.procs ∧
      s'.fresh = s.fresh ∧ s'.trace = s.trace ++ execs.map .executed := by
  -- the loop pops from the end, so the induction is on the list seen from there
  induction hfs : s.machine.cleanupFuncs using List.reverseRecOn generalizing s with
  | nil =>
    exact ⟨[], s, rfl, by simp, by simp, by simp, by simp, by rw [← hfs],
      Settles.refl _, rfl, by simp⟩
  | append_singleton fs f ih =>
    set s₁ : Sys W := { s with machine := { s.machine with cleanupFuncs := fs } } with hs₁
    obtain ⟨x, s₂, h₂, hx, hxs, hxf, hxr, hm₂, hp₂, hf₂, ht₂⟩ := execute_spec env site f s₁
    obtain ⟨execs, s₃, h₃, hc₃, hsite, hfatal, hrun, hm₃, hp₃, hf₃, ht₃⟩ :=
      ih s₂ (by rw [hm₂])
    refine ⟨x :: execs, s₃, ?_, ?_, ?_, ?_, ?_, ?_, ?_, ?_, ?_⟩
    · have hlen : (fs ++ [f]).length = fs.length + 1 := by simp
      rw [hlen, drainCleanups]
      rw [Op.machine_bind, hfs]
      simp only [List.getLast?_append, List.getLast?_singleton, Option.some_or]
      refine (bind_of_ok (show Op.update _ s = (.ok (), s₁) from ?_)).trans ?_
      · rw [hs₁, Op.update, modify_apply, hfs, List.dropLast_concat]
      refine (bind_of_ok h₂).trans ((bind_of_ok h₃).trans ?_)
      rw [pure_apply, failureTexts, failureTexts]
      cases hxfail : x.failure <;> simp [hxfail]
    · rw [List.map_cons, hc₃, hx]
      simp
    · exact List.forall_mem_cons.mpr ⟨hxs, hsite⟩
    · refine List.forall_mem_cons.mpr ⟨hxf, fun y hy => ?_⟩
      rw [hfatal y hy, hm₂]
    · exact List.forall_mem_cons.mpr ⟨hxr, fun y hy h => hp₂.anyRunning (hrun y hy h)⟩
    · rw [hm₃, hm₂]
    · exact hp₂.trans hp₃
    · rw [hf₃, hf₂]
    · rw [ht₃, ht₂, List.map_cons, List.append_assoc]
      rfl

/-- What `do_cleanup` returns after a drain. -/
def cleanupResult (execs : List Execution) : Except Error Unit :=
  if failureTexts execs = [] then .ok ()
  else .error (.process ("cleanup failed: " ++ "; ".intercalate (failureTexts execs)))

/-- **What `do_cleanup` does**: nothing when there is nothing to do, and else a whole
drain. It always returns. -/
theorem doCleanup_spec (site : DrainSite) (s : Sys W) :
    ∃ execs s', (doCleanup env site).attempt s = (.ok (cleanupResult execs), s') ∧
      Drained site s.ledger execs s'.ledger ∧
      s'.machine =
        { s.machine with cleanupDone := true, cleanupFuncs := s'.machine.cleanupFuncs } := by
  have hmach : Op.machine s = (.ok s.machine, s) := rfl
  unfold doCleanup
  rw [attempt_bind_of_ok hmach]
  cases hdone : s.machine.cleanupDone with
  -- `cleanup_done` is set: the functions have run, and nothing is done
  | true => exact ⟨[], s, rfl, .idle hdone, by rw [← hdone]⟩
  | false =>
    set s₁ : Sys W :=
      { s with
        machine := { s.machine with cleanupDone := true }
        trace := s.trace ++ [.drainBegin] } with hs₁
    -- the flag is set before the first function runs
    obtain ⟨execs, s₂, h₂, hc, hsite, hfatal, hrun, hm, hp, hf, ht⟩ :=
      drainCleanups_spec env site s₁
    refine ⟨execs, { s₂ with trace := s₂.trace ++ [.drainEnd] }, ?_, ?_, ?_⟩
    · simp only [Bool.false_eq_true, if_false]
      rw [attempt_bind_of_ok (show Op.update _ s = (.ok (), _) from rfl),
        attempt_bind_of_ok (show Op.emit .drainBegin _ = (.ok (), s₁) from rfl),
        attempt_bind_of_ok (show Op.machine s₁ = (.ok s₁.machine, s₁) from rfl),
        attempt_bind_of_ok h₂,
        attempt_bind_of_ok (show Op.emit .drainEnd s₂ = (.ok (), _) from rfl), cleanupResult]
      split
      · rfl
      · rfl
    · have hl : Sys.ledger { s₂ with trace := s₂.trace ++ [Event.drainEnd] } =
          { s.ledger with
            cleanupDone := true
            cleanupFuncs := []
            procs := s₂.procs
            trace := s.trace ++ .drainBegin :: (execs.map .executed ++ [.drainEnd]) } := by
        unfold Sys.ledger Machine.core
        simp only [hm, hf, ht, hs₁, List.append_assoc, List.cons_append, List.nil_append]
      rw [hl]
      exact .drain hdone hc hsite hfatal hrun hp
    · change s₂.machine = _
      rw [hm]

/-! ### Observing the child -/

/-- `try_wait` at most sees the exit of the child. -/
theorem tryWait_spec (s : Sys W) :
    ∃ o s', tryWait env s = (o, s') ∧ Leads p s s' ∧
      ((∃ e, o = .err (.io e) ∧ s'.machine = s.machine) ∨ (o = .ok none ∧ s'.machine = s.machine) ∨
        ∃ child status, o = .ok (some status) ∧ s.machine.process = some child ∧
          s'.machine = { s.machine with process := some { child with done := some status } }) := by
  unfold tryWait
  rw [Op.machine_bind]
  cases hchild : s.machine.process with
  | none => exact ⟨_, _, rfl, refl_of _ _, .inr (.inl ⟨rfl, rfl⟩)⟩
  | some child =>
    dsimp only
    cases hdone : child.done with
    | some status =>
      -- the child has been reaped by an earlier call, and keeps its status
      refine ⟨_, _, rfl, refl_of _ _, .inr (.inr ⟨child, status, rfl, rfl, ?_⟩)⟩
      rw [← hdone, ← hchild]
    | none =>
      dsimp only
      obtain ⟨s₁, h₁, hm₁, hp₁, hf₁, ht₁⟩ := settle_spec env s
      have hleads : ∀ w, Leads p s { s₁ with world := w } := fun w =>
        .of_settles (by rw [hm₁]) hp₁ hf₁ ht₁
      rw [bind_of_ok h₁, Op.ask_bind]
      cases (env.answer (.tryWaitError child.pid) s₁.world).1 with
      | some error => exact ⟨_, _, rfl, hleads _, .inl ⟨_, rfl, hm₁⟩⟩
      | none =>
        dsimp only
        rw [gets_bind]
        cases hexit : Op.exitOf s₁.procs child.uid with
        | none => exact ⟨_, _, rfl, hleads _, .inr (.inl ⟨rfl, hm₁⟩)⟩
        -- it has exited: `try_wait` reaps it, and it stays in `process`
        | some status =>
          refine ⟨_, _, rfl, (hleads (env.answer (.tryWaitError child.pid) s₁.world).2).trans ?_,
            .inr (.inr ⟨child, status, rfl, rfl, ?_⟩)⟩
          · refine Leads.trans (t := { s₁ with
                world := (env.answer (.tryWaitError child.pid) s₁.world).2
                machine := { s₁.machine with process := some { child with done := some status } } })
              (.step (.observe ?_ hexit)) (.of_settles rfl ?_ rfl rfl)
            · change s₁.machine.process = some child
              rw [hm₁, hchild]
            · exact settles_modify _ _ fun _ _ => rfl
          · change ({ s₁.machine with process := _ } : Machine) = _
            rw [hm₁]

theorem abandon_spec (child : Child) (s : Sys W) :
    ∃ s', abandon child s = (.ok (), s') ∧ s'.machine = s.machine ∧ s'.procs = s.procs ∧
      s'.fresh = s.fresh ∧ (s'.trace = s.trace ++ [.abandoned child.uid] ∨
        s'.trace = s.trace ∧ (Op.exitOf s'.procs child.uid).isSome) := by
  unfold abandon
  rw [modify_apply]
  by_cases h : (Op.exitOf s.procs child.uid).isSome
  · rw [if_pos h]
    exact ⟨s, rfl, rfl, rfl, rfl, .inr ⟨rfl, h⟩⟩
  · rw [if_neg h]
    exact ⟨_, rfl, rfl, rfl, rfl, .inl rfl⟩

/-- Waiting for a child ends with its exit, or puts it on record as abandoned. -/
theorem childWait_spec (child : Child) (s : Sys W) :
    ∃ o s', childWait env child s = (o, s') ∧ s'.machine = s.machine ∧
      Settles s.procs s'.procs ∧ s'.fresh = s.fresh ∧
      (s'.trace = s.trace ++ [.abandoned child.uid] ∨
        s'.trace = s.trace ∧ (child.done.isSome ∨
          (child.uid < s'.procs.length → (Op.exitOf s'.procs child.uid).isSome))) := by
  unfold childWait
  cases hdone : child.done with
  | some status => exact ⟨_, _, rfl, rfl, Settles.refl _, rfl, .inr ⟨rfl, .inl rfl⟩⟩
  | none =>
    dsimp only
    obtain ⟨s₁, h₁, hm₁, hp₁, hf₁, ht₁⟩ := settle_spec env s
    -- the two ways to give up end alike
    have hgiveUp : ∀ (o : Outcome Error ExitStatus) (w : W) (f : Unit → Op W ExitStatus),
        (∀ t, f () t = (o, t)) → ∃ s', (abandon child >>= f) { s₁ with world := w } = (o, s') ∧
          s'.machine = s.machine ∧ Settles s.procs s'.procs ∧ s'.fresh = s.fresh ∧
          (s'.trace = s.trace ++ [.abandoned child.uid] ∨
            s'.trace = s.trace ∧ (Op.exitOf s'.procs child.uid).isSome) := by
      intro o w f hf
      obtain ⟨t, ht, hm, hp, hfr, htr⟩ := abandon_spec child { s₁ with world := w }
      refine ⟨t, (bind_of_ok ht).trans (hf t), hm.trans hm₁, ?_, hfr.trans hf₁, ?_⟩
      · rw [hp]
        exact hp₁
      · rw [← ht₁]
        exact htr
    rw [bind_of_ok h₁, Op.ask_bind]
    cases (env.answer (.await .childWait) s₁.world).1 with
    | true =>
      obtain ⟨s', h, hm, hp, hf, ht⟩ := hgiveUp .dropped _ (fun _ => drop) fun _ => rfl
      exact ⟨_, s', h, hm, hp, hf, ht.imp_right fun h => ⟨h.1, .inr fun _ => h.2⟩⟩
    | false =>
      simp only [Bool.false_eq_true, if_false]
      rw [Op.ask_bind]
      dsimp only
      cases (env.answer (.childWait child.pid) (env.answer (.await .childWait) s₁.world).2).1 with
      | error error =>
        obtain ⟨s', h, hm, hp, hf, ht⟩ :=
          hgiveUp (.err (.io error)) _ (fun _ => fail _) fun _ => rfl
        exact ⟨_, s', h, hm, hp, hf, ht.imp_right fun h => ⟨h.1, .inr fun _ => h.2⟩⟩
      | ok status =>
        refine ⟨_, _, rfl, hm₁, ?_, hf₁, .inr ⟨ht₁, .inr fun hlt => ?_⟩⟩
        · have hend : Settles s₁.procs (s₁.procs.modify child.uid (Op.endProc status)) :=
            settles_modify _ _ fun _ h => endProc_exit h
          refine hp₁.trans (hend.trans ?_)
          exact settles_modify _ _ fun _ _ => rfl
        · change child.uid < ((s₁.procs.modify child.uid _).modify child.uid _).length at hlt
          rw [List.length_modify, List.length_modify] at hlt
          change (Op.exitOf ((s₁.procs.modify child.uid _).modify child.uid _) child.uid).isSome
          rw [exitOf_modify_self, List.getElem?_modify_eq, List.getElem?_eq_getElem hlt]
          exact isSome_endProc_exit status _

/-- **The child leaves the machine**, whichever way the wait ends. -/
theorem waitForProcessExit_spec (s : Sys W) :
    ∃ o s', waitForProcessExit env s = (o, s') ∧ Leads p s s' ∧
      s'.machine = { s.machine with process := none } := by
  unfold waitForProcessExit
  rw [Op.machine_bind]
  cases hchild : s.machine.process with
  | none => exact ⟨_, _, rfl, refl_of _ _, by rw [← hchild]⟩
  | some child =>
    dsimp only
    rw [Op.update_bind]
    set s₁ : Sys W := { s with machine := { s.machine with process := none } } with hs₁
    obtain ⟨o, s₂, h₂, hm₂, hp₂, hf₂, ht₂⟩ := childWait_spec env child s₁
    obtain ⟨o', hend⟩ : ∃ o', (childWait env child >>= fun status =>
        ofExcept (exitStatusResult status)) s₁ = (o', s₂) := by
      cases o with
      | ok status =>
        rw [bind_of_ok h₂]
        cases exitStatusResult status with
        | ok _ => exact ⟨_, rfl⟩
        | error _ => exact ⟨_, rfl⟩
      | err e => exact ⟨_, bind_of_err h₂⟩
      | dropped => exact ⟨_, bind_of_dropped h₂⟩
    refine ⟨_, _, hend, ?_, hm₂⟩
    -- in the ledger the child leaves when the wait ends
    have hsettled : Leads p s { s with procs := s₂.procs } := .of_settles rfl hp₂ rfl rfl
    refine hsettled.trans (.step ?_)
    rcases ht₂ with ht₂ | ⟨ht₂, hexit⟩
    · have hl : s₂.ledger =
          { Sys.ledger { s with procs := s₂.procs } with
            process := none
            trace := s.trace ++ [.abandoned child.uid] } := by
        unfold Sys.ledger
        rw [hm₂, hf₂, ht₂]
        rfl
      rw [hl]
      exact .abandon hchild
    · have hl : s₂.ledger = { Sys.ledger { s with procs := s₂.procs } with process := none } := by
        unfold Sys.ledger
        rw [hm₂, hf₂, ht₂]
        rfl
      rw [hl]
      exact .collect hchild hexit

/-! ### Ending a machine -/

theorem shutdownSignalForwarder_spec (s : Sys W) :
    ∃ s', shutdownSignalForwarder env s = (.ok (), s') ∧ Leads p s s' ∧
      s'.machine = { s.machine with signalForwarder := none } := by
  unfold shutdownSignalForwarder
  rw [Op.machine_bind]
  cases hforwarder : s.machine.signalForwarder with
  | none => exact ⟨_, rfl, refl_of _ _, by rw [← hforwarder]⟩
  | some forwarder => exact ⟨_, rfl, .step .unforward, rfl⟩

/-- Whether nothing is left to finalize, as `stop_vmm` and `wait` see it. -/
def Settled (s : Sys W) : Prop := s.machine.process = none ∧ s.machine.cleanupDone = true

theorem errOf_cleanupResult {execs : List Execution} {t : String} (ht : t ∈ failureTexts execs) :
    ∃ m, cleanupResult execs = .error (.process m) ∧ Text.Occurs t m := by
  have hne : failureTexts execs ≠ [] := List.ne_nil_of_mem ht
  refine ⟨_, if_neg hne, ?_⟩
  exact (Text.occurs_intercalate "; " ht).append_left _

/-- What `finalize_exit_result` makes of the way the process ended and of the
cleanup. -/
def finalResult (exitResult cleanup : Except Error Unit) : Except Error Unit :=
  match exitResult with
  | .error error => .error (error.join (errOf cleanup))
  | .ok () => cleanup

/-- No failure of the cleanup is missing from the final result. -/
theorem occurs_finalResult (exitResult : Except Error Unit) {execs : List Execution} {t : String}
    (ht : t ∈ failureTexts execs) :
    ∃ e, errOf (finalResult exitResult (cleanupResult execs)) = some e ∧
      Text.Occurs t e.copy.display := by
  obtain ⟨m, hm, hocc⟩ := errOf_cleanupResult ht
  rw [hm]
  cases exitResult with
  | ok _ => exact ⟨_, rfl, hocc.append_left _⟩
  | error error => exact ⟨_, rfl, ((hocc.append_left _).append_left _).append_left _⟩

/-- The stored error is written when there is one to remember and none is there. -/
theorem rememberTerminalError_spec (r : Except Error Unit) (s : Sys W) :
    ∃ s', rememberTerminalError r s = (.ok (), s') ∧ s'.ledger =
      { s.ledger with fatalErr := s.machine.fatalErr.or ((errOf r).map Error.copy) } := by
  refine ⟨_, rfl, ?_⟩
  rcases hf : s.machine.fatalErr with _ | e <;> cases r <;>
    simp [Sys.ledger, Machine.core, errOf, hf]

/-- **Finalizing, and remembering the result**: from a machine without a child, one step
to a machine that is settled. -/
theorem finalize_spec (site : DrainSite) (hsite : p.mayDrain site) (hne : site ≠ .abort)
    (exitResult : Except Error Unit) (s : Sys W) (hs : s.machine.process = none) :
    ∃ r s₁ s', (finalizeExitResult env site exitResult).attempt s = (.ok r, s₁) ∧
      rememberTerminalError r s₁ = (.ok (), s') ∧ Leads p s s' ∧ Settled s' := by
  obtain ⟨s₁, h₁, hl₁, hm₁⟩ := shutdownSignalForwarder_spec env (p := p) s
  set s₂ : Sys W := { s₁ with machine := { s₁.machine with exitEvent := true } } with hs₂
  obtain ⟨execs, s₃, h₃, hd₃, hm₃⟩ := doCleanup_spec env site s₂
  have hrun : (finalizeExitResult env site exitResult).attempt s =
      (.ok (finalResult exitResult (cleanupResult execs)), s₃) := by
    unfold finalizeExitResult
    rw [attempt_bind_of_ok h₁, attempt_bind_of_ok (show signalExit s₁ = (.ok (), s₂) from rfl),
      attempt_bind_of_ok h₃]
    cases exitResult with
    | error error => rfl
    | ok _ => cases cleanupResult execs <;> rfl
  -- the result goes to the caller, and the first error is stored
  obtain ⟨s₄, h₄, hl₄⟩ :=
    rememberTerminalError_spec (finalResult exitResult (cleanupResult execs)) s₃
  have hprocess : s₂.machine.process = none := by
    change s₁.machine.process = none
    rw [hm₁]
    exact hs
  have hforwarder : s₂.machine.signalForwarder = none := by
    change s₁.machine.signalForwarder = none
    rw [hm₁]
  refine ⟨_, _, s₄, hrun, h₄, (hl₁.trans (.of_eq rfl : Leads p s₁ s₂)).trans (.step ?_), ?_⟩
  · rw [hl₄]
    exact .finalize hsite hne hprocess hforwarder hd₃ fun t ht => occurs_finalResult exitResult ht
  · constructor
    · change s₄.ledger.process = none
      rw [hl₄]
      change s₃.machine.process = none
      rw [hm₃]
      exact hprocess
    · change s₄.ledger.cleanupDone = true
      rw [hl₄]
      change s₃.machine.cleanupDone = true
      rw [hm₃]

/-- **`stop_vmm` and `wait`, once they finalize**: they end settled, or are dropped. -/
theorem finalizeIfNeeded_spec (site : DrainSite) (hsite : p.mayDrain site) (hne : site ≠ .abort)
    (s : Sys W) :
    ∃ o s', finalizeIfNeeded env site s = (o, s') ∧ Leads p s s' ∧
      (o = .ok () ∧ Settled s' ∨ o = .dropped) := by
  unfold finalizeIfNeeded
  rw [Op.machine_bind]
  split
  · obtain ⟨o, s₁, h₁, hl₁, hm₁⟩ := waitForProcessExit_spec env (p := p) s
    have hprocess : s₁.machine.process = none := by rw [hm₁]
    -- whatever the wait returned, the rest is the same
    have hrest : ∀ r, (waitForProcessExit env).attempt s = (.ok r, s₁) →
        ∃ s', ((finalizeProcessExit env site).attempt >>= rememberTerminalError) s =
          (.ok (), s') ∧ Leads p s s' ∧ Settled s' := by
      intro r hr
      obtain ⟨r', s₂, s', h₂, h₃, hl, hset⟩ := finalize_spec env site hsite hne r s₁ hprocess
      refine ⟨s', (bind_of_ok ?_).trans h₃, hl₁.trans hl, hset⟩
      exact (attempt_bind_of_ok hr).trans h₂
    cases o with
    | ok a =>
      obtain ⟨s', h, hl, hset⟩ := hrest _ (attempt_of_ok h₁)
      exact ⟨_, s', h, hl, .inl ⟨rfl, hset⟩⟩
    | err e =>
      obtain ⟨s', h, hl, hset⟩ := hrest _ (attempt_of_err h₁)
      exact ⟨_, s', h, hl, .inl ⟨rfl, hset⟩⟩
    | dropped =>
      refine ⟨.dropped, s₁, bind_of_dropped (attempt_of_dropped ?_), hl₁, .inr rfl⟩
      exact bind_of_dropped (attempt_of_dropped h₁)
  · rename_i hcond
    simp only [Bool.or_eq_true, Bool.not_eq_true', not_or, Bool.not_eq_false] at hcond
    exact ⟨_, _, rfl, refl_of _ _, .inl ⟨rfl, by simpa using hcond.1, hcond.2⟩⟩

theorem sendSigtermToVmm_spec (s : Sys W) :
    ∃ o s', sendSigtermToVmm env s = (o, s') ∧ Leads p s s' ∧ o ≠ .dropped := by
  unfold sendSigtermToVmm
  rw [Op.machine_bind]
  cases s.machine.process with
  | none => exact ⟨_, _, rfl, refl_of _ _, by simp⟩
  | some child =>
    dsimp only
    obtain ⟨o, s₁, h₁, hl₁, ho⟩ := tryWait_spec env (p := p) s
    rcases ho with ⟨e, rfl, -⟩ | ⟨rfl, -⟩ | ⟨child', status, rfl, -, -⟩
    · exact ⟨_, _, bind_of_err h₁, hl₁, by simp⟩
    · rw [bind_of_ok h₁]
      cases child.id with
      | none => exact ⟨_, _, rfl, hl₁, by simp⟩
      | some pid =>
        dsimp only
        rw [Op.ask_bind]
        have hl₂ := hl₁.trans (calm_ask env (.kill pid sigtermSignal) s₁).leads
        cases (env.answer (.kill pid sigtermSignal) s₁.world).1 with
        | none => exact ⟨_, _, rfl, hl₂, by simp⟩
        | some error =>
          dsimp only
          split
          · exact ⟨_, _, rfl, hl₂, by simp⟩
          · exact ⟨_, _, rfl, hl₂, by simp⟩
    · rw [bind_of_ok h₁]
      exact ⟨_, _, rfl, hl₁, by simp⟩

theorem stopVmmAt_spec (site : DrainSite) (hsite : p.mayDrain site) (hne : site ≠ .abort)
    (s : Sys W) :
    ∃ o s', stopVmmAt env site s = (o, s') ∧ Leads p s s' ∧ (o = .ok () → Settled s') := by
  obtain ⟨o, s₁, h₁, hl₁, ho⟩ := sendSigtermToVmm_spec env (p := p) s
  unfold stopVmmAt
  cases o with
  | ok a =>
    obtain ⟨o', s₂, h₂, hl₂, ho'⟩ := finalizeIfNeeded_spec env site hsite hne s₁
    refine ⟨o', s₂, (bind_of_ok h₁).trans h₂, hl₁.trans hl₂, ?_⟩
    rintro rfl
    rcases ho' with ⟨-, h⟩ | h
    · exact h
    · cases h
  | err e => exact ⟨_, s₁, bind_of_err h₁, hl₁, by simp⟩
  | dropped => exact absurd rfl ho

/-- What `wait` reports in a settled state. -/
def reported (fatalErr : Option Error) : Outcome Error Unit :=
  match fatalErr with
  | some error => .err error.copy
  | none => .ok ()

theorem wait_spec (hsite : p.mayDrain .finalize) (s : Sys W) :
    ∃ o s', wait env s = (o, s') ∧ Leads p s s' ∧
      (Settled s' ∧ o = reported s'.machine.fatalErr ∨ o = .dropped) := by
  obtain ⟨o, s₁, h₁, hl₁, ho⟩ := finalizeIfNeeded_spec env .finalize hsite (by decide) s
  unfold wait
  rcases ho with ⟨rfl, hset⟩ | rfl
  · refine ⟨reported s₁.machine.fatalErr, s₁, ?_, hl₁, .inl ⟨hset, rfl⟩⟩
    rw [bind_of_ok h₁, Op.machine_bind]
    cases s₁.machine.fatalErr with
    | none => rfl
    | some e => rfl
  · exact ⟨_, s₁, bind_of_dropped h₁, hl₁, .inr rfl⟩

theorem pid_spec (hsite : p.mayDrain .finalize) (s : Sys W) :
    ∃ o s', pid env s = (o, s') ∧ Leads p s s' ∧ o ≠ .dropped ∧
      (o = .err (.process "machine process has exited") → Settled s') := by
  unfold pid
  rw [Op.machine_bind]
  cases s.machine.process.bind Child.id with
  | none => exact ⟨_, _, rfl, refl_of _ _, by simp, by simp⟩
  | some pid =>
    dsimp only
    obtain ⟨o, s₁, h₁, hl₁, ho⟩ := tryWait_spec env (p := p) s
    rcases ho with ⟨e, rfl, hm⟩ | ⟨rfl, hm⟩ | ⟨child, status, rfl, hchild, hm⟩
    · exact ⟨_, _, bind_of_err h₁, hl₁, by simp, by simp⟩
    · rw [bind_of_ok h₁]
      exact ⟨_, _, rfl, hl₁, by simp, by simp⟩
    · rw [bind_of_ok h₁]
      dsimp only
      -- it has exited: the call takes the child out and finalizes, then reports an error
      rw [Op.update_bind]
      set s₂ : Sys W := { s₁ with machine := { s₁.machine with process := none } } with hs₂
      have hchild : s₁.ledger.process = some { child with done := some status } := by
        change s₁.machine.process = _
        rw [hm]
      have hl₂ : Leads p s₁ s₂ := .step (.collect hchild (.inl rfl))
      obtain ⟨r, s₃, s₄, h₃, h₄, hl₃, hset⟩ :=
        finalize_spec env .finalize hsite (by decide) (exitStatusResult status) s₂ rfl
      refine ⟨.err (.process "machine process has exited"), s₄, ?_, (hl₁.trans hl₂).trans hl₃, ?_,
        fun _ => hset⟩
      · rw [bind_of_ok h₃, bind_of_ok h₄]
        rfl
      · simp

/-! ### Giving up a start -/

/-- What `abort_start` reports shows every failure of its own drain. -/
theorem occurs_abortError (cause : Error) (stopError waitError : Option Error)
    {execs : List Execution} {t : String} (ht : t ∈ failureTexts execs) :
    Text.Occurs t
      (abortError cause stopError waitError (errOf (cleanupResult execs))).copy.display := by
  obtain ⟨m, hm, hocc⟩ := errOf_cleanupResult ht
  have hne : (stopError.isNone && waitError.isNone &&
      (errOf (cleanupResult execs)).isNone) = false := by
    rw [hm]
    simp [errOf]
  have hlabel : Text.Occurs t ("cleanup error: " ++ (Error.process m).display) :=
    (hocc.append_left _).append_left _
  rw [abortError, hne, if_neg Bool.false_ne_true]
  refine (hlabel.trans (Text.occurs_intercalate "; " ?_)).append_left _
  rw [hm]
  simp [labelled, errOf]

/-- What `abort_start` reports shows the cause. -/
theorem occurs_abortError_cause (cause : Error) (stopError waitError cleanupError : Option Error)
    (t : String) (h : Text.Occurs t cause.display) (h' : Text.Occurs t cause.copy.display) :
    Text.Occurs t (abortError cause stopError waitError cleanupError).copy.display := by
  unfold abortError
  split
  · exact h'
  · exact (h.trans (Text.occurs_intercalate "; " List.mem_cons_self)).append_left _

/-- What a drain inside `abort_start` may do before the drain of its own. -/
def stopping : Policy := ⟨fun _ => False, fun site => site = .abortStop, False, fun _ => False⟩

/-- Stopping the process that a failed start has left. -/
theorem abortStop_spec (s : Sys W) :
    ∃ o s', abortStop env s = (o, s') ∧ Leads stopping s s' ∧
      ((∃ stopError, o = .ok stopError) ∨ o = .dropped) := by
  unfold abortStop
  rw [Op.machine_bind]
  split
  · obtain ⟨o, s', h, hl, -⟩ := stopVmmAt_spec env (p := stopping) .abortStop rfl (by decide) s
    cases o with
    | ok a => exact ⟨_, s', map_of_ok (attempt_of_ok h), hl, .inl ⟨_, rfl⟩⟩
    | err e => exact ⟨_, s', map_of_ok (attempt_of_err h), hl, .inl ⟨_, rfl⟩⟩
    | dropped => exact ⟨_, s', map_of_dropped (attempt_of_dropped h), hl, .inr rfl⟩
  · exact ⟨_, s, rfl, refl_of _ _, .inl ⟨none, rfl⟩⟩

/-- **`abort_start`**: it is dropped, or it ends settled with the error it returns
stored. -/
theorem abortStart_spec (hstop : p.mayDrain .abortStop) (habort : p.mayDrain .abort)
    (cause : Error) (s : Sys W) :
    ∃ o s', abortStart env cause s = (o, s') ∧ Leads p s s' ∧
      (o = .dropped ∨ ∃ f, o = .ok f.copy ∧ s'.machine.fatalErr = some f ∧ Settled s') := by
  have hlax : ∀ {t u : Sys W}, Leads stopping t u → Leads p t u := fun h =>
    Walk.mono (p := stopping) ⟨fun _ h => h.elim, fun _ h => h ▸ hstop, fun h => h.elim,
      fun _ h => h.elim⟩ h
  set s₁ : Sys W :=
    { s with
      trace := s.trace ++ [.aborting s.machine.fatalErr cause]
      machine := { s.machine with exitEvent := true } } with hs₁
  have hl₁ : Leads p s s₁ := .step .aborting
  obtain ⟨o₂, s₂, h₂, hl₂, ho₂⟩ := abortStop_spec env s₁
  unfold abortStart
  rw [Op.machine_bind, Op.emit_bind, bind_of_ok (show signalExit _ = (.ok (), s₁) from rfl)]
  rcases ho₂ with ⟨stopError, rfl⟩ | rfl
  · rw [bind_of_ok h₂]
    obtain ⟨s₃, h₃, hl₃, hm₃⟩ := shutdownSignalForwarder_spec env (p := stopping) s₂
    obtain ⟨o₄, s₄, h₄, hl₄, hm₄⟩ := waitForProcessExit_spec env (p := stopping) s₃
    rw [bind_of_ok h₃]
    have hprocess : s₄.machine.process = none := by rw [hm₄]
    have hforwarder : s₄.machine.signalForwarder = none := by rw [hm₄, hm₃]
    have hl : Leads stopping s₁ s₄ := (hl₂.trans hl₃).trans hl₄
    obtain ⟨after, htrace, hafter, -⟩ := Walk.trace hl
    obtain ⟨execs, s₅, h₅, hd₅, hm₅⟩ := doCleanup_spec env .abort s₄
    -- whatever the wait returned, the rest is the same
    have hrest : ∀ waitError : Option Error, ∃ o s',
        (errOf <$> (doCleanup env .abort).attempt >>= fun cleanupError => do
          Op.update fun m =>
            { m with fatalErr := some (abortError cause stopError waitError cleanupError) }
          pure (abortError cause stopError waitError cleanupError).copy) s₄ = (o, s') ∧
        Leads p s s' ∧
        (o = .dropped ∨ ∃ f, o = .ok f.copy ∧ s'.machine.fatalErr = some f ∧ Settled s') := by
      intro waitError
      rw [bind_of_ok (map_of_ok h₅)]
      refine ⟨_, _, rfl, (hl₁.trans (hlax hl)).trans (.step ?_), .inr ⟨_, rfl, rfl, ?_⟩⟩
      · exact .abort (e := abortError cause stopError waitError (errOf (cleanupResult execs)))
          habort hprocess hforwarder (htrace.trans (List.append_assoc _ _ _)) hafter hd₅
          (occurs_abortError_cause cause _ _ _)
          (fun t ht => occurs_abortError cause stopError waitError ht)
      · constructor
        · change s₅.machine.process = none
          rw [hm₅]
          exact hprocess
        · change s₅.machine.cleanupDone = true
          rw [hm₅]
    cases o₄ with
    | ok a =>
      obtain ⟨o, s', h, hlead, hres⟩ := hrest (errOf (.ok a))
      exact ⟨o, s', (bind_of_ok (map_of_ok (attempt_of_ok h₄))).trans h, hlead, hres⟩
    | err e =>
      obtain ⟨o, s', h, hlead, hres⟩ := hrest (some e)
      exact ⟨o, s', (bind_of_ok (map_of_ok (attempt_of_err h₄))).trans h, hlead, hres⟩
    | dropped =>
      refine ⟨.dropped, s₄, ?_, hl₁.trans (hlax hl), .inl rfl⟩
      exact bind_of_dropped (map_of_dropped (attempt_of_dropped h₄))
  · exact ⟨.dropped, s₂, bind_of_dropped h₂, hl₁.trans (hlax hl₂), .inl rfl⟩

end Machine

end FirecrackerSdk
