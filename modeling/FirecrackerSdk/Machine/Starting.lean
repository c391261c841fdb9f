import FirecrackerSdk.Machine.Walk
import Mathlib.Data.List.Nodup

/-!
# A start walks along the steps of the ledger

The other half of the connection: the operations that register cleanup functions,
spawn the VMM and run handlers. A start spawns at most where the policy lets it; which
ledgers those are is left to the theorems that need it, so the statements here ask
that the policy allow a launch from every calm successor of the state.
-/

namespace FirecrackerSdk

open Prog

variable {W : Type} {p : Policy}

/-- Everything may happen. -/
def anything : Policy := {}

/-- A launch may happen where `P` holds, and everything else may happen. -/
def launchOnly (P : Ledger → Prop) : Policy := { mayLaunch := P }

/-- The clock stands still. -/
def SameClock (s s' : Sys W) : Prop := s'.clock = s.clock

instance : Std.Refl (SameClock (W := W)) where
  refl _ := rfl

instance : IsTrans (Sys W) SameClock where
  trans _ _ _ h h' := h'.trans h

namespace Machine

variable (env : Env W)

/-! ### Registering cleanup functions -/

/-- Cleanup functions that were boxed between two values of the counter. -/
def FreshIds (lo hi : ℕ) (cleanups : List CleanupFn) : Prop :=
  (cleanups.map (·.id)).Nodup ∧ ∀ c ∈ cleanups, lo ≤ c.id ∧ c.id < hi

theorem FreshIds.append {a b c : ℕ} {xs ys : List CleanupFn} (hx : FreshIds a b xs)
    (hy : FreshIds b c ys) (hab : a ≤ b) (hbc : b ≤ c) : FreshIds a c (xs ++ ys) := by
  refine ⟨?_, fun z hz => ?_⟩
  · rw [List.map_append]
    refine List.nodup_append'.mpr ⟨hx.1, hy.1, fun i hi hi' => ?_⟩
    obtain ⟨x, hmem, rfl⟩ := List.mem_map.mp hi
    obtain ⟨y, hmem', hid⟩ := List.mem_map.mp hi'
    have := (hx.2 x hmem).2
    have := (hy.2 y hmem').1
    omega
  · rcases List.mem_append.mp hz with h | h
    · have := hx.2 z h
      omega
    · have := hy.2 z h
      omega

theorem FreshIds.mono {a b a' b' : ℕ} {xs : List CleanupFn} (h : FreshIds a b xs) (ha : a' ≤ a)
    (hb : b ≤ b') : FreshIds a' b' xs := by
  refine ⟨h.1, fun x hx => ?_⟩
  have := h.2 x hx
  omega

/-- Boxing what was handed out: one acquisition for each closure, all of them new. -/
theorem acquire_spec (tags : List String) (s : Sys W) :
    ∃ cleanups s', acquire tags s = (.ok cleanups, s') ∧ FreshIds s.fresh s'.fresh cleanups ∧
      s'.world = s.world ∧ s'.trace = s.trace ++ cleanups.map .acquired ∧
      cleanups.length = tags.length := by
  induction tags generalizing s with
  | nil => exact ⟨[], s, rfl, by simp [FreshIds], rfl, by simp, rfl⟩
  | cons tag tags ih =>
    set s₁ : Sys W :=
      { s with
        fresh := s.fresh + 1
        trace := s.trace ++ [.acquired ⟨s.fresh, .external tag⟩] } with hs₁
    obtain ⟨cleanups, s₂, h, hfresh, hw, ht, hlen⟩ := ih s₁
    have hle : s₁.fresh ≤ s₂.fresh := by
      have := (calm_acquire (A := fun _ => True) tags s₁).fresh
      rwa [h] at this
    refine ⟨⟨s.fresh, .external tag⟩ :: cleanups, s₂, ?_, ?_, hw, ?_, ?_⟩
    · rw [acquire, bind_of_ok (show Op.box (.external tag) s = (.ok _, _) from rfl),
        Op.emit_bind, bind_of_ok h]
      rfl
    · have hone : FreshIds s.fresh s₁.fresh [⟨s.fresh, .external tag⟩] := by
        simp [FreshIds, hs₁]
      exact hone.append hfresh (Nat.le_succ _) hle
    · rw [ht, hs₁, List.append_assoc]
      rfl
    · rw [List.length_cons, List.length_cons, hlen]

/-- Closures that a network operation returned are new. -/
theorem setupCni_fresh {vmId netNsPath : String} {s s' : Sys W} {cleanups : List CleanupFn}
    (h : setupCni env vmId netNsPath s = (.ok cleanups, s')) :
    FreshIds s.fresh s'.fresh cleanups := by
  unfold setupCni at h
  rw [Op.cfg_bind] at h
  cases hiface : s.machine.cfg.networkInterfaces.cniInterface with
  | none =>
    rw [hiface] at h
    cases h
    simp [FreshIds]
  | some iface =>
    rw [hiface] at h
    dsimp only at h
    cases hcni : iface.cniConfiguration with
    | none =>
      rw [hcni] at h
      cases h
    | some cni =>
      rw [hcni] at h
      dsimp only at h
      obtain ⟨_, s₁, h₁, h⟩ := bind_eq_ok.mp h
      unfold invokeCniFor at h
      obtain ⟨r, s₂, h₂, h⟩ := bind_eq_ok.mp h
      obtain ⟨tags, s₃, h₃, h⟩ := bind_eq_ok.mp h
      obtain ⟨xs, s₄, h₄, h⟩ := bind_eq_ok.mp h
      obtain ⟨r', s₅, h₅, h⟩ := bind_eq_ok.mp h
      obtain ⟨added, s₆, h₆, h⟩ := bind_eq_ok.mp h
      obtain ⟨ys, s₇, h₇, h⟩ := bind_eq_ok.mp h
      obtain ⟨getLink, s₈, h₈, h⟩ := bind_eq_ok.mp h
      obtain ⟨iface', s₉, h₉, h⟩ := bind_eq_ok.mp h
      obtain ⟨_, s₁₀, h₁₀, h⟩ := bind_eq_ok.mp h
      cases h
      -- only the two acquisitions make new ids; what stands between them moves the counter on
      have hstep : ∀ {α : Type} {x : Op W α} {t t' : Sys W} {a : α},
          Within (Calm fun _ => True) x → x t = (.ok a, t') → t.fresh ≤ t'.fresh := by
        intro α x t t' a hx hxt
        have := (hx t).fresh
        rwa [hxt] at this
      have hprepared := hstep ((passive_calm env).updateInterfaces (by intro; rfl)) h₁
      have hlo : s.fresh ≤ s₃.fresh :=
        (hprepared.trans (hstep (calm_ask env _) h₂)).trans (hstep (within_ofExcept _) h₃)
      have hmid : s₄.fresh ≤ s₆.fresh :=
        (hstep (calm_ask env _) h₅).trans (hstep (within_ofExcept _) h₆)
      have hhi : s₇.fresh ≤ s'.fresh :=
        ((hstep (calm_ask env _) h₈).trans (hstep (within_ofExcept _) h₉)).trans
          (hstep ((passive_calm env).updateInterfaces (by intro; rfl)) h₁₀)
      obtain ⟨xs', t, hx, hxs, -⟩ := acquire_spec (W := W) tags s₃
      obtain ⟨ys', u, hy, hys, -⟩ := acquire_spec (W := W) added.2 s₆
      rw [h₄] at hx
      rw [h₇] at hy
      cases hx
      cases hy
      have hle₄ := hstep (calm_acquire tags) h₄
      have hle₇ := hstep (calm_acquire added.2) h₇
      exact ((hxs.mono hlo hmid).append hys (by omega) hle₇).mono le_rfl hhi

/-- Registering cleanup functions that were boxed since `s`. -/
theorem leads_push {s s' : Sys W} {cleanups : List CleanupFn} (h : Calm p.mayCall s s')
    (hfresh : FreshIds s.fresh s'.fresh cleanups) :
    Leads p s (pushCleanupFuncs cleanups s').2 := by
  obtain ⟨hc, hp, hf, events, ht, he⟩ := h
  refine .step ?_
  have hl : (pushCleanupFuncs cleanups s').2.ledger =
      { s.ledger with
        fresh := s'.fresh
        cleanupDone := false
        cleanupFuncs := s.ledger.cleanupFuncs ++ cleanups
        trace := s.ledger.trace ++ events ++ cleanups.map .pushed } := by
    have hcore := hc
    unfold Machine.core at hcore
    simp only [Core.mk.injEq] at hcore
    obtain ⟨h₀, hdevices, h₁, h₂, h₃, -, h₅, h₆⟩ := hcore
    simp only [pushCleanupFuncs, modify_apply, Sys.ledger, Machine.core, h₀, hdevices, h₁,
      h₂, h₃, h₅, h₆, hp, ht]
  rw [hl]
  exact .push hf he hfresh.1 hfresh.2

theorem setupNetwork_leads : Within (Leads p) (setupNetwork env) := by
  intro s
  unfold setupNetwork
  rw [Op.cfg_bind]
  split
  · exact refl_of _ _
  · rw [Op.update_bind]
    set s₁ : Sys W := { s with machine := { s.machine with
      cfg := { s.machine.cfg with
        netNs := some (s.machine.cfg.netNs.getD (defaultNetNsPath s.machine.cfg)) } } } with hs₁
    have hl₁ : Leads p s s₁ := .of_eq rfl
    have hcalm := (passive_calm (A := p.mayCall) env).setupCni s.machine.cfg.vmid
      (s.machine.cfg.netNs.getD (defaultNetNsPath s.machine.cfg)) s₁
    refine bind_final (hl₁.trans hcalm.leads) fun cleanups hok => hl₁.trans ?_
    exact leads_push hcalm (setupCni_fresh env (Prod.ext hok rfl))

theorem pushCleanupFunc_leads (action : CleanupAction) :
    Within (Leads p) (pushCleanupFunc action : Op W Unit) := by
  intro s
  exact leads_push (calm_box action s) (by simp [FreshIds])

theorem createLogFiles_leads : Within (Leads p) (createLogFiles env) :=
  (passive_leads env).createLogFiles pushCleanupFunc_leads

/-! ### Spawning the VMM -/

theorem installSignalForwarder_leads : Within (Leads p) (installSignalForwarder env) := by
  intro s
  unfold installSignalForwarder
  rw [Op.machine_bind]
  cases s.machine.cfg.forwardSignals with
  | none => exact refl_of _ _
  | some signals =>
    dsimp only
    split
    · exact refl_of _ _
    · cases hchild : s.machine.process with
      | none => exact refl_of _ _
      | some child =>
        dsimp only
        cases child.id with
        | none => exact refl_of _ _
        | some pid =>
          dsimp only
          rw [Op.ask_bind]
          have hask := (calm_ask env (.register signals pid) s).leads (p := p)
          cases (env.answer (.register signals pid) s.world).1 with
          | error e => exact hask
          | ok registrationId => exact hask.trans (.step (.forward hchild))

theorem pollVmm_leads (hget : p.mayCall .getMachineConfiguration) (deadline : ℕ) :
    Within (Leads p) (pollVmm env deadline) := by
  intro s
  obtain ⟨o, s₁, h₁, hl₁, ho⟩ := tryWait_spec env (p := p) s
  rcases ho with ⟨e, rfl, -⟩ | ⟨rfl, -⟩ | ⟨child, status, rfl, -, hm⟩
  · rw [pollVmm, bind_of_err h₁]
    exact hl₁
  · rw [pollVmm_of_running h₁]
    exact hl₁.trans ((passive_leads env).pollSocket hget deadline s₁)
  · rw [pollVmm, bind_of_ok h₁]
    have hchild : s₁.ledger.process = some { child with done := some status } := by
      change s₁.machine.process = _
      rw [hm]
    exact hl₁.trans (.step (.collect hchild (.inl rfl)))

theorem sameClock_ask {α : Type} (q : Query α) : Within SameClock (Op.ask env q) := fun _ => rfl

theorem sameClock_await (point : AwaitPoint) : Within SameClock (Op.await env point) :=
  within_bind (sameClock_ask env _) fun _ => within_ite within_drop (within_pure _)

theorem sameClock_getMachineConfiguration :
    Within SameClock (Op.getMachineConfiguration env) := by
  refine within_bind (sameClock_await env _) fun _ => within_bind (sameClock_ask env _) fun r => ?_
  cases r with
  | ok config => exact within_bind (fun _ => rfl) fun _ => within_pure _
  | error e => exact within_bind (fun _ => rfl) fun _ => within_fail _

theorem sameClock_tryWait : Within SameClock (tryWait env) := by
  refine within_bind (within_gets _) fun m => ?_
  cases m.process with
  | none => exact within_pure _
  | some child =>
    dsimp only
    cases child.done with
    | some status => exact within_pure _
    | none =>
      refine within_bind (fun _ => rfl) fun _ => within_bind (sameClock_ask env _) fun r => ?_
      cases r with
      | some error => exact within_fail _
      | none =>
        refine within_bind (within_gets _) fun procs => ?_
        cases Op.exitOf procs child.uid with
        | none => exact within_pure _
        | some status =>
          refine within_bind (fun _ => rfl) fun _ => ?_
          exact within_bind (fun _ => rfl) fun _ => within_pure _

theorem now_clock {s s' : Sys W} {t : ℕ} (h : Op.now env s = (.ok t, s')) :
    s'.clock = t ∧ s.clock ≤ t := by
  obtain ⟨elapsed, s₁, h₁, h⟩ := bind_eq_ok.mp h
  cases h₁
  cases h
  exact ⟨rfl, Nat.le_add_right _ _⟩

theorem sleep_clock {milliseconds : ℕ} {s s' : Sys W}
    (h : Op.sleep env milliseconds s = (.ok (), s')) : s.clock + milliseconds ≤ s'.clock := by
  obtain ⟨_, s₁, h₁, h⟩ := bind_eq_ok.mp h
  have hsame : s₁.clock = s.clock := by
    have := sameClock_await env .sleep s
    rwa [h₁] at this
  obtain ⟨elapsed, s₂, h₂, h⟩ := bind_eq_ok.mp h
  cases h₂
  cases h
  change s.clock + milliseconds ≤ s₁.clock + milliseconds + _
  omega

/-- A round that goes on to the next one has looked at the clock in time, and has slept. -/
theorem pollReachable_clock {timedOut : Error} {late : ℕ → Prop} [DecidablePred late]
    {s s' : Sys W} (h : pollReachable env timedOut late s = (.ok false, s')) :
    ∃ t, s.clock ≤ t ∧ ¬late t ∧ t + 10 ≤ s'.clock := by
  have hstep : ∀ {α : Type} {x : Op W α} {t t' : Sys W} {a : α}, Within SameClock x →
      x t = (.ok a, t') → t'.clock = t.clock := by
    intro α x t t' a hx hxt
    have := hx t
    rwa [hxt] at this
  obtain ⟨_, s₁, h₁, h⟩ := bind_eq_ok.mp h
  have hclock₁ := hstep (sameClock_await env _) h₁
  rw [Op.cfg_bind] at h
  obtain ⟨socket, s₂, h₂, h⟩ := bind_eq_ok.mp h
  have hclock₂ := hstep (sameClock_ask env _) h₂
  -- whatever the socket answers, the round ends in the same way
  have hlate : ∀ (reachable : Bool) (s₃ : Sys W), s₃.clock = s₂.clock → (do
      if reachable then pure true
      else do
        if late (← Op.now env) then Prog.fail timedOut
        else do
          Op.sleep env 10
          pure false : Op W Bool) s₃ = (.ok false, s') →
      ∃ t, s.clock ≤ t ∧ ¬late t ∧ t + 10 ≤ s'.clock := by
    intro reachable s₃ hclock₃ h
    cases reachable with
    | true => cases h
    | false =>
      obtain ⟨t, s₄, h₄, h⟩ := bind_eq_ok.mp h
      obtain ⟨hnow, hle⟩ := now_clock env h₄
      by_cases hlate : late t
      · rw [if_pos hlate] at h
        cases h
      · rw [if_neg hlate] at h
        obtain ⟨_, s₅, h₅, h⟩ := bind_eq_ok.mp h
        have hslept := sleep_clock env h₅
        cases h
        exact ⟨t, by omega, hlate, by omega⟩
  cases socket with
  | error e => exact hlate false s₂ rfl h
  | ok _ =>
    obtain ⟨r, s₃, h₃, h⟩ := bind_eq_ok.mp h
    have hclock₃ := hstep (within_attempt (sameClock_getMachineConfiguration env)) h₃
    cases r with
    | ok _ => exact hlate true s₃ hclock₃ h
    | error _ => exact hlate false s₃ hclock₃ h

/-- A round that goes on to the next one has found the deadline ahead, and has slept. -/
theorem pollVmm_clock {deadline : ℕ} {s s' : Sys W} (h : pollVmm env deadline s = (.ok false, s')) :
    s.clock < deadline ∧ s.clock + 10 ≤ s'.clock := by
  obtain ⟨exited, s₁, h₁, h'⟩ := bind_eq_ok.mp h
  have hclock := sameClock_tryWait env s
  rw [h₁] at hclock
  have hclock : s₁.clock = s.clock := hclock
  cases exited with
  | some status => cases h'
  | none =>
    rw [pollVmm_of_running h₁, pollSocket_eq] at h
    obtain ⟨t, hle, hearly, hslept⟩ := pollReachable_clock env h
    omega

/-- **The rounds never run out**: once there are enough of them for the deadline to pass, one
more makes no difference. -/
theorem waitForVmmReadyFrom_succ {deadline rounds : ℕ} {s : Sys W}
    (h : deadline ≤ s.clock + 10 * rounds) :
    waitForVmmReadyFrom env deadline (rounds + 2) s =
      waitForVmmReadyFrom env deadline (rounds + 1) s := by
  induction rounds generalizing s with
  | zero =>
    refine bind_congr_of_ok fun reachable s₁ hpoll => ?_
    cases reachable with
    | true => rfl
    | false =>
      have := pollVmm_clock env hpoll
      omega
  | succ rounds ih =>
    refine bind_congr_of_ok fun reachable s₁ hpoll => ?_
    cases reachable with
    | true => rfl
    | false =>
      have := pollVmm_clock env hpoll
      exact ih (by omega)

theorem waitForVmmReadyFrom_leads (hget : p.mayCall .getMachineConfiguration)
    (deadline rounds : ℕ) :
    Within (Leads p) (waitForVmmReadyFrom env deadline rounds) := by
  induction rounds with
  | zero => exact within_fail _
  | succ rounds ih =>
    exact within_bind (pollVmm_leads env hget deadline) fun _ => within_ite (within_pure _) ih

theorem waitForVmmReady_leads (hget : p.mayCall .getMachineConfiguration) (timeoutSecs : ℕ) :
    Within (Leads p) (waitForVmmReady env timeoutSecs) := by
  refine within_bind ((passive_leads env).now) fun _ => ?_
  exact within_ite (waitForVmmReadyFrom_leads env hget _ _) within_drop

theorem orAbort_of_ok {x : Op W Unit} {s s' : Sys W} (h : x s = (.ok (), s')) :
    orAbort env x s = (.ok (), s') := by
  unfold orAbort
  rw [bind_of_ok (attempt_of_ok h)]
  rfl

theorem orAbort_of_err {x : Op W Unit} {s s' : Sys W} {e : Error} (h : x s = (.err e, s')) :
    orAbort env x s = (abortStart env e >>= Prog.fail) s' := by
  unfold orAbort
  rw [bind_of_ok (attempt_of_err h)]

theorem orAbort_of_dropped {x : Op W Unit} {s s' : Sys W} (h : x s = (.dropped, s')) :
    orAbort env x s = (.dropped, s') :=
  bind_of_dropped (attempt_of_dropped h)

/-- **A step that gives the start up when it fails**: it returns what the step
returned, or ends settled with the error it returns stored. -/
theorem orAbort_spec (hstop : p.mayDrain .abortStop) (habort : p.mayDrain .abort) (x : Op W Unit)
    (s : Sys W) (hx : Leads p s (x s).2) :
    ∃ o s', orAbort env x s = (o, s') ∧ Leads p s s' ∧
      (o = .dropped ∨ o = .ok () ∧ x s = (.ok (), s') ∨
        ∃ f, o = .err f.copy ∧ s'.machine.fatalErr = some f ∧ Settled s') := by
  rcases h : x s with ⟨a | e | _, s₁⟩ <;> rw [h] at hx
  · exact ⟨.ok (), s₁, orAbort_of_ok env h, hx, .inr (.inl ⟨rfl, rfl⟩)⟩
  · rw [orAbort_of_err env h]
    obtain ⟨o, s₂, h₂, hl₂, ho⟩ := abortStart_spec env hstop habort e s₁
    rcases ho with rfl | ⟨f, rfl, hf, hset⟩
    · exact ⟨_, s₂, bind_of_dropped h₂, hx.trans hl₂, .inl rfl⟩
    · exact ⟨_, s₂, bind_of_ok h₂, hx.trans hl₂, .inr (.inr ⟨f, rfl, hf, hset⟩)⟩
  · exact ⟨_, s₁, orAbort_of_dropped env h, hx, .inl rfl⟩

/-- Giving up comes after the step. -/
theorem orAbort_after (hstop : p.mayDrain .abortStop) (habort : p.mayDrain .abort) (x : Op W Unit)
    (s : Sys W) : Leads p (x s).2 (orAbort env x s).2 := by
  rcases h : x s with ⟨a | e | _, s₁⟩
  · rw [orAbort_of_ok env h]
    exact refl_of _ _
  · rw [orAbort_of_err env h]
    obtain ⟨o, s₂, h₂, hl₂, ho⟩ := abortStart_spec env hstop habort e s₁
    rcases ho with rfl | ⟨f, rfl, -, -⟩
    · rw [bind_of_dropped h₂]
      exact hl₂
    · rw [bind_of_ok h₂]
      exact hl₂
  · rw [orAbort_of_dropped env h]
    exact refl_of _ _

theorem orAbort_leads (hstop : p.mayDrain .abortStop) (habort : p.mayDrain .abort) {x : Op W Unit}
    (hx : Within (Leads p) x) : Within (Leads p) (orAbort env x) := by
  intro s
  obtain ⟨o, s', h, hl, -⟩ := orAbort_spec env hstop habort x s (hx s)
  rw [h]
  exact hl

/-- **`start_vmm`**, where a launch is allowed from every calm successor. -/
theorem startVmm_leads (hstop : p.mayDrain .abortStop) (habort : p.mayDrain .abort)
    (hget : p.mayCall .getMachineConfiguration) (s : Sys W)
    (hlaunch : ∀ t, Calm p.mayCall s t → p.mayLaunch t.ledger) : Leads p s (startVmm env s).2 := by
  have hcalm : ∀ {α β : Type} {x : Op W α} {f : α → Op W β} {t : Sys W},
      Within (Calm p.mayCall) x → Calm p.mayCall s t →
      (∀ a u, Calm p.mayCall s u → Leads p s (f a u).2) → Leads p s ((x >>= f) t).2 := by
    intro α β x f t hx ht hf
    have hxt := trans_of (Calm p.mayCall) ht (hx t)
    exact bind_final hxt.leads fun a _ => hf a _ hxt
  unfold startVmm
  refine hcalm calm_machine (refl_of _ _) fun m t ht => ?_
  cases m.command with
  | none => exact ht.leads
  | some command =>
    dsimp only
    refine hcalm (calm_update fun _ => rfl) ht fun _ t ht => ?_
    refine hcalm ((passive_calm env).commandStdio _ _) ht fun _ t ht => ?_
    refine hcalm ((passive_calm env).commandStdio _ _) ht fun _ t ht => ?_
    refine hcalm ((passive_calm env).commandStdio _ _) ht fun _ t ht => ?_
    refine hcalm ((passive_calm env).configureCommandNetns) ht fun _ t ht => ?_
    -- the spawn and the registration of the socket's removal are one step
    have hasked := trans_of (Calm p.mayCall) ht (calm_ask env (.spawn command) t)
    cases hspawn : (env.answer (.spawn command) t.world).1 with
    | error e =>
      have h : spawn env command t =
          (.err (.process e.text), (Op.ask env (.spawn command) t).2) := by
        unfold spawn
        rw [Op.ask_bind, hspawn]
        rfl
      rw [bind_of_err h]
      exact hasked.leads
    | ok pid =>
      set s₁ : Sys W := { (Op.ask env (.spawn command) t).2 with
        machine := { t.machine with process := some { uid := t.procs.length, pid := pid } }
        procs := t.procs ++ [{ pid := pid }] } with hs₁
      have h : spawn env command t = (.ok (), s₁) := by
        unfold spawn
        rw [Op.ask_bind, hspawn]
        rfl
      rw [bind_of_ok h, Op.cfg_bind]
      set s₂ := (pushCleanupFunc (.removeFile s₁.machine.cfg.socketPath) s₁).2 with hs₂
      have hpushed : pushCleanupFunc (.removeFile s₁.machine.cfg.socketPath) s₁ =
          (.ok (), s₂) := rfl
      have hlaunched : Leads p (Op.ask env (.spawn command) t).2 s₂ :=
        .step (@Step.launch p _ pid ⟨t.fresh, .removeFile s₁.machine.cfg.socketPath⟩
          (hlaunch _ hasked) rfl)
      rw [bind_of_ok hpushed]
      refine (hasked.leads.trans hlaunched).trans ?_
      refine within_bind (orAbort_leads env hstop habort (installSignalForwarder_leads env))
        (fun _ => ?_) _
      refine within_bind ((passive_leads env).ask _ rfl) fun _ => ?_
      exact orAbort_leads env hstop habort (waitForVmmReady_leads env hget _)

/-! ### Linking files -/

/-- Writing the names that files have in the jail. -/
theorem leads_relink (h : p.mayRelink) {f : Config → Config} (hf : Relinks f) :
    Within (Leads p) (Op.update fun m => { m with cfg := f m.cfg } : Op W Unit) := by
  intro s
  refine .step ?_
  have hl :
      (Op.update (fun m => { m with cfg := f m.cfg }) s : Outcome Error Unit × Sys W).2.ledger =
      { s.ledger with
        devices := { s.ledger.devices with
          kernelImagePath := (f s.machine.cfg).kernelImagePath
          initrdPath := (f s.machine.cfg).initrdPath
          logFifo := (f s.machine.cfg).logFifo
          metricsFifo := (f s.machine.cfg).metricsFifo
          drives := (f s.machine.cfg).drives } } := by
    change Sys.ledger { s with machine := { s.machine with cfg := f s.machine.cfg } } = _
    rw [hf s.machine.cfg]
    rfl
  rw [hl]
  exact .relink h

theorem linkFiles_leads (h : p.mayRelink) (name : String) :
    Within (Leads p) (linkFiles env name) :=
  (passive_leads env).linkFiles (fun _ hf => leads_relink h hf) name

/-! ### Running handlers -/

/-- Every handler but one runs wherever files may be linked. -/
theorem runHandler_leads (f : HandlerFn) (hf : f ≠ .startVmm)
    (hlink : p.mayRelink ∨ f.linksFiles = false) (hcalls : ∀ c, f.issues c → p.mayCall c) :
    Within (Leads p) (runHandler env f) := by
  by_cases h₁ : f = .createLogFiles
  · subst h₁
    exact createLogFiles_leads env
  · by_cases h₂ : f = .setupNetwork
    · subst h₂
      exact setupNetwork_leads env
    · cases h₃ : f.linksFiles with
      | false => exact (passive_leads env).runHandler f hf h₁ h₂ h₃ hcalls
      | true =>
        cases f with
        | linkFiles name =>
          rcases hlink with hlink | hlink
          · exact linkFiles_leads env hlink name
          · cases hlink
        | _ => cases h₃

theorem runHandlerList_leads (handlers : List Handler)
    (h : ∀ handler ∈ handlers, Within (Leads p) (runHandler env handler.func)) :
    Within (Leads p) (runHandlerList env handlers) := by
  induction handlers with
  | nil => exact within_pure _
  | cons handler handlers ih =>
    rw [List.forall_mem_cons] at h
    exact within_bind h.1 fun _ => ih h.2

theorem runHandlerList_append (handlers handlers' : List Handler) :
    runHandlerList env (handlers ++ handlers') =
      runHandlerList env handlers >>= fun _ => runHandlerList env handlers' := by
  induction handlers with
  | nil => rfl
  | cons handler handlers ih =>
    rw [List.cons_append, runHandlerList, runHandlerList, ih, Prog.bind_assoc]

theorem runHandlers_leads (handlers : Handlers)
    (hv : Within (Leads p) (runHandlerList env handlers.validation))
    (hi : Within (Leads p) (runHandlerList env handlers.fcInit)) :
    Within (Leads p) (runHandlers env handlers) :=
  within_bind (within_gets _) fun _ => within_ite hi (within_bind hv fun _ => hi)

/-- What a start does before its first initialising handler: it marks the machine as
started and validates the configuration. -/
def validationPhase : Op W Unit := do
  Op.update fun m => { m with started := true }
  if (← Op.cfg).disableValidation then pure ()
  else runHandlerList env (← Op.machine).handlers.validation

theorem validationPhase_leads {s : Sys W}
    (hv : Within (Leads p) (runHandlerList env s.machine.handlers.validation)) :
    Leads p s (validationPhase env s).2 := by
  unfold validationPhase
  rw [Op.update_bind, Op.cfg_bind]
  have hbegin : Leads p s { s with machine := { s.machine with started := true } } := .step .begin
  split
  · exact hbegin
  · rw [Op.machine_bind]
    exact hbegin.trans (hv _)

theorem orAbort_congr {x y : Op W Unit} {s t : Sys W} (h : x s = y t) :
    orAbort env x s = orAbort env y t := by
  refine Prog.bind_congr ?_
  rw [attempt_apply, attempt_apply, h]

/-- The first start of a machine: validation, the initialising handlers, and the instance. -/
theorem start_eq {s : Sys W} (hstarted : s.machine.started = false) :
    start env s =
      (orAbort env (validationPhase env >>= fun _ =>
        runHandlerList env s.machine.handlers.fcInit) >>= fun _ =>
          orAbort env (startInstance env)) s := by
  unfold start
  rw [Op.machine_bind, hstarted]
  simp only [Bool.false_eq_true, if_false]
  rw [Op.update_bind, Op.machine_bind]
  refine Prog.bind_congr (orAbort_congr env ?_)
  unfold runHandlers validationPhase
  rw [Op.cfg_bind, Prog.bind_assoc, Op.update_bind, Prog.bind_assoc, Op.cfg_bind]
  split
  · rfl
  · rw [Prog.bind_assoc, Op.machine_bind]

/-- A start that gets through validation goes on with the initialising handlers. -/
theorem start_of_validationPhase {s s₁ : Sys W} (hstarted : s.machine.started = false)
    (h : validationPhase env s = (.ok (), s₁)) :
    start env s =
      (orAbort env (runHandlerList env s.machine.handlers.fcInit) >>= fun _ =>
        orAbort env (startInstance env)) s₁ := by
  rw [start_eq env hstarted]
  exact Prog.bind_congr (orAbort_congr env (bind_of_ok h))

/-- **`start`**: it refuses to start twice, or it returns, or it ends settled with the
error it returns stored, or it is dropped. -/
theorem start_spec (hstop : p.mayDrain .abortStop) (habort : p.mayDrain .abort)
    (hstart : p.mayCall instanceStart) (s : Sys W)
    (hrun : Leads p { s with machine := { s.machine with started := true } }
      (runHandlers env s.machine.handlers
        { s with machine := { s.machine with started := true } }).2) :
    ∃ o s', start env s = (o, s') ∧ Leads p s s' ∧ s'.machine.started = true ∧
      (o = .err .alreadyStarted ∧ s' = s ∨ o = .dropped ∨ o = .ok () ∨
        ∃ f, o = .err f.copy ∧ s'.machine.fatalErr = some f ∧ Settled s') := by
  unfold start
  rw [Op.machine_bind]
  split
  · rename_i hstarted
    exact ⟨_, s, rfl, refl_of _ _, hstarted, .inl ⟨rfl, rfl⟩⟩
  · rw [Op.update_bind, Op.machine_bind]
    set s₁ : Sys W := { s with machine := { s.machine with started := true } } with hs₁
    have hl₁ : Leads p s s₁ := .step .begin
    have hstarted : ∀ {t : Sys W}, Leads p s₁ t → t.machine.started = true := fun h =>
      Walk.started h rfl
    obtain ⟨o₂, s₂, h₂, hl₂, ho₂⟩ := orAbort_spec env hstop habort _ s₁ hrun
    rcases ho₂ with rfl | ⟨rfl, -⟩ | ⟨f, rfl, hf, hset⟩
    · exact ⟨_, s₂, bind_of_dropped h₂, hl₁.trans hl₂, hstarted hl₂, .inr (.inl rfl)⟩
    · -- the handlers have run, and the instance is started
      obtain ⟨o₃, s₃, h₃, hl₃, ho₃⟩ := orAbort_spec env hstop habort (startInstance env) s₂
        ((passive_calm env).startInstance hstart s₂).leads
      refine ⟨o₃, s₃, (bind_of_ok h₂).trans h₃, (hl₁.trans hl₂).trans hl₃,
        hstarted (hl₂.trans hl₃), .inr ?_⟩
      rcases ho₃ with rfl | ⟨rfl, -⟩ | h
      · exact .inl rfl
      · exact .inr (.inl rfl)
      · exact .inr (.inr h)
    · exact ⟨_, s₂, bind_of_err h₂, hl₁.trans hl₂, hstarted hl₂,
        .inr (.inr (.inr ⟨f, rfl, hf, hset⟩))⟩

/-! ### Public calls -/

/-- Where everything is allowed, every list of handlers walks along the steps. -/
theorem runHandlerList_anything (handlers : List Handler) :
    Within (Leads anything) (runHandlerList env handlers) := by
  refine runHandlerList_leads env handlers fun handler _ => ?_
  by_cases hf : handler.func = .startVmm
  · rw [hf]
    exact fun s => startVmm_leads env trivial trivial trivial s fun _ _ => trivial
  · exact runHandler_leads env handler.func hf (.inl trivial) fun _ _ => trivial

theorem runHandlers_anything (handlers : Handlers) :
    Within (Leads anything) (runHandlers env handlers) :=
  runHandlers_leads env handlers (runHandlerList_anything env _) (runHandlerList_anything env _)

end Machine

/-- **Every public call walks along the steps**, in every environment, and wherever its
future is dropped. -/
theorem Call.exec_leads (env : Env W) (c : Call) : Within (Leads anything) (c.exec env) := by
  intro s
  cases c <;> dsimp only [Call.exec] <;> rw [snd_bind_pure]
  case setupNetwork => exact Machine.setupNetwork_leads env s
  case createLogFiles => exact Machine.createLogFiles_leads env s
  case startVmm => exact Machine.startVmm_leads env trivial trivial trivial s fun _ _ => trivial
  case start =>
    obtain ⟨o, s', h, hl, -, -⟩ := Machine.start_spec env (p := anything) trivial trivial trivial s
      (Machine.runHandlers_anything env _ _)
    rw [h]
    exact hl
  case stopVmm =>
    obtain ⟨o, s', h, hl, -⟩ := Machine.stopVmmAt_spec env (p := anything) .finalize trivial
      (by decide) s
    rw [Machine.stopVmm, h]
    exact hl
  case wait =>
    obtain ⟨o, s', h, hl, -⟩ := Machine.wait_spec env (p := anything) trivial s
    rw [h]
    exact hl
  case pid =>
    obtain ⟨o, s', h, hl, -⟩ := Machine.pid_spec env (p := anything) trivial s
    rw [h]
    exact hl

/-- So does every sequence of calls. -/
theorem runCalls_leads (env : Env W) (calls : List Call) (s : Sys W) :
    Leads anything s (runCalls env calls s) := by
  induction calls generalizing s with
  | nil => exact refl_of _ _
  | cons c calls ih => exact (Call.exec_leads env c s).trans (ih _)

end FirecrackerSdk
