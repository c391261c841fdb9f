import FirecrackerSdk.Signal.Runs

/-!
# What a failed registration leaves behind

`register_inner` gives up at a signal that is out of range or that `signal(2)` refuses, releases
what it has applied, and `register` then stops the worker if no one needs it. That is meant to
leave no trace (`FirecrackerSdk.Signal.Traceless`), and does not always do so:

* the counter that `or_default` makes for the signal that was refused stays, at zero, and from
  then on keeps the manager from ever stopping its worker;
* a counter that stayed at zero in that way goes when the signal is applied and released;
* a handler that cannot be put back stays.

`FirecrackerSdk.Signal.GivesUp` says where a registration gives up, in terms of the list, the
counters and the answers of `signal(2)`, and `FirecrackerSdk.Signal.register_traceless_iff` says
for every reachable state and every answer exactly when a registration that fails leaves no
trace. The counts themselves are always right (`FirecrackerSdk.Signal.runCalls_counted`).
-/

namespace FirecrackerSdk

open Prog

/-- `signal(2)` is called for each of these signals in turn: those for which it fails, and the
world afterwards. -/
def SignalEnv.refused {W : Type} (env : SignalEnv W) : List ℤ → W → List ℤ × W
  | [], w => ([], w)
  | signal :: signals, w =>
    match env.signal signal w with
    | (none, w') => env.refused signals w'
    | (some _, w') => (signal :: (env.refused signals w').1, (env.refused signals w').2)

namespace Signal

variable {W : Type} (env : SignalEnv W)

/-! ### The calls of `signal(2)` -/

/-- The signals of a list that are not counted yet, each once, in the order in which they
come. -/
def uncounted (m : SignalForwardManager) (signals : List ℤ) : List ℤ :=
  signals.foldl (fun found signal =>
    if m.refCount signal = 0 ∧ signal ∉ found then found ++ [signal] else found) []

theorem uncounted_concat (m : SignalForwardManager) (signals : List ℤ) (signal : ℤ) :
    uncounted m (signals ++ [signal]) =
      if m.refCount signal = 0 ∧ signal ∉ uncounted m signals then uncounted m signals ++ [signal]
      else uncounted m signals := by
  rw [uncounted, List.foldl_append]
  rfl

theorem mem_uncounted {m : SignalForwardManager} {signals : List ℤ} {x : ℤ} :
    x ∈ uncounted m signals ↔ x ∈ signals ∧ m.refCount x = 0 := by
  induction signals using List.reverseRecOn with
  | nil => exact iff_of_false List.not_mem_nil fun h => absurd h.1 List.not_mem_nil
  | append_singleton signals signal ih =>
    rw [uncounted_concat, List.mem_append, List.mem_singleton]
    split
    · rename_i hnew
      rw [List.mem_append, List.mem_singleton, ih]
      constructor
      · rintro (⟨hmem, hzero⟩ | rfl)
        · exact ⟨.inl hmem, hzero⟩
        · exact ⟨.inr rfl, hnew.1⟩
      · rintro ⟨hmem | rfl, hzero⟩
        · exact .inl ⟨hmem, hzero⟩
        · exact .inr rfl
    · rename_i hold
      rw [ih]
      refine ⟨fun ⟨hmem, hzero⟩ => ⟨.inl hmem, hzero⟩, ?_⟩
      rintro ⟨hmem | rfl, hzero⟩
      · exact ⟨hmem, hzero⟩
      · exact ih.mp (not_not.mp fun hnot => hold ⟨hzero, hnot⟩)

theorem uncounted_concat_of_counted {m : SignalForwardManager} {signals : List ℤ} {signal : ℤ}
    (h : m.refCount signal = 0 → signal ∈ signals) :
    uncounted m (signals ++ [signal]) = uncounted m signals := by
  rw [uncounted_concat, if_neg]
  rintro ⟨hzero, hnew⟩
  exact hnew (mem_uncounted.mpr ⟨h hzero, hzero⟩)

theorem uncounted_concat_of_uncounted {m : SignalForwardManager} {signals : List ℤ} {signal : ℤ}
    (hzero : m.refCount signal = 0) (hnew : signal ∉ signals) :
    uncounted m (signals ++ [signal]) = uncounted m signals ++ [signal] := by
  rw [uncounted_concat, if_pos]
  exact ⟨hzero, fun hmem => hnew (mem_uncounted.mp hmem).1⟩

/-- What is not counted yet among the first signals comes first. -/
theorem uncounted_of_initial (m : SignalForwardManager) (signals more : List ℤ) :
    uncounted m signals <+: uncounted m (signals ++ more) := by
  induction more using List.reverseRecOn with
  | nil => rw [List.append_nil]
  | append_singleton more signal ih =>
    rw [← List.append_assoc, uncounted_concat]
    split
    · exact ih.trans (List.prefix_append _ _)
    · exact ih

theorem refused_append (xs ys : List ℤ) (w : W) :
    env.refused (xs ++ ys) w =
      ((env.refused xs w).1 ++ (env.refused ys (env.refused xs w).2).1,
        (env.refused ys (env.refused xs w).2).2) := by
  induction xs generalizing w with
  | nil => rfl
  | cons x xs ih =>
    rw [List.cons_append, SignalEnv.refused, SignalEnv.refused]
    rcases env.signal x w with ⟨_ | error, w'⟩
    · exact ih w'
    · dsimp only
      rw [ih w']
      rfl

theorem mem_of_mem_refused {xs : List ℤ} {w : W} {x : ℤ} (h : x ∈ (env.refused xs w).1) :
    x ∈ xs := by
  induction xs generalizing w with
  | nil => exact h
  | cons y xs ih =>
    rw [SignalEnv.refused] at h
    rcases hsignal : env.signal y w with ⟨_ | error, w'⟩ <;> rw [hsignal] at h
    · exact List.mem_cons_of_mem _ (ih h)
    · rcases List.mem_cons.mp h with rfl | h
      · exact List.mem_cons_self
      · exact List.mem_cons_of_mem _ (ih h)

/-- Where all are accepted, the first ones are. -/
theorem refused_of_prefix {xs ys : List ℤ} {w w' : W} (hinitial : xs <+: ys)
    (h : env.refused ys w = ([], w')) : (env.refused xs w).1 = [] := by
  obtain ⟨zs, rfl⟩ := hinitial
  rw [refused_append] at h
  exact (List.append_eq_nil_iff.mp (Prod.mk.inj h).1).1

/-! ### Releasing, exactly -/

theorem libcSignal_of_none {signal : ℤ} (handler : Disposition) {s : SignalSys W} {w : W}
    (h : env.signal signal s.world = (none, w)) :
    libcSignal env signal handler s = (.ok (.ok (s.dispositions signal)),
      { s with dispositions := Function.update s.dispositions signal handler, world := w }) := by
  unfold libcSignal
  rw [h]

theorem libcSignal_of_some {signal : ℤ} (handler : Disposition) {s : SignalSys W}
    {error : IoError} {w : W} (h : env.signal signal s.world = (some error, w)) :
    libcSignal env signal handler s = (.ok (.error error), { s with world := w }) := by
  unfold libcSignal
  rw [h]

/-- The counter of a signal, as a map. -/
theorem lookup_signalRefs {m : SignalForwardManager} (signal : ℤ) :
    m.signalRefs.lookup signal =
      if signal ∈ m.signalRefs then some (m.refCount signal) else none := by
  unfold SignalForwardManager.refCount
  cases hlookup : m.signalRefs.lookup signal with
  | none =>
    rw [if_neg (AList.lookup_eq_none.mp hlookup)]
  | some count =>
    rw [if_pos (AList.lookup_isSome.mp (Option.isSome_of_eq_some hlookup))]
    rfl

/-- Releasing a signal that someone else still wants. -/
theorem releaseSignal_of_more {s : SignalSys W} {signal : ℤ} {count : ℕ}
    (h : s.manager.signalRefs.lookup signal = some (count + 1)) (hmore : 0 < count) :
    releaseSignal env signal s = (.ok (), { s with manager := s.manager.setRef signal count }) := by
  unfold releaseSignal
  rw [manager_bind, h]
  dsimp only
  rw [if_pos hmore]
  rfl

/-- Releasing a signal for the last time. -/
theorem releaseSignal_of_last {s : SignalSys W} {signal : ℤ} {previous : Disposition}
    (h : s.manager.signalRefs.lookup signal = some 1)
    (hprevious : s.manager.oldHandlers.lookup signal = some previous) :
    ∃ s', releaseSignal env signal s = (.ok (), s') ∧
      s'.manager = (s.manager.eraseRef signal).forget signal ∧
      s'.world = (env.refused [signal] s.world).2 ∧
      s'.unrestored = (env.refused [signal] s.world).1 ++ s.unrestored := by
  unfold releaseSignal
  rw [manager_bind, h]
  dsimp only
  rw [if_neg (Nat.lt_irrefl 0), update_bind, manager_bind]
  have hkept : ({ s with manager := s.manager.eraseRef signal } :
      SignalSys W).manager.oldHandlers.lookup signal = some previous := hprevious
  rw [hkept]
  dsimp only
  rw [update_bind, SignalEnv.refused]
  set s₁ : SignalSys W := { s with manager := (s.manager.eraseRef signal).forget signal } with hs₁
  rcases hsignal : env.signal signal s.world with ⟨_ | error, w⟩
  · have hcall := libcSignal_of_none env previous (s := s₁) hsignal
    exact ⟨_, bind_of_ok hcall, rfl, rfl, rfl⟩
  · have hcall := libcSignal_of_some env previous (s := s₁) hsignal
    exact ⟨_, bind_of_ok hcall, rfl, rfl, rfl⟩

section Loops

variable {original surplus : ℤ → ℕ}

/-- The counters before a call, while the call holds some signals. -/
def Base (surplus : ℤ → ℕ) (m m₀ : SignalForwardManager) : Prop :=
  ∀ x, m₀.refCount x = registered m x + surplus x

theorem Counted.refCount_eq {m₀ : SignalForwardManager} {held : List ℤ} {s : SignalState}
    (h : Counted original surplus held s) (hbase : Base surplus s.manager m₀) (x : ℤ) :
    s.manager.refCount x = m₀.refCount x + held.count x := by
  rw [h.refs, hbase]
  omega

theorem Base.of_untouched {m₀ : SignalForwardManager} {s s' : SignalState}
    (h : Base surplus s.manager m₀) (hsame : Untouched s s') : Base surplus s'.manager m₀ :=
  fun x => by rw [h, hsame.registered_eq]

/-- **Releasing what is held, exactly**: a counter that was not there, or was zero, goes; and
the handlers that cannot be put back are those that `signal(2)` refuses. -/
theorem releaseEach_exact {m₀ : SignalForwardManager} (held : List ℤ) {s : SignalSys W}
    (h : Counted original surplus held s.toSignalState) (hbase : Base surplus s.manager m₀) :
    ∃ s', releaseEach env held s = (.ok (), s') ∧
      (∀ x, x ∈ s'.manager.signalRefs ↔
        x ∈ s.manager.signalRefs ∧ ¬ (x ∈ held ∧ m₀.refCount x = 0)) ∧
      ∀ x, x ∈ s'.unrestored ↔ x ∈ s.unrestored ∨
        x ∈ (env.refused (uncounted m₀ held.reverse).reverse s.world).1 := by
  induction held generalizing s with
  | nil =>
    refine ⟨s, rfl, fun x => ?_, fun x => ?_⟩
    · exact (and_iff_left fun hmem => absurd hmem.1 List.not_mem_nil).symm
    · exact (or_iff_left List.not_mem_nil).symm
  | cons signal held ih =>
    obtain ⟨s₁, hrelease, hsame, hcounted⟩ := releaseSignal_spec env h
    obtain ⟨s₂, hrest, hrefs, hunrestored⟩ := ih hcounted (hbase.of_untouched hsame)
    refine ⟨s₂, (bind_of_ok hrelease).trans hrest, ?_⟩
    have hcount := h.refCount_eq hbase signal
    rw [List.count_cons_self] at hcount
    have hmem : signal ∈ s.manager.signalRefs := by
      by_contra hnot
      rw [SignalForwardManager.refCount, AList.lookup_eq_none.mpr hnot] at hcount
      exact absurd hcount (Nat.ne_of_lt (Nat.succ_pos _))
    have hlookup := lookup_signalRefs (m := s.manager) signal
    rw [if_pos hmem, hcount] at hlookup
    rw [List.reverse_cons]
    by_cases hlast : m₀.refCount signal = 0 ∧ signal ∉ held
    · -- the handler is put back here, and the counter goes
      have hone : m₀.refCount signal + (held.count signal + 1) = 1 := by
        rw [hlast.1, List.count_eq_zero_of_not_mem hlast.2]
      rw [hone] at hlookup
      have hprevious : s.manager.oldHandlers.lookup signal =
          some (home original s.toSignalState signal) := by
        refine (h.remembered signal).trans (if_pos ?_)
        omega
      obtain ⟨s₁', hrelease', hmanager, hworld, hfailed⟩ :=
        releaseSignal_of_last env hlookup hprevious
      obtain rfl : s₁' = s₁ := (Prod.mk.inj (hrelease'.symm.trans hrelease)).2
      have hnew : signal ∉ held.reverse := fun hmem => hlast.2 (List.mem_reverse.mp hmem)
      rw [uncounted_concat_of_uncounted hlast.1 hnew, List.reverse_append, List.reverse_singleton]
      refine ⟨fun x => ?_, fun x => ?_⟩
      · rw [hrefs, hmanager, List.mem_cons]
        change x ∈ s.manager.signalRefs.erase signal ∧ _ ↔ _
        rw [AList.mem_erase]
        by_cases hx : x = signal
        · subst hx
          exact iff_of_false (fun hmem => hmem.1.1 rfl) fun hmem => hmem.2 ⟨.inl rfl, hlast.1⟩
        · rw [and_iff_right hx, or_iff_right hx]
      · rw [hunrestored, hfailed, hworld, refused_append, List.mem_append, List.mem_append]
        tauto
    · -- someone else still wants the signal, or this call does
      have hcounted' : m₀.refCount signal = 0 → signal ∈ held := fun hzero =>
        not_not.mp fun hnot => hlast ⟨hzero, hnot⟩
      have hmore : 0 < m₀.refCount signal + held.count signal := by
        by_cases hzero : m₀.refCount signal = 0
        · have := List.count_pos_iff.mpr (hcounted' hzero)
          omega
        · omega
      rw [← Nat.add_assoc] at hlookup
      have hexact := releaseSignal_of_more env hlookup hmore
      obtain rfl := (Prod.mk.inj (hexact.symm.trans hrelease)).2
      rw [uncounted_concat_of_counted fun hzero => List.mem_reverse.mpr (hcounted' hzero)]
      refine ⟨fun x => ?_, hunrestored⟩
      rw [hrefs, List.mem_cons]
      change x ∈ s.manager.signalRefs.insert signal _ ∧ _ ↔ _
      rw [AList.mem_insert]
      by_cases hx : x = signal
      · subst hx
        rw [and_iff_right (.inl rfl), and_iff_right hmem]
        refine not_congr (and_congr_left fun hzero => ?_)
        exact iff_of_true (hcounted' hzero) (.inl rfl)
      · rw [or_iff_right hx, or_iff_right hx]

/-! ### Applying, exactly -/

/-- The ways in which a round of `register_inner` ends, and what it does to the map of
counters. -/
theorem applySignal_cases (signal : ℤ) (s : SignalSys W) :
    ∃ s', (∀ x, x ∈ s'.manager.signalRefs ↔ x ∈ s.manager.signalRefs ∨ x = signal) ∧
      s'.unrestored = s.unrestored ∧
      (s.manager.refCount signal ≠ 0 ∧ s'.world = s.world ∧
          applySignal env signal s = (.ok (), s') ∨
        s.manager.refCount signal = 0 ∧ env.signal signal s.world = (none, s'.world) ∧
          applySignal env signal s = (.ok (), s') ∨
        s.manager.refCount signal = 0 ∧ ∃ error,
          env.signal signal s.world = (some error, s'.world) ∧
          applySignal env signal s = (.err (.io error), s')) := by
  unfold applySignal
  rw [update_bind, manager_bind]
  set s₁ : SignalSys W := { s with manager := s.manager.orDefault signal } with hs₁
  have hcount : s₁.manager.refCount signal = s.manager.refCount signal :=
    refCount_orDefault s.manager signal signal
  -- `entry(..).or_default()` makes an entry whatever happens next
  have hrefs : ∀ x, x ∈ s₁.manager.signalRefs ↔ x ∈ s.manager.signalRefs ∨ x = signal := by
    intro x
    change x ∈ (if signal ∈ s.manager.signalRefs then _ else _) ↔ _
    split
    · rename_i hmem
      refine (or_iff_left_of_imp ?_).symm
      rintro rfl
      exact hmem
    · rw [AList.mem_insert, or_comm]
  have hinsert : ∀ {m : SignalForwardManager} {count : ℕ}, m.signalRefs = s₁.manager.signalRefs →
      ∀ x, x ∈ (m.setRef signal count).signalRefs ↔ x ∈ s.manager.signalRefs ∨ x = signal := by
    intro m count hm x
    change x ∈ m.signalRefs.insert signal count ↔ _
    rw [AList.mem_insert, hm, hrefs]
    tauto
  by_cases hzero : s₁.manager.refCount signal = 0
  · rw [if_pos hzero]
    rcases hsignal : env.signal signal s.world with ⟨_ | error, w⟩
    · have hcall := libcSignal_of_none env .forward (s := s₁) hsignal
      refine ⟨_, ?_, ?_, .inr (.inl ⟨hcount.symm.trans hzero, ?_, bind_of_ok hcall⟩)⟩
      · exact hinsert rfl
      · rfl
      · rfl
    · -- `signal` is refused, and the entry stays
      have hcall := libcSignal_of_some env .forward (s := s₁) hsignal
      refine ⟨_, ?_, ?_, .inr (.inr ⟨hcount.symm.trans hzero, error, ?_, bind_of_ok hcall⟩)⟩
      · exact hrefs
      · rfl
      · rfl
  · rw [if_neg hzero]
    refine ⟨{ s₁ with manager := s₁.manager.setRef signal (s₁.manager.refCount signal + 1) },
      hinsert rfl, rfl, .inl ⟨?_, rfl, rfl⟩⟩
    rwa [← hcount]

/-- What the loop of `register_inner` has done so far, from the state `s₀` on. -/
structure Applied (original surplus : ℤ → ℕ) (s₀ : SignalSys W) (applied : List ℤ)
    (s : SignalSys W) : Prop where
  counted : Counted original surplus applied s.toSignalState
  same : Untouched s₀.toSignalState s.toSignalState
  base : Base surplus s.manager s₀.manager
  refs : ∀ x, x ∈ s.manager.signalRefs ↔ x ∈ s₀.manager.signalRefs ∨ x ∈ applied
  unrestored : s.unrestored = s₀.unrestored
  accepted : env.refused (uncounted s₀.manager applied) s₀.world = ([], s.world)

variable {env}

theorem applied_nil {s₀ : SignalSys W} (h : Counted original surplus [] s₀.toSignalState) :
    Applied env original surplus s₀ [] s₀ := by
  refine ⟨h, .refl _, fun x => ?_, fun x => ?_, rfl, rfl⟩
  · rw [h.refs]
    rfl
  · exact (or_iff_left List.not_mem_nil).symm

/-- A signal that the call has applied, or that was counted before it, needs no handler. -/
theorem Applied.refCount_eq_zero {s₀ s : SignalSys W} {applied : List ℤ} {x : ℤ}
    (h : Applied env original surplus s₀ applied s) :
    s.manager.refCount x = 0 ↔ s₀.manager.refCount x = 0 ∧ x ∉ applied := by
  rw [h.counted.refCount_eq h.base, Nat.add_eq_zero_iff, List.count_eq_zero]

/-- The state in which a call starts to release what it has applied. -/
structure Refusing (original surplus : ℤ → ℕ) (s₀ : SignalSys W) (applied : List ℤ)
    (extra : ℤ → Prop) (s : SignalSys W) : Prop where
  counted : Counted original surplus applied s.toSignalState
  same : Untouched s₀.toSignalState s.toSignalState
  base : Base surplus s.manager s₀.manager
  refs : ∀ x, x ∈ s.manager.signalRefs ↔ x ∈ s₀.manager.signalRefs ∨ x ∈ applied ∨ extra x
  unrestored : s.unrestored = s₀.unrestored

/-- **One round of the loop**: the signal is applied, or it is refused and has a counter from
then on. -/
theorem Applied.applySignal {s₀ s : SignalSys W} {applied : List ℤ} (signal : ℤ)
    (h : Applied env original surplus s₀ applied s) :
    ∃ s', Signal.applySignal env signal s = (.ok (), s') ∧
        Applied env original surplus s₀ (applied ++ [signal]) s' ∨
      s₀.manager.refCount signal = 0 ∧ signal ∉ applied ∧ ∃ error,
        env.signal signal s.world = (some error, s'.world) ∧
        Signal.applySignal env signal s = (.err (.io error), s') ∧
        Refusing original surplus s₀ applied (· = signal) s' := by
  obtain ⟨o, s₁, hrun, hsame, hend⟩ := applySignal_spec env signal h.counted
  obtain ⟨s', hrefs, hunrestored, hcases⟩ := applySignal_cases env signal s
  have hsame' := h.same.trans hsame
  have hmem : ∀ x, x ∈ s'.manager.signalRefs ↔
      x ∈ s₀.manager.signalRefs ∨ x ∈ applied ∨ x = signal := by
    intro x
    rw [hrefs, h.refs, or_assoc]
  -- a round that ends well, with what it leaves of the answers
  have hok : Signal.applySignal env signal s = (.ok (), s') →
      env.refused (uncounted s₀.manager (applied ++ [signal])) s₀.world = ([], s'.world) →
      Applied env original surplus s₀ (applied ++ [signal]) s' := by
    intro hok haccepted
    obtain ⟨ho, rfl⟩ := Prod.mk.inj (hrun.symm.trans hok)
    rcases hend with ⟨-, hcounted⟩ | ⟨e, he, -⟩
    · refine ⟨hcounted.perm (List.perm_append_singleton signal applied).symm, hsame',
        h.base.of_untouched hsame, fun x => ?_, hunrestored.trans h.unrestored, haccepted⟩
      rw [hmem, List.mem_append, List.mem_singleton]
    · rw [ho] at he
      cases he
  refine ⟨s', ?_⟩
  rcases hcases with ⟨hpos, hworld, hran⟩ | ⟨hzero, hanswer, hran⟩ | ⟨hzero, error, hanswer, hran⟩
  · refine .inl ⟨hran, hok hran ?_⟩
    rw [uncounted_concat_of_counted, h.accepted, hworld]
    intro hzero
    exact not_not.mp fun hnot => hpos (h.refCount_eq_zero.mpr ⟨hzero, hnot⟩)
  · obtain ⟨hbefore, hnew⟩ := h.refCount_eq_zero.mp hzero
    refine .inl ⟨hran, hok hran ?_⟩
    rw [uncounted_concat_of_uncounted hbefore hnew, refused_append, h.accepted]
    simp only [SignalEnv.refused, hanswer, List.append_nil]
  · obtain ⟨hbefore, hnew⟩ := h.refCount_eq_zero.mp hzero
    refine .inr ⟨hbefore, hnew, error, hanswer, hran, ?_⟩
    obtain ⟨ho, rfl⟩ := Prod.mk.inj (hrun.symm.trans hran)
    rcases hend with ⟨hok, -⟩ | ⟨e, -, hcounted⟩
    · rw [ho] at hok
      cases hok
    · exact ⟨hcounted, hsame', h.base.of_untouched hsame, hmem, hunrestored.trans h.unrestored⟩

theorem Applied.refusing {s₀ s : SignalSys W} {applied : List ℤ} {extra : ℤ → Prop}
    (h : Applied env original surplus s₀ applied s) (hextra : ∀ x, ¬ extra x) :
    Refusing original surplus s₀ applied extra s := by
  refine ⟨h.counted, h.same, h.base, fun x => ?_, h.unrestored⟩
  rw [h.refs, or_iff_left (hextra x)]

theorem Refusing.congr {s₀ s : SignalSys W} {applied : List ℤ} {extra extra' : ℤ → Prop}
    (h : Refusing original surplus s₀ applied extra s) (hextra : ∀ x, extra x ↔ extra' x) :
    Refusing original surplus s₀ applied extra' s := by
  refine ⟨h.counted, h.same, h.base, fun x => ?_, h.unrestored⟩
  rw [h.refs, hextra]

/-- What a call leaves that has given up, apart from the worker. -/
structure RolledBack (env : SignalEnv W) (original surplus : ℤ → ℕ) (s₀ : SignalSys W)
    (applied : List ℤ) (extra : ℤ → Prop) (w : W) (s : SignalSys W) : Prop where
  counted : Counted original surplus [] s.toSignalState
  same : Untouched s₀.toSignalState s.toSignalState
  refCount : ∀ x, s.manager.refCount x = s₀.manager.refCount x
  refs : ∀ x, x ∈ s.manager.signalRefs ↔
    (x ∈ s₀.manager.signalRefs ∨ extra x) ∧ ¬ (x ∈ applied ∧ s₀.manager.refCount x = 0)
  unrestored : ∀ x, x ∈ s.unrestored ↔ x ∈ s₀.unrestored ∨
    x ∈ (env.refused (uncounted s₀.manager applied).reverse w).1

/-- **Giving up**: what has been applied is released. -/
theorem Refusing.releaseSignals (env : SignalEnv W) {s₀ s : SignalSys W} {applied : List ℤ}
    {extra : ℤ → Prop}
    (h : Refusing original surplus s₀ applied extra s) :
    ∃ s', Signal.releaseSignals env applied s = (.ok (), s') ∧
      RolledBack env original surplus s₀ applied extra s.world s' := by
  obtain ⟨s', hrun, hsame, hcounted⟩ := releaseSignals_spec env h.counted
  obtain ⟨s'', hrun', hrefs, hunrestored⟩ := releaseEach_exact env applied.reverse
    (h.counted.perm (List.reverse_perm applied).symm) h.base
  obtain rfl : s'' = s' := (Prod.mk.inj (hrun'.symm.trans hrun)).2
  rw [List.reverse_reverse] at hunrestored
  refine ⟨s'', hrun, hcounted, h.same.trans hsame, fun x => ?_, fun x => ?_, fun x => ?_⟩
  · rw [hcounted.refCount_eq (h.base.of_untouched hsame), List.count_nil, Nat.add_zero]
  · rw [hrefs, h.refs, List.mem_reverse]
    -- a signal that is applied and was counted before has had a counter before
    have hold : x ∈ applied → s₀.manager.refCount x ≠ 0 → x ∈ s₀.manager.signalRefs := by
      intro _ hpos
      by_contra hnot
      rw [SignalForwardManager.refCount, AList.lookup_eq_none.mpr hnot] at hpos
      exact hpos rfl
    tauto
  · rw [hunrestored, h.unrestored]

/-! ### Where the loop gives up -/

/-- The loop gives up at a signal, in a world from which it then releases what it has
applied. -/
def Stops (env : SignalEnv W) (m : SignalForwardManager) (applied : List ℤ) (signal : ℤ)
    (w w' : W) : Prop :=
  outOfRange signal = true ∧ w' = w ∨
    outOfRange signal = false ∧ m.refCount signal = 0 ∧ signal ∉ applied ∧
      ∃ error, env.signal signal w = (some error, w')

/-- A signal that was refused has a counter from then on. -/
def Leftover (signal x : ℤ) : Prop := outOfRange signal = false ∧ x = signal

/-- One round of the loop, for a signal that is applied. -/
theorem applySignals_cons_of_ok {applied : List ℤ} {signal : ℤ} {todo : List ℤ}
    {s s' : SignalSys W} (hrange : outOfRange signal = false)
    (h : applySignal env signal s = (.ok (), s')) :
    applySignals env applied (signal :: todo) s =
      applySignals env (applied ++ [signal]) todo s' := by
  rw [applySignals, hrange, if_neg Bool.false_ne_true]
  exact bind_of_ok (attempt_of_ok h)

/-- A signal that was refused is not among those that were accepted. -/
theorem Applied.absurd_of_refused {s₀ s : SignalSys W} {applied : List ℤ} {signal : ℤ} {w w' : W}
    {error : IoError} (h : Applied env original surplus s₀ applied s)
    (hzero : s₀.manager.refCount signal = 0) (hnew : signal ∉ applied)
    (hanswer : env.signal signal s.world = (some error, w)) {ys : List ℤ}
    (hinitial : uncounted s₀.manager (applied ++ [signal]) <+: ys)
    (haccepted : env.refused ys s₀.world = ([], w')) : False := by
  have hnone := refused_of_prefix env hinitial haccepted
  rw [uncounted_concat_of_uncounted hzero hnew, refused_append, h.accepted] at hnone
  simp only [SignalEnv.refused, hanswer, List.nil_append] at hnone
  cases hnone

/-- **The loop gets past** what is in range and accepted. -/
theorem Applied.applySignals_append {s₀ : SignalSys W} (more rest : List ℤ) {applied : List ℤ}
    {s : SignalSys W} {w : W} (h : Applied env original surplus s₀ applied s)
    (hrange : ∀ x ∈ more, outOfRange x = false)
    (haccepted : env.refused (uncounted s₀.manager (applied ++ more)) s₀.world = ([], w)) :
    ∃ s', applySignals env applied (more ++ rest) s = applySignals env (applied ++ more) rest s' ∧
      Applied env original surplus s₀ (applied ++ more) s' := by
  induction more generalizing applied s with
  | nil =>
    rw [List.append_nil]
    exact ⟨s, rfl, h⟩
  | cons signal more ih =>
    rw [List.append_cons] at haccepted
    obtain ⟨s', ⟨hrun, happlied⟩ | ⟨hzero, hnew, error, hanswer, -, -⟩⟩ := h.applySignal signal
    · obtain ⟨s'', hrest, happlied'⟩ := ih happlied
        (fun x hx => hrange x (List.mem_cons_of_mem _ hx)) haccepted
      rw [List.append_cons]
      refine ⟨s'', ?_, happlied'⟩
      rw [List.cons_append, applySignals_cons_of_ok (hrange signal List.mem_cons_self) hrun, hrest]
    · exact (h.absurd_of_refused hzero hnew hanswer (uncounted_of_initial _ _ more) haccepted).elim

/-- **The loop gives up**, with everything that it had applied released. -/
theorem Applied.applySignals_of_stops {s₀ s : SignalSys W} {applied : List ℤ} {signal : ℤ}
    {w : W} (rest : List ℤ) (h : Applied env original surplus s₀ applied s)
    (hstops : Stops env s₀.manager applied signal s.world w) :
    ∃ error s', applySignals env applied (signal :: rest) s = (.err error, s') ∧
      RolledBack env original surplus s₀ applied (Leftover signal) w s' := by
  rw [applySignals]
  rcases hstops with ⟨hout, rfl⟩ | ⟨hrange, hzero, hnew, error, hanswer⟩
  · rw [if_pos hout]
    have hextra : ∀ x, ¬ Leftover signal x := fun x hx => by
      rw [hx.1] at hout
      cases hout
    obtain ⟨s', hrelease, hrolled⟩ := (h.refusing hextra).releaseSignals env
    exact ⟨_, s', bind_of_ok hrelease, hrolled⟩
  · rw [hrange, if_neg Bool.false_ne_true]
    obtain ⟨s', ⟨-, happlied⟩ | ⟨-, -, error', hanswer', hrun, hrefusing⟩⟩ := h.applySignal signal
    · exact (h.absurd_of_refused hzero hnew hanswer List.prefix_rfl happlied.accepted).elim
    · have hextra : ∀ x, x = signal ↔ Leftover signal x := fun x => (and_iff_right hrange).symm
      obtain ⟨s'', hrelease, hrolled⟩ := (hrefusing.congr hextra).releaseSignals env
      rw [bind_of_ok (attempt_of_err hrun)]
      refine ⟨_, s'', bind_of_ok hrelease, ?_⟩
      rw [(Prod.mk.inj (hanswer.symm.trans hanswer')).2]
      exact hrolled

/-- **The loop ends well, or gives up somewhere.** -/
theorem Applied.applySignals_cases {s₀ : SignalSys W} (todo : List ℤ) {applied : List ℤ}
    {s : SignalSys W} (h : Applied env original surplus s₀ applied s) :
    (∃ s', applySignals env applied todo s = (.ok (), s')) ∨
      ∃ more signal w w', more ++ [signal] <+: todo ∧ (∀ x ∈ more, outOfRange x = false) ∧
        env.refused (uncounted s₀.manager (applied ++ more)) s₀.world = ([], w) ∧
        Stops env s₀.manager (applied ++ more) signal w w' := by
  induction todo generalizing applied s with
  | nil => exact .inl ⟨s, rfl⟩
  | cons signal todo ih =>
    by_cases hout : outOfRange signal = true
    · -- the loop stops here, before it touches the signal
      refine .inr ⟨[], signal, s.world, s.world, ?_, nofun, ?_, .inl ⟨hout, rfl⟩⟩
      · exact List.prefix_append [signal] todo
      · rw [List.append_nil]
        exact h.accepted
    · have hrange := Bool.eq_false_iff.mpr hout
      obtain ⟨s', ⟨hrun, happlied⟩ | ⟨hzero, hnew, error, hanswer, -, -⟩⟩ := h.applySignal signal
      · rw [applySignals_cons_of_ok hrange hrun]
        -- the loop goes on, and what it does then comes after this signal
        rcases ih happlied with hok | ⟨more, x, w, w', hinitial, hmore, haccepted, hstops⟩
        · exact .inl hok
        · rw [← List.append_cons] at haccepted hstops
          refine .inr ⟨signal :: more, x, w, w', ?_, ?_, haccepted, hstops⟩
          · exact List.prefix_cons_inj signal |>.mpr hinitial
          · intro y hy
            rcases List.mem_cons.mp hy with rfl | hy
            · exact hrange
            · exact hmore y hy
      · refine .inr ⟨[], signal, s.world, s'.world, ?_, nofun, ?_, .inr ⟨hrange, hzero, ?_, ?_⟩⟩
        · exact List.prefix_append [signal] todo
        · rw [List.append_nil]
          exact h.accepted
        · rwa [List.append_nil]
        · exact ⟨error, hanswer⟩

/-! ### Registering -/

/-- The world in which the loop of `register_inner` starts: there is a worker, or a pipe can be
made for one. -/
def loopStart (env : SignalEnv W) (s : SignalSys W) : Option W :=
  if s.manager.worker.isSome then some s.world
  else
    match env.pipe s.world with
    | (.ok _, w) => some w
    | (.error _, _) => none

/-- A registration gives up at a signal, after it has applied those before it: they are in
range, and `signal(2)` accepts those of them that are not counted yet. The world is the one in
which it starts to release them. -/
structure GivesUp (env : SignalEnv W) (s : SignalSys W) (signals applied : List ℤ) (signal : ℤ)
    (w : W) : Prop where
  position : applied ++ [signal] <+: signals
  inRange : ∀ x ∈ applied, outOfRange x = false
  stops : ∃ w₀ w₁, loopStart env s = some w₀ ∧
    env.refused (uncounted s.manager applied) w₀ = ([], w₁) ∧
    Stops env s.manager applied signal w₁ w

/-- A registration that gives up at a signal can undo what it has done: the signal is out of
range or has a counter already, what was applied has no counter left at zero by an earlier
failure, `signal(2)` puts the handlers back or they were no others, and there is no counter left
by an earlier failure to keep the worker. -/
structure Reversible (env : SignalEnv W) (s : SignalSys W) (applied : List ℤ) (signal : ℤ)
    (w : W) : Prop where
  counter : outOfRange signal = false → signal ∈ s.manager.signalRefs
  leftovers : ∀ x ∈ applied, s.manager.signalRefs.lookup x ≠ some 0
  handlers : ∀ x ∈ (env.refused (uncounted s.manager applied).reverse w).1,
    s.dispositions x = .forward
  idle : s.manager.registrations.entries = [] → s.manager.signalRefs.entries = []

/-- **No trace of a call**: the registrations, the counters, the handlers that are remembered
and those that are installed are as they were, and without a registration there is no
worker. -/
structure Traceless (s s' : SignalState) : Prop where
  registrations : s'.manager.registrations = s.manager.registrations
  signalRefs : ∀ x, s'.manager.signalRefs.lookup x = s.manager.signalRefs.lookup x
  oldHandlers : ∀ x, s'.manager.oldHandlers.lookup x = s.manager.oldHandlers.lookup x
  dispositions : ∀ x, s'.dispositions x = s.dispositions x
  idle : s.manager.registrations.entries = [] → Uninstalled s'

/-- What `ensure_worker` does not touch. -/
structure SameSignals (s s' : SignalState) : Prop where
  registrations : s'.manager.registrations = s.manager.registrations
  signalRefs : s'.manager.signalRefs = s.manager.signalRefs
  oldHandlers : s'.manager.oldHandlers = s.manager.oldHandlers
  dispositions : s'.dispositions = s.dispositions
  unrestored : s'.unrestored = s.unrestored

theorem SameSignals.refCount_eq {s s' : SignalState} (h : SameSignals s s') (x : ℤ) :
    s'.manager.refCount x = s.manager.refCount x := by
  rw [SignalForwardManager.refCount, h.signalRefs, SignalForwardManager.refCount]

theorem SameSignals.uncounted_eq {s s' : SignalState} (h : SameSignals s s') (signals : List ℤ) :
    uncounted s'.manager signals = uncounted s.manager signals := by
  unfold uncounted
  simp only [h.refCount_eq]

theorem Counted.of_sameSignals {held : List ℤ} {s s' : SignalState}
    (h : Counted original surplus held s) (hsame : SameSignals s s') :
    Counted original surplus held s' := by
  have hhome : ∀ x, home original s' x = home original s x := fun x => by
    rw [home, hsame.unrestored, home]
  refine ⟨fun x => ?_, fun x => ?_, fun x => ?_⟩
  · rw [hsame.refCount_eq, h.refs, registered, registered, hsame.registrations]
  · rw [hsame.oldHandlers, hsame.refCount_eq, h.remembered, hhome]
  · rw [hsame.dispositions, hsame.refCount_eq, h.installed, hhome]

/-- `ensure_worker` makes a pipe. -/
theorem ensureWorker_of_pipe {s : SignalSys W} {fds : ℕ × ℕ} {w : W}
    (hnone : s.manager.worker = none) (hpipe : env.pipe s.world = (.ok fds, w)) :
    ensureWorker env s = (.ok (), ⟨s.toSignalState.installWorker fds.2, w⟩) := by
  have hcall : libcPipe env s = (.ok (.ok fds), { s with world := w }) := by
    rw [libcPipe, hpipe]
  unfold ensureWorker
  rw [manager_bind, hnone]
  exact bind_of_ok hcall

/-- `ensure_worker` where a pipe is there or can be made. -/
theorem ensureWorker_of_loopStart {s : SignalSys W} {w : W} (hsteady : Steady s.toSignalState)
    (hstart : loopStart env s = some w) :
    ∃ s₀ fd, ensureWorker env s = (.ok (), s₀) ∧ s₀.world = w ∧ Installed fd s₀.toSignalState ∧
      Steady s₀.toSignalState ∧ SameSignals s.toSignalState s₀.toSignalState := by
  unfold loopStart at hstart
  rcases hsteady.wired with ⟨fd, hfd⟩ | hun
  · have hsome : s.manager.worker.isSome := by
      rw [hfd.2.1]
      rfl
    rw [if_pos hsome] at hstart
    rcases ensureWorker_cases env s with ⟨-, hrun⟩ | ⟨hnone, -⟩
    · exact ⟨s, fd, hrun, Option.some.inj hstart, hfd, hsteady, ⟨rfl, rfl, rfl, rfl, rfl⟩⟩
    · rw [hnone] at hsome
      cases hsome
  · rw [hun.2.1, Option.isSome_none, if_neg Bool.false_ne_true] at hstart
    split at hstart
    · rename_i fds w' hpipe
      obtain rfl := Option.some.inj hstart
      exact ⟨_, ⟨fds.2, s.pipes⟩, ensureWorker_of_pipe hun.2.1 hpipe, rfl,
        installed_installWorker _ _, hsteady.installWorker fds.2, ⟨rfl, rfl, rfl, rfl, rfl⟩⟩
    · cases hstart

/-- `ensure_worker` where no pipe can be made. -/
theorem ensureWorker_of_loopStart_none {s : SignalSys W} (hstart : loopStart env s = none) :
    ∃ error w, ensureWorker env s = (.err (.io error), { s with world := w }) ∧
      s.manager.worker = none := by
  unfold loopStart at hstart
  rcases ensureWorker_cases env s with ⟨hsome, -⟩ | ⟨hnone, ⟨error, w, hrun⟩ | ⟨fds, w, hpipe, -⟩⟩
  · rw [if_pos hsome] at hstart
    cases hstart
  · exact ⟨error, w, hrun, hnone⟩
  · rw [hnone, Option.isSome_none, if_neg Bool.false_ne_true] at hstart
    split at hstart
    · cases hstart
    · rename_i hfails
      rw [hfails] at hpipe
      cases hpipe

/-- `take_shutdown_if_idle` where there is a worker. -/
theorem takeShutdownIfIdle_of_installed {s : SignalSys W} {fd : OwnedFd}
    (hfd : Installed fd s.toSignalState) :
    takeShutdownIfIdle s =
      if s.manager.registrations.entries ≠ [] ∨ s.manager.signalRefs.entries ≠ [] then
        (.ok none, s)
      else (.ok (some ⟨fd, ⟨fd.pipe⟩⟩), ⟨s.toSignalState.uninstallWorker, s.world⟩) := by
  unfold takeShutdownIfIdle
  rw [manager_bind]
  split
  · rfl
  · rw [hfd.1, hfd.2.1]
    rfl

/-- What a call that gives up leaves. -/
structure LeftBehind (env : SignalEnv W) (original surplus : ℤ → ℕ) (s : SignalSys W)
    (applied : List ℤ) (signal : ℤ) (w : W) (s' : SignalSys W) : Prop where
  before : Counted original surplus [] s.toSignalState
  counted : Counted original surplus [] s'.toSignalState
  registrations : s'.manager.registrations = s.manager.registrations
  refCount : ∀ x, s'.manager.refCount x = s.manager.refCount x
  refs : ∀ x, x ∈ s'.manager.signalRefs ↔
    (x ∈ s.manager.signalRefs ∨ Leftover signal x) ∧ ¬ (x ∈ applied ∧ s.manager.refCount x = 0)
  unrestored : ∀ x, x ∈ s'.unrestored ↔ x ∈ s.unrestored ∨
    x ∈ (env.refused (uncounted s.manager applied).reverse w).1
  worker : Uninstalled s'.toSignalState ↔
    s'.manager.registrations.entries = [] ∧ s'.manager.signalRefs.entries = []

theorem RolledBack.leftBehind {s s₀ s₂ s' : SignalSys W} {applied : List ℤ} {signal : ℤ} {w : W}
    (h : RolledBack env original surplus s₀ applied (Leftover signal) w s₂)
    (hbefore : Counted original surplus [] s.toSignalState)
    (hsame₀ : SameSignals s.toSignalState s₀.toSignalState)
    (hsame₂ : SameSignals s₂.toSignalState s'.toSignalState)
    (hworker : Uninstalled s'.toSignalState ↔
      s₂.manager.registrations.entries = [] ∧ s₂.manager.signalRefs.entries = []) :
    LeftBehind env original surplus s applied signal w s' := by
  refine ⟨hbefore, h.counted.of_sameSignals hsame₂, ?_, fun x => ?_, fun x => ?_, fun x => ?_, ?_⟩
  · rw [hsame₂.registrations, h.same.registrations, hsame₀.registrations]
  · rw [hsame₂.refCount_eq, h.refCount, hsame₀.refCount_eq]
  · rw [hsame₂.signalRefs, h.refs, hsame₀.signalRefs, hsame₀.refCount_eq]
  · rw [hsame₂.unrestored, h.unrestored, hsame₀.unrestored, hsame₀.uncounted_eq]
  · rwa [hsame₂.registrations, hsame₂.signalRefs]

/-- **A registration that gives up fails**, and what it leaves. -/
theorem GivesUp.register {s : SignalSys W} {signals applied : List ℤ} {signal : ℤ} {w : W}
    (childPid : ℕ) (h : GivesUp env s signals applied signal w) (hsteady : Steady s.toSignalState)
    (hcounted : Counted original surplus [] s.toSignalState) :
    ∃ error s', Signal.register env signals childPid s = (.err error, s') ∧
      LeftBehind env original surplus s applied signal w s' := by
  obtain ⟨⟨rest, rfl⟩, hrange, w₀, w₁, hstart, haccepted, hstops⟩ := h
  obtain ⟨s₀, fd, hensure, rfl, hfd, hsteady₀, hsame₀⟩ := ensureWorker_of_loopStart hsteady hstart
  rw [← hsame₀.uncounted_eq] at haccepted
  -- the loop gets to the signal, and gives up there
  have hnil : Applied env original surplus s₀ [] s₀ := applied_nil (hcounted.of_sameSignals hsame₀)
  obtain ⟨s₁, hloop, happlied⟩ := hnil.applySignals_append applied (signal :: rest) hrange haccepted
  rw [List.nil_append] at hloop happlied
  have hworld : s₁.world = w₁ :=
    (Prod.mk.inj (happlied.accepted.symm.trans haccepted)).2
  have hstops₁ : Stops env s₀.manager applied signal s₁.world w := by
    rwa [Stops, hsame₀.refCount_eq, hworld]
  obtain ⟨error, s₂, hfails, hrolled⟩ := happlied.applySignals_of_stops rest hstops₁
  have hinner : registerInner env (applied ++ [signal] ++ rest) childPid s = (.err error, s₂) := by
    rw [registerInner, bind_of_ok hensure]
    refine bind_of_err ?_
    rw [← List.append_cons, hloop, hfails]
  -- the worker goes if there is nothing left
  have hfd₂ : Installed fd s₂.toSignalState :=
    ⟨hrolled.same.writeFd.trans hfd.1, hrolled.same.worker.trans hfd.2.1,
      hrolled.same.pipeWriteFd.trans hfd.2.2⟩
  have htake := takeShutdownIfIdle_of_installed hfd₂
  unfold Signal.register
  rw [bind_of_ok (attempt_of_err hinner)]
  by_cases hbusy : s₂.manager.registrations.entries ≠ [] ∨ s₂.manager.signalRefs.entries ≠ []
  · rw [if_pos hbusy] at htake
    refine ⟨error, s₂, bind_of_ok htake, hrolled.leftBehind hcounted hsame₀
      ⟨rfl, rfl, rfl, rfl, rfl⟩ (iff_of_false ?_ ?_)⟩
    · intro hun
      have hnone := hfd₂.1.symm.trans hun.1
      cases hnone
    · rintro ⟨hempty, hempty'⟩
      exact hbusy.elim (fun hne => hne hempty) fun hne => hne hempty'
  · rw [if_neg hbusy] at htake
    obtain ⟨hempty, hempty'⟩ := not_or.mp hbusy
    refine ⟨error, _, bind_of_ok htake, hrolled.leftBehind hcounted hsame₀
      ⟨rfl, rfl, rfl, rfl, rfl⟩ (iff_of_true ?_ ?_)⟩
    · exact ⟨rfl, rfl, rfl⟩
    · exact ⟨not_not.mp hempty, not_not.mp hempty'⟩

/-- A map is empty if nothing is in it. -/
theorem entries_eq_nil {β : ℤ → Type} {m : AList β} : m.entries = [] ↔ ∀ x, x ∉ m := by
  constructor
  · intro hempty x hx
    rw [AList.mem_keys, AList.keys, hempty] at hx
    exact absurd hx List.not_mem_nil
  · intro hnone
    refine List.eq_nil_iff_forall_not_mem.mpr fun e he => hnone e.1 ?_
    exact List.mem_keys_of_mem he

namespace LeftBehind

variable {s s' : SignalSys W} {applied : List ℤ} {signal : ℤ} {w : W}

theorem lookup_eq_iff (h : LeftBehind env original surplus s applied signal w s') (x : ℤ) :
    s'.manager.signalRefs.lookup x = s.manager.signalRefs.lookup x ↔
      (x ∈ s'.manager.signalRefs ↔ x ∈ s.manager.signalRefs) := by
  refine ⟨fun heq => ?_, fun hiff => ?_⟩
  · rw [← AList.lookup_isSome, heq, AList.lookup_isSome]
  · rw [lookup_signalRefs, lookup_signalRefs, h.refCount]
    simp only [hiff]

theorem lookup_eq_zero_iff {m : SignalForwardManager} {x : ℤ} :
    m.signalRefs.lookup x = some 0 ↔ x ∈ m.signalRefs ∧ m.refCount x = 0 := by
  rw [lookup_signalRefs]
  split
  · rename_i hmem
    rw [Option.some_inj, and_iff_right hmem]
  · rename_i hnot
    exact iff_of_false nofun fun hmem => hnot hmem.1

/-- The counters are as they were. -/
theorem refs_iff (h : LeftBehind env original surplus s applied signal w s')
    (hnew : outOfRange signal = false → signal ∉ applied) :
    (∀ x, x ∈ s'.manager.signalRefs ↔ x ∈ s.manager.signalRefs) ↔
      (outOfRange signal = false → signal ∈ s.manager.signalRefs) ∧
        ∀ x ∈ applied, s.manager.signalRefs.lookup x ≠ some 0 := by
  constructor
  · intro hsame
    refine ⟨fun hrange => ?_, fun x hx hzero => ?_⟩
    · rw [← hsame, h.refs]
      exact ⟨.inr ⟨hrange, rfl⟩, fun hmem => hnew hrange hmem.1⟩
    · obtain ⟨hmem, hcount⟩ := lookup_eq_zero_iff.mp hzero
      rw [← hsame, h.refs] at hmem
      exact hmem.2 ⟨hx, hcount⟩
  · rintro ⟨hcounter, hleftovers⟩ x
    rw [h.refs]
    constructor
    · rintro ⟨hmem | ⟨hrange, rfl⟩, -⟩
      · exact hmem
      · exact hcounter hrange
    · intro hmem
      refine ⟨.inl hmem, fun hx => ?_⟩
      exact hleftovers x hx.1 (lookup_eq_zero_iff.mpr ⟨hmem, hx.2⟩)

/-- What a signal that is not counted does now. -/
theorem home_eq (h : LeftBehind env original surplus s applied signal w s') (x : ℤ) :
    home original s'.toSignalState x =
      if x ∈ (env.refused (uncounted s.manager applied).reverse w).1 then .forward
      else home original s.toSignalState x := by
  unfold home
  simp only [h.unrestored]
  split_ifs <;> tauto

/-- A handler that cannot be put back belongs to a signal that was not counted. -/
theorem refCount_of_refused
    {x : ℤ} (hx : x ∈ (env.refused (uncounted s.manager applied).reverse w).1) :
    s.manager.refCount x = 0 :=
  (mem_uncounted.mp (List.mem_reverse.mp (mem_of_mem_refused env hx))).2

/-- The handlers are as they were. -/
theorem dispositions_iff (h : LeftBehind env original surplus s applied signal w s') :
    (∀ x, s'.dispositions x = s.dispositions x) ↔
      ∀ x ∈ (env.refused (uncounted s.manager applied).reverse w).1,
        s.dispositions x = .forward := by
  constructor
  · intro hsame x hx
    rw [← hsame, h.counted.installed, h.home_eq, if_pos hx]
    exact ite_self _
  · intro hforward x
    by_cases hx : x ∈ (env.refused (uncounted s.manager applied).reverse w).1
    · rw [hforward x hx, h.counted.installed, h.home_eq, if_pos hx]
      exact ite_self _
    · rw [h.counted.installed, h.before.installed, h.refCount, h.home_eq, if_neg hx]

/-- The handlers that are remembered always are. -/
theorem oldHandlers_eq (h : LeftBehind env original surplus s applied signal w s') (x : ℤ) :
    s'.manager.oldHandlers.lookup x = s.manager.oldHandlers.lookup x := by
  rw [h.counted.remembered, h.before.remembered, h.refCount, h.home_eq]
  by_cases hx : x ∈ (env.refused (uncounted s.manager applied).reverse w).1
  · have hzero : ¬ 0 < s.manager.refCount x := by
      rw [refCount_of_refused hx]
      exact Nat.lt_irrefl 0
    rw [if_neg hzero, if_neg hzero]
  · rw [if_neg hx]

/-- **What is left is nothing exactly if the call could undo what it did.** -/
theorem traceless_iff (h : LeftBehind env original surplus s applied signal w s')
    (hnew : outOfRange signal = false → signal ∉ applied) :
    Traceless s.toSignalState s'.toSignalState ↔ Reversible env s applied signal w := by
  have hempty : (∀ x, x ∈ s'.manager.signalRefs ↔ x ∈ s.manager.signalRefs) →
      (s'.manager.signalRefs.entries = [] ↔ s.manager.signalRefs.entries = []) := by
    intro hsame
    rw [entries_eq_nil, entries_eq_nil]
    exact forall_congr' fun x => not_congr (hsame x)
  constructor
  · intro htraceless
    have hsame := fun x => (h.lookup_eq_iff x).mp (htraceless.signalRefs x)
    obtain ⟨hcounter, hleftovers⟩ := (h.refs_iff hnew).mp hsame
    refine ⟨hcounter, hleftovers, h.dispositions_iff.mp htraceless.dispositions, fun hidle => ?_⟩
    exact (hempty hsame).mp (h.worker.mp (htraceless.idle hidle)).2
  · intro hreversible
    have hsame := (h.refs_iff hnew).mpr ⟨hreversible.counter, hreversible.leftovers⟩
    refine ⟨h.registrations, fun x => (h.lookup_eq_iff x).mpr (hsame x), h.oldHandlers_eq,
      h.dispositions_iff.mpr hreversible.handlers, fun hidle => h.worker.mpr ⟨?_, ?_⟩⟩
    · rw [h.registrations, hidle]
    · exact (hempty hsame).mpr (hreversible.idle hidle)

end LeftBehind

/-- A registration that does not give up succeeds, or has no pipe and leaves no trace. -/
theorem traceless_of_not_givesUp {s s' : SignalSys W} {signals : List ℤ} {childPid : ℕ}
    {error : Error} (hsteady : Steady s.toSignalState)
    (hcounted : Counted original surplus [] s.toSignalState)
    (hrun : register env signals childPid s = (.err error, s'))
    (hnot : ∀ applied signal w, ¬ GivesUp env s signals applied signal w) :
    Traceless s.toSignalState s'.toSignalState := by
  unfold register at hrun
  cases hstart : loopStart env s with
  | none =>
    -- the pipe could not be made: nothing has been touched
    obtain ⟨error', w, hensure, hnone⟩ := ensureWorker_of_loopStart_none hstart
    have hun : Uninstalled s.toSignalState := by
      refine hsteady.wired.resolve_left ?_
      rintro ⟨fd, hfd⟩
      have hworker := hnone.symm.trans hfd.2.1
      cases hworker
    have hinner : registerInner env signals childPid s =
        (.err (.io error'), { s with world := w }) := bind_of_err hensure
    rw [bind_of_ok (attempt_of_err hinner)] at hrun
    dsimp only at hrun
    have htake : takeShutdownIfIdle { s with world := w } = (.ok none, { s with world := w }) := by
      unfold takeShutdownIfIdle
      rw [manager_bind]
      split
      · rfl
      · dsimp only
        rw [hun.1]
        rfl
    rw [bind_of_ok htake] at hrun
    obtain rfl := (Prod.mk.inj hrun).2
    exact ⟨rfl, fun _ => rfl, fun _ => rfl, fun _ => rfl, fun _ => hun⟩
  | some w₀ =>
    obtain ⟨s₀, fd, hensure, rfl, hfd, hsteady₀, hsame₀⟩ :=
      ensureWorker_of_loopStart hsteady hstart
    have hnil : Applied env original surplus s₀ [] s₀ :=
      applied_nil (hcounted.of_sameSignals hsame₀)
    rcases hnil.applySignals_cases signals with
      ⟨s₁, hok⟩ | ⟨applied, signal, w₁, w, hinitial, hrange, haccepted, hstops⟩
    · -- the registration succeeds
      have hinner : registerInner env signals childPid s =
          insertRegistration signals childPid s₁ := by
        rw [registerInner, bind_of_ok hensure, bind_of_ok hok]
      have hregistered := attempt_of_ok (hinner.trans rfl)
      rw [bind_of_ok hregistered] at hrun
      cases hrun
    · refine absurd ⟨hinitial, hrange, s₀.world, w₁, hstart, ?_, ?_⟩ (hnot applied signal w)
      · rw [← hsame₀.uncounted_eq]
        exact haccepted
      · rwa [List.nil_append, Stops, hsame₀.refCount_eq] at hstops

end Loops

/-- **When a failed registration leaves no trace**: in every state that calls can lead to, for
every list, process and answers of the system calls, exactly if wherever the registration gives
up it can undo what it has done. -/
theorem register_traceless_iff (original : ℤ → ℕ) (w : W) (calls : List Call) (signals : List ℤ)
    (childPid : ℕ) :
    (∀ error s', register env signals childPid (runCalls env (initial original w) calls) =
        (.err error, s') →
      Traceless (runCalls env (initial original w) calls).toSignalState s'.toSignalState) ↔
    ∀ applied signal w',
      GivesUp env (runCalls env (initial original w) calls) signals applied signal w' →
      Reversible env (runCalls env (initial original w) calls) applied signal w' := by
  have hsettled := runCalls_settled env calls (settled_initial original w)
  obtain ⟨surplus, -, hcounted⟩ := hsettled.counted
  have hnew : ∀ {applied signal w'},
      GivesUp env (runCalls env (initial original w) calls) signals applied signal w' →
      outOfRange signal = false → signal ∉ applied := by
    rintro applied signal w' ⟨-, -, w₀, w₁, -, -, ⟨hout, -⟩ | ⟨-, -, hnew, -⟩⟩ hrange
    · rw [hrange] at hout
      cases hout
    · exact hnew
  constructor
  · intro h applied signal w' hgives
    obtain ⟨error, s', hrun, hleft⟩ := hgives.register childPid hsettled.toSteady hcounted
    exact (hleft.traceless_iff (hnew hgives)).mp (h error s' hrun)
  · intro h error s' hrun
    by_cases hgives : ∃ applied signal w',
        GivesUp env (runCalls env (initial original w) calls) signals applied signal w'
    · -- a call gives up in one place only, as what it does is determined
      obtain ⟨applied, signal, w', hgives⟩ := hgives
      obtain ⟨error', s'', hrun', hleft⟩ := hgives.register childPid hsettled.toSteady hcounted
      obtain rfl := (Prod.mk.inj (hrun'.symm.trans hrun)).2
      exact (hleft.traceless_iff (hnew hgives)).mpr (h applied signal w' hgives)
    · refine traceless_of_not_givesUp hsettled.toSteady hcounted hrun ?_
      exact fun applied signal w' hg => hgives ⟨applied, signal, w', hg⟩

/-- `signal(2)` refuses `SIGKILL`. -/
def refusesKill : SignalEnv Unit where
  signal signal w :=
    (if signal = 9 then some ⟨.other 22, "Invalid argument (os error 22)", some 22⟩ else none, w)
  pipe w := (.ok (3, 4), w)

/-- **A registration that is refused leaves a counter and a worker**: the first call asks for
`SIGTERM` and `SIGKILL`, and fails. -/
theorem refused_registration_leaves_worker :
    ∃ error s', register refusesKill [15, 9] 7 (initial (fun _ => 0) ()) = (.err error, s') ∧
      s'.manager.signalRefs.lookup 9 = some 0 ∧ s'.manager.worker = some ⟨0⟩ ∧
      ¬ Traceless (initial (fun _ => 0) ()).toSignalState s'.toSignalState := by
  refine ⟨_, _, rfl, rfl, rfl, fun htraceless => ?_⟩
  have hcounter := htraceless.signalRefs 9
  cases hcounter

end Signal

end FirecrackerSdk
