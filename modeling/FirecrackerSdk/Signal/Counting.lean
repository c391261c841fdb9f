import FirecrackerSdk.Signal.Manager
import Mathlib.Algebra.BigOperators.Group.List.Basic
import Mathlib.Data.List.Count

/-!
# The counters of the signal forwarding manager

A signal is counted once for each time that it stands in the list of a live registration.
Between the steps of `register_inner` and `release_signals` the counters are ahead of the
registrations by the signals that the running call holds: those it has applied and not yet
registered, or has taken from a registration and not yet released. The invariant
(`FirecrackerSdk.Signal.Counted`) says so, with the signals held as a parameter, and says in
terms of the counters which handler is installed and which one is remembered.

Each piece of the manager has one lemma that tells what it does to the signals held:
applying adds one (`FirecrackerSdk.Signal.applySignal_spec`), releasing takes one away and
never underflows (`FirecrackerSdk.Signal.releaseSignal_spec`), and registrations turn held
signals into live ones and back.

The numbers of registrations wrap around, so after very many of them a new one may take the
place of an old one, whose signals are then never released. The invariant allows for that
with a surplus, which is zero as long as numbers do not repeat.
-/

namespace FirecrackerSdk

namespace Signal

open Prog

variable {W : Type} (env : SignalEnv W)

/-! ### The invariant -/

/-- How many times a signal stands in the lists of the live registrations. -/
def registered (m : SignalForwardManager) (signal : ℤ) : ℕ :=
  (m.registrations.entries.map fun e => e.2.signals.count signal).sum

/-- What a signal does when it is not forwarded: what it did before the first registration,
unless that could not be restored. -/
def home (original : ℤ → ℕ) (s : SignalState) (signal : ℤ) : Disposition :=
  if signal ∈ s.unrestored then .forward else .other (original signal)

/-- **The counters agree with the registrations and the signals held**, and the handlers with
the counters. -/
structure Counted (original surplus : ℤ → ℕ) (held : List ℤ) (s : SignalState) : Prop where
  refs : ∀ signal, s.manager.refCount signal =
    registered s.manager signal + held.count signal + surplus signal
  remembered : ∀ signal, s.manager.oldHandlers.lookup signal =
    if 0 < s.manager.refCount signal then some (home original s signal) else none
  installed : ∀ signal, s.dispositions signal =
    if 0 < s.manager.refCount signal then .forward else home original s signal

/-- The order of the signals held does not matter. -/
theorem Counted.perm {original surplus : ℤ → ℕ} {held held' : List ℤ} {s : SignalState}
    (h : Counted original surplus held s) (hperm : held.Perm held') :
    Counted original surplus held' s :=
  ⟨fun signal => by rw [h.refs, hperm.count_eq], h.remembered, h.installed⟩

/-- Everything but the counters and the handlers is as it was. -/
structure Untouched (s s' : SignalState) : Prop where
  registrations : s'.manager.registrations = s.manager.registrations
  nextRegistrationId : s'.manager.nextRegistrationId = s.manager.nextRegistrationId
  writeFd : s'.manager.writeFd = s.manager.writeFd
  worker : s'.manager.worker = s.manager.worker
  pipeWriteFd : s'.pipeWriteFd = s.pipeWriteFd
  pipes : s'.pipes = s.pipes
  issued : s'.issued = s.issued

theorem Untouched.refl (s : SignalState) : Untouched s s := ⟨rfl, rfl, rfl, rfl, rfl, rfl, rfl⟩

theorem Untouched.trans {s t u : SignalState} (h : Untouched s t) (h' : Untouched t u) :
    Untouched s u :=
  ⟨h'.1.trans h.1, h'.2.trans h.2, h'.3.trans h.3, h'.4.trans h.4, h'.5.trans h.5,
    h'.6.trans h.6, h'.7.trans h.7⟩

theorem Untouched.registered_eq {s s' : SignalState} (h : Untouched s s') (signal : ℤ) :
    registered s'.manager signal = registered s.manager signal := by
  rw [registered, h.registrations, registered]

/-! ### Counters as a map -/

theorem refCount_setRef (m : SignalForwardManager) (signal x : ℤ) (count : ℕ) :
    (m.setRef signal count).refCount x = if x = signal then count else m.refCount x := by
  unfold SignalForwardManager.refCount SignalForwardManager.setRef
  by_cases h : x = signal
  · subst h
    rw [if_pos rfl, AList.lookup_insert]
    rfl
  · rw [if_neg h, AList.lookup_insert_ne h]

theorem refCount_eraseRef (m : SignalForwardManager) (signal x : ℤ) :
    (m.eraseRef signal).refCount x = if x = signal then 0 else m.refCount x := by
  unfold SignalForwardManager.refCount SignalForwardManager.eraseRef
  by_cases h : x = signal
  · subst h
    rw [if_pos rfl, AList.lookup_erase]
    rfl
  · rw [if_neg h, AList.lookup_erase_ne h]

/-- The entry that `or_default` makes does not change any count. -/
theorem refCount_orDefault (m : SignalForwardManager) (signal x : ℤ) :
    (m.orDefault signal).refCount x = m.refCount x := by
  by_cases hmem : signal ∈ m.signalRefs
  · unfold SignalForwardManager.orDefault
    rw [if_pos hmem]
  · have heq : m.orDefault signal = m.setRef signal 0 := by
      unfold SignalForwardManager.orDefault
      rw [if_neg hmem]
      rfl
    rw [heq, refCount_setRef]
    split
    · rename_i hx
      rw [hx, SignalForwardManager.refCount, AList.lookup_eq_none.mpr hmem]
      rfl
    · rfl

/-! ### One signal at a time -/

/-- All other signals are as they were. -/
structure Elsewhere (signal : ℤ) (s s' : SignalState) : Prop where
  refs : ∀ x, x ≠ signal → s'.manager.refCount x = s.manager.refCount x
  remembered : ∀ x, x ≠ signal →
    s'.manager.oldHandlers.lookup x = s.manager.oldHandlers.lookup x
  installed : ∀ x, x ≠ signal → s'.dispositions x = s.dispositions x
  unrestored : ∀ x, x ≠ signal → (x ∈ s'.unrestored ↔ x ∈ s.unrestored)

/-- Where only one signal changes, only that signal has to be looked at. -/
theorem Counted.of_elsewhere {original surplus : ℤ → ℕ} {held held' : List ℤ}
    {s s' : SignalState} (signal : ℤ) (h : Counted original surplus held s) (hsame : Untouched s s')
    (helse : Elsewhere signal s s') (hheld : ∀ x, x ≠ signal → held'.count x = held.count x)
    (hrefs : s'.manager.refCount signal =
      registered s.manager signal + held'.count signal + surplus signal)
    (hremembered : s'.manager.oldHandlers.lookup signal =
      if 0 < s'.manager.refCount signal then some (home original s' signal) else none)
    (hinstalled : s'.dispositions signal =
      if 0 < s'.manager.refCount signal then .forward else home original s' signal) :
    Counted original surplus held' s' := by
  have hhome : ∀ x, x ≠ signal → home original s' x = home original s x := by
    intro x hx
    unfold home
    by_cases hmem : x ∈ s.unrestored
    · rw [if_pos hmem, if_pos ((helse.unrestored x hx).mpr hmem)]
    · rw [if_neg hmem, if_neg fun hmem' => hmem ((helse.unrestored x hx).mp hmem')]
  refine ⟨fun x => ?_, fun x => ?_, fun x => ?_⟩ <;> by_cases hx : x = signal
  · rw [hx, hrefs, hsame.registered_eq]
  · rw [helse.refs x hx, h.refs, hsame.registered_eq, hheld x hx]
  · rw [hx, hremembered]
  · rw [helse.remembered x hx, h.remembered, helse.refs x hx, hhome x hx]
  · rw [hx, hinstalled]
  · rw [helse.installed x hx, h.installed, helse.refs x hx, hhome x hx]

/-- The two ways in which `signal(2)` ends. -/
theorem libcSignal_cases (signal : ℤ) (handler : Disposition) (s : SignalSys W) :
    (∃ w, libcSignal env signal handler s = (.ok (.ok (s.dispositions signal)),
      { s with dispositions := Function.update s.dispositions signal handler, world := w })) ∨
    ∃ error w, libcSignal env signal handler s = (.ok (.error error), { s with world := w }) := by
  unfold libcSignal
  rcases env.signal signal s.world with ⟨_ | error, w⟩
  · exact .inl ⟨w, rfl⟩
  · exact .inr ⟨error, w, rfl⟩

theorem manager_bind {β : Type} (f : SignalForwardManager → SignalOp W β) (s : SignalSys W) :
    (manager >>= f) s = f s.manager s := rfl

theorem update_bind {β : Type} (g : SignalForwardManager → SignalForwardManager)
    (f : Unit → SignalOp W β) (s : SignalSys W) :
    (update g >>= f) s = f () { s with manager := g s.manager } := rfl

/-- **Applying a signal**: it is held from then on, or it could not be installed and nothing
is counted. -/
theorem applySignal_spec {original surplus : ℤ → ℕ} {held : List ℤ} {s : SignalSys W}
    (signal : ℤ) (h : Counted original surplus held s.toSignalState) :
    ∃ o s', applySignal env signal s = (o, s') ∧ Untouched s.toSignalState s'.toSignalState ∧
      (o = .ok () ∧ Counted original surplus (signal :: held) s'.toSignalState ∨
        ∃ e, o = .err e ∧ Counted original surplus held s'.toSignalState) := by
  unfold applySignal
  rw [update_bind, manager_bind]
  set s₁ : SignalSys W := { s with manager := s.manager.orDefault signal } with hs₁
  have hsame₁ : Untouched s.toSignalState s₁.toSignalState := ⟨rfl, rfl, rfl, rfl, rfl, rfl, rfl⟩
  have hcount : ∀ x, s₁.manager.refCount x = s.manager.refCount x :=
    refCount_orDefault s.manager signal
  -- an entry at zero counts nothing
  have h₁ : Counted original surplus held s₁.toSignalState := by
    refine ⟨fun x => ?_, fun x => ?_, fun x => ?_⟩
    · rw [hcount, h.refs]
      rfl
    · rw [hcount]
      exact h.remembered x
    · rw [hcount]
      exact h.installed x
  have hheld : ∀ x, x ≠ signal → (signal :: held).count x = held.count x :=
    fun x hx => List.count_cons_of_ne (Ne.symm hx)
  have hrefs := h₁.refs signal
  by_cases hzero : s₁.manager.refCount signal = 0
  · rw [if_pos hzero]
    have hhome : s₁.dispositions signal = home original s₁.toSignalState signal := by
      rw [h₁.installed, hzero]
      rfl
    rcases libcSignal_cases env signal .forward s₁ with ⟨w, hcall⟩ | ⟨error, w, hcall⟩
    · -- the handler is installed, and the one before is remembered
      rw [bind_of_ok hcall]
      refine ⟨.ok (), _, rfl, ⟨rfl, rfl, rfl, rfl, rfl, rfl, rfl⟩, .inl ⟨rfl, ?_⟩⟩
      have hone := refCount_setRef (s₁.manager.remember signal (s₁.dispositions signal)) signal
        signal (s₁.manager.refCount signal + 1)
      rw [if_pos rfl] at hone
      have hpos := (Nat.succ_pos (s₁.manager.refCount signal)).trans_eq hone.symm
      refine h₁.of_elsewhere signal ⟨rfl, rfl, rfl, rfl, rfl, rfl, rfl⟩
        ⟨fun x hx => ?_, fun x hx => ?_, fun x hx => ?_, fun x hx => Iff.rfl⟩ hheld ?_ ?_ ?_
      · exact (refCount_setRef _ _ _ _).trans (if_neg hx)
      · exact AList.lookup_insert_ne hx
      · exact Function.update_of_ne hx _ _
      · refine hone.trans ?_
        rw [List.count_cons_self, hrefs]
        omega
      · refine (AList.lookup_insert _).trans (.trans ?_ (if_pos hpos).symm)
        rw [hhome]
        rfl
      · exact (Function.update_self _ _ _).trans (if_pos hpos).symm
    · rw [bind_of_ok hcall]
      -- `signal` fails, and only the entry at zero stays behind
      exact ⟨_, _, rfl, ⟨rfl, rfl, rfl, rfl, rfl, rfl, rfl⟩, .inr ⟨_, rfl, h₁⟩⟩
  · -- someone else has installed the handler: only the counter goes up
    rw [if_neg hzero]
    refine ⟨.ok (), _, rfl, ⟨rfl, rfl, rfl, rfl, rfl, rfl, rfl⟩, .inl ⟨rfl, ?_⟩⟩
    have hone := refCount_setRef s₁.manager signal signal (s₁.manager.refCount signal + 1)
    rw [if_pos rfl] at hone
    have hpos := (Nat.succ_pos (s₁.manager.refCount signal)).trans_eq hone.symm
    refine h₁.of_elsewhere signal ⟨rfl, rfl, rfl, rfl, rfl, rfl, rfl⟩
      ⟨fun x hx => ?_, fun x hx => rfl, fun x hx => rfl, fun x hx => Iff.rfl⟩ hheld ?_ ?_ ?_
    · exact (refCount_setRef _ _ _ _).trans (if_neg hx)
    · refine hone.trans ?_
      rw [List.count_cons_self, hrefs]
      omega
    · refine (h₁.remembered signal).trans (.trans ?_ (if_pos hpos).symm)
      rw [if_pos (Nat.pos_of_ne_zero hzero)]
      rfl
    · refine (h₁.installed signal).trans (.trans ?_ (if_pos hpos).symm)
      rw [if_pos (Nat.pos_of_ne_zero hzero)]

/-- **Releasing a signal that is held**: the counter does not underflow, and the signal is
held no more. -/
theorem releaseSignal_spec {original surplus : ℤ → ℕ} {held : List ℤ} {s : SignalSys W}
    {signal : ℤ} (h : Counted original surplus (signal :: held) s.toSignalState) :
    ∃ s', releaseSignal env signal s = (.ok (), s') ∧
      Untouched s.toSignalState s'.toSignalState ∧
      Counted original surplus held s'.toSignalState := by
  have hheld : ∀ x, x ≠ signal → held.count x = (signal :: held).count x :=
    fun x hx => (List.count_cons_of_ne (Ne.symm hx)).symm
  have hrefs := h.refs signal
  rw [List.count_cons_self] at hrefs
  unfold releaseSignal
  rw [manager_bind]
  -- a signal that is held has a counter
  have hlookup : s.manager.signalRefs.lookup signal = some (s.manager.refCount signal) := by
    cases hl : s.manager.signalRefs.lookup signal with
    | none =>
      rw [SignalForwardManager.refCount, hl] at hrefs
      simp at hrefs
      omega
    | some count => rw [SignalForwardManager.refCount, hl]; rfl
  obtain ⟨count, hcount⟩ : ∃ count, s.manager.refCount signal = count + 1 :=
    ⟨registered s.manager signal + held.count signal + surplus signal, by omega⟩
  rw [hlookup, hcount]
  dsimp only
  by_cases hmore : 0 < count
  · -- someone else still wants the signal
    rw [if_pos hmore]
    have hset := refCount_setRef s.manager signal signal count
    rw [if_pos rfl] at hset
    have hpos := hmore.trans_eq hset.symm
    refine ⟨_, rfl, ⟨rfl, rfl, rfl, rfl, rfl, rfl, rfl⟩, ?_⟩
    refine h.of_elsewhere signal ⟨rfl, rfl, rfl, rfl, rfl, rfl, rfl⟩
      ⟨fun x hx => ?_, fun x hx => rfl, fun x hx => rfl, fun x hx => Iff.rfl⟩ hheld ?_ ?_ ?_
    · exact (refCount_setRef _ _ _ _).trans (if_neg hx)
    · refine hset.trans ?_
      omega
    · refine (h.remembered signal).trans (.trans ?_ (if_pos hpos).symm)
      rw [hcount, if_pos (Nat.succ_pos _)]
      rfl
    · refine (h.installed signal).trans (.trans ?_ (if_pos hpos).symm)
      rw [hcount, if_pos (Nat.succ_pos _)]
  · -- the last one: the old handler comes back, if it can
    rw [if_neg hmore, update_bind, manager_bind]
    have hremembered : ({ s with manager := s.manager.eraseRef signal } :
        SignalSys W).manager.oldHandlers.lookup signal =
        some (home original s.toSignalState signal) := by
      refine (h.remembered signal).trans (if_pos ?_)
      rw [hcount]
      exact Nat.succ_pos _
    rw [hremembered]
    dsimp only
    rw [update_bind]
    set s₁ : SignalSys W := { s with
      manager := (s.manager.eraseRef signal).forget signal } with hs₁
    have hzero : s₁.manager.refCount signal = 0 :=
      (refCount_eraseRef s.manager signal signal).trans (if_pos rfl)
    have hnot : ¬ 0 < s₁.manager.refCount signal := by omega
    have helse : Elsewhere signal s.toSignalState s₁.toSignalState := by
      refine ⟨fun x hx => ?_, fun x hx => ?_, fun x hx => rfl, fun x hx => Iff.rfl⟩
      · exact (refCount_eraseRef s.manager signal x).trans (if_neg hx)
      · exact AList.lookup_erase_ne hx
    have hgone : s₁.manager.oldHandlers.lookup signal = none := AList.lookup_erase _ _
    have hrest : 0 = registered s.manager signal + held.count signal + surplus signal := by omega
    rcases libcSignal_cases env signal (home original s.toSignalState signal) s₁ with
      ⟨w, hcall⟩ | ⟨error, w, hcall⟩
    · refine ⟨_, bind_of_ok hcall, ⟨rfl, rfl, rfl, rfl, rfl, rfl, rfl⟩, ?_⟩
      refine h.of_elsewhere signal ⟨rfl, rfl, rfl, rfl, rfl, rfl, rfl⟩
        ⟨helse.refs, helse.remembered, fun x hx => ?_, fun x hx => Iff.rfl⟩ hheld ?_ ?_ ?_
      · exact Function.update_of_ne hx _ _
      · exact hzero.trans hrest
      · exact hgone.trans (if_neg hnot).symm
      · exact (Function.update_self _ _ _).trans (if_neg hnot).symm
    · refine ⟨_, bind_of_ok hcall, ⟨rfl, rfl, rfl, rfl, rfl, rfl, rfl⟩, ?_⟩
      refine h.of_elsewhere signal ⟨rfl, rfl, rfl, rfl, rfl, rfl, rfl⟩
        ⟨helse.refs, helse.remembered, fun x hx => rfl, fun x hx => ?_⟩ hheld ?_ ?_ ?_
      · exact List.mem_cons.trans (or_iff_right hx)
      · exact hzero.trans hrest
      · exact hgone.trans (if_neg hnot).symm
      · refine .trans ?_ (if_neg hnot).symm
        refine (h.installed signal).trans ?_
        rw [hcount, if_pos (Nat.succ_pos _)]
        exact (if_pos List.mem_cons_self).symm

/-! ### The loops -/

/-- Releasing everything that is held. -/
theorem releaseEach_spec {original surplus : ℤ → ℕ} {held : List ℤ} (signals : List ℤ)
    {s : SignalSys W} (h : Counted original surplus (signals ++ held) s.toSignalState) :
    ∃ s', releaseEach env signals s = (.ok (), s') ∧
      Untouched s.toSignalState s'.toSignalState ∧
      Counted original surplus held s'.toSignalState := by
  induction signals generalizing s with
  | nil => exact ⟨s, rfl, .refl _, h⟩
  | cons signal signals ih =>
    obtain ⟨s₁, h₁, hsame₁, hcounted₁⟩ := releaseSignal_spec env h
    obtain ⟨s₂, h₂, hsame₂, hcounted₂⟩ := ih hcounted₁
    exact ⟨s₂, (bind_of_ok h₁).trans h₂, hsame₁.trans hsame₂, hcounted₂⟩

theorem releaseSignals_spec {original surplus : ℤ → ℕ} {signals : List ℤ} {s : SignalSys W}
    (h : Counted original surplus signals s.toSignalState) :
    ∃ s', releaseSignals env signals s = (.ok (), s') ∧
      Untouched s.toSignalState s'.toSignalState ∧
      Counted original surplus [] s'.toSignalState := by
  refine releaseEach_spec env signals.reverse (h.perm ?_)
  rw [List.append_nil]
  exact (List.reverse_perm signals).symm

/-- **Applying a list of signals**: all of them are held afterwards, or none is. -/
theorem applySignals_spec {original surplus : ℤ → ℕ} (applied signals : List ℤ)
    {s : SignalSys W} (h : Counted original surplus applied s.toSignalState) :
    ∃ o s', applySignals env applied signals s = (o, s') ∧
      Untouched s.toSignalState s'.toSignalState ∧
      (o = .ok () ∧ Counted original surplus (applied ++ signals) s'.toSignalState ∨
        ∃ e, o = .err e ∧ Counted original surplus [] s'.toSignalState) := by
  induction signals generalizing applied s with
  | nil => exact ⟨.ok (), s, rfl, .refl _, .inl ⟨rfl, by rwa [List.append_nil]⟩⟩
  | cons signal signals ih =>
    rw [applySignals]
    split
    · obtain ⟨s₁, h₁, hsame₁, hcounted₁⟩ := releaseSignals_spec env h
      exact ⟨_, s₁, bind_of_ok h₁, hsame₁, .inr ⟨_, rfl, hcounted₁⟩⟩
    · obtain ⟨o₁, s₁, h₁, hsame₁, ⟨rfl, hcounted₁⟩ | ⟨e, rfl, hcounted₁⟩⟩ :=
        applySignal_spec env signal h
      · rw [bind_of_ok (attempt_of_ok h₁)]
        have hperm : (signal :: applied).Perm (applied ++ [signal]) :=
          (List.perm_append_singleton signal applied).symm
        obtain ⟨o₂, s₂, h₂, hsame₂, hend⟩ := ih (applied ++ [signal]) (hcounted₁.perm hperm)
        rw [List.append_assoc] at hend
        exact ⟨o₂, s₂, h₂, hsame₁.trans hsame₂, hend⟩
      · rw [bind_of_ok (attempt_of_err h₁)]
        obtain ⟨s₂, h₂, hsame₂, hcounted₂⟩ := releaseSignals_spec env hcounted₁
        exact ⟨_, s₂, bind_of_ok h₂, hsame₁.trans hsame₂, .inr ⟨_, rfl, hcounted₂⟩⟩

/-! ### Registrations -/

/-- Removing what is not there changes nothing. -/
theorem erase_of_lookup_eq_none {registrations : AList fun _ : ℕ => SignalRegistration}
    {registrationId : ℕ} (h : registrations.lookup registrationId = none) :
    registrations.erase registrationId = registrations :=
  AList.ext (List.kerase_of_notMem_keys (AList.lookup_eq_none.mp h))

/-- What a registration that leaves takes with it. -/
theorem registered_erase {m : SignalForwardManager} {registrationId : ℕ}
    {registration : SignalRegistration}
    (h : m.registrations.lookup registrationId = some registration) (signal : ℤ) :
    registered m signal =
      registered { m with registrations := m.registrations.erase registrationId } signal +
        registration.signals.count signal := by
  have hmem : registrationId ∈ m.registrations.entries.keys :=
    AList.lookup_isSome.mp (Option.isSome_of_eq_some h)
  obtain ⟨b, l₁, l₂, hnot, hentries, herase⟩ := List.exists_of_kerase hmem
  have hb : b = registration := by
    have hlookup : m.registrations.entries.dlookup registrationId = some registration := h
    rw [hentries, List.dlookup_append, List.dlookup_eq_none.mpr hnot, Option.none_or,
      List.dlookup_cons_eq] at hlookup
    exact Option.some.inj hlookup
  unfold registered
  change _ = ((List.kerase registrationId m.registrations.entries).map _).sum + _
  rw [herase, hentries, hb]
  simp only [List.map_append, List.map_cons, List.sum_append, List.sum_cons]
  omega

/-- What a registration that comes brings along, and what the one that it may replace takes
away. -/
theorem registered_insert (m : SignalForwardManager) (registrationId : ℕ)
    (registration : SignalRegistration) (signal : ℤ) :
    registered { m with registrations := m.registrations.insert registrationId registration }
        signal + ((m.registrations.lookup registrationId).elim 0 (·.signals.count signal)) =
      registered m signal + registration.signals.count signal := by
  have hinsert : registered
      { m with registrations := m.registrations.insert registrationId registration } signal =
      registration.signals.count signal +
        registered { m with registrations := m.registrations.erase registrationId } signal := rfl
  rw [hinsert]
  cases hlookup : m.registrations.lookup registrationId with
  | none =>
    rw [erase_of_lookup_eq_none hlookup, Option.elim_none, Nat.add_zero]
    exact Nat.add_comm _ _
  | some replaced =>
    rw [registered_erase hlookup, Option.elim_some]
    omega

/-- **Registering**: the signals held are those of a registration from then on. They stay
counted with no one to release them if the new registration replaces another one. -/
theorem Counted.insertRegistration {original surplus : ℤ → ℕ} {signals : List ℤ}
    {s : SignalSys W} (h : Counted original surplus signals s.toSignalState) (childPid : ℕ) :
    Counted original
      (fun signal => surplus signal + (s.manager.registrations.lookup
        s.manager.nextRegistrationId).elim 0 (·.signals.count signal))
      [] (Signal.insertRegistration signals childPid s).2.toSignalState := by
  refine ⟨fun signal => ?_, h.remembered, h.installed⟩
  have hinsert := registered_insert s.manager s.manager.nextRegistrationId
    ⟨childPid, signals, s.issued⟩ signal
  have hrefs := h.refs signal
  change s.manager.refCount signal = registered { s.manager with
    registrations := s.manager.registrations.insert s.manager.nextRegistrationId
      ⟨childPid, signals, s.issued⟩ } signal + _ + _
  rw [List.count_nil]
  dsimp only at hinsert ⊢
  omega

/-- How a registration is removed, whether or not there is one. -/
theorem removeRegistration_eq (registrationId : ℕ) (s : SignalSys W) :
    removeRegistration registrationId s =
      (.ok ((s.manager.registrations.lookup registrationId).elim [] (·.signals)),
        { s with manager := { s.manager with
          registrations := s.manager.registrations.erase registrationId } }) := by
  unfold removeRegistration
  rw [manager_bind]
  cases hlookup : s.manager.registrations.lookup registrationId with
  | none =>
    rw [erase_of_lookup_eq_none hlookup]
    rfl
  | some registration => rfl

/-- **Removing a registration**: its signals are held from then on. -/
theorem Counted.removeRegistration {original surplus : ℤ → ℕ} {s : SignalState}
    (h : Counted original surplus [] s) (registrationId : ℕ) :
    Counted original surplus
      ((s.manager.registrations.lookup registrationId).elim [] (·.signals))
      { s with manager := { s.manager with
          registrations := s.manager.registrations.erase registrationId } } := by
  refine ⟨fun signal => ?_, h.remembered, h.installed⟩
  have hrefs := h.refs signal
  change s.manager.refCount signal = registered { s.manager with
    registrations := s.manager.registrations.erase registrationId } signal + _ + _
  cases hlookup : s.manager.registrations.lookup registrationId with
  | none =>
    rw [erase_of_lookup_eq_none hlookup, Option.elim_none]
    exact hrefs
  | some registration =>
    rw [registered_erase hlookup, List.count_nil] at hrefs
    rw [Option.elim_some]
    omega

end Signal

end FirecrackerSdk
