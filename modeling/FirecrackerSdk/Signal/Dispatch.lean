import FirecrackerSdk.Signal.Delivery

/-!
# No signal is forwarded twice

From the dispatch of its byte on, the calls of `kill(2)` issued for a delivery and those still
pending are together one for each registration that was live and wanted the signal, however
often the signal stands in its list (`FirecrackerSdk.Signal.Accounted`).

`FirecrackerSdk.Signal.forwarded_once` puts this together with what is known about bytes, for
every sequence of steps. A registration is not the same as a process: two registrations for
one process make two calls (`FirecrackerSdk.Signal.signalled_twice`).
-/

namespace FirecrackerSdk

namespace Signal

open Net

variable {original : ℤ → ℕ} {n n' : Net} {t : ℕ}

/-! ### The calls of `kill(2)` -/

/-- The calls that a worker has still to issue. -/
def Net.pendingKills (n : Net) (pipe : ℕ) : List Kill := (n.workers pipe).elim [] (·.pending)

/-- The calls for one delivery. -/
def killsFor (d : ℕ) (kills : List Kill) : List Kill :=
  kills.filter fun k => decide (k.delivery = some d)

/-- The calls that a delivery gives rise to. -/
def due (d : ℕ) (signal : ℤ) (registrations : List SignalRegistration) : List Kill :=
  (registrations.filter fun r => decide (signal ∈ r.signals)).map fun r =>
    ⟨some d, processId r, signal⟩

/-- **Each registration is signalled once** for each delivery that is dispatched while it is
live, and not before. -/
structure Accounted (n : Net) : Prop where
  pending : ∀ pipe, ∀ k ∈ n.pendingKills pipe, ∃ d dl registrations, k.delivery = some d ∧
    n.deliveries d = some dl ∧ dl.progress = .dispatched pipe registrations
  running : ∀ pipe, n.pendingKills pipe ≠ [] → ∃ w, n.active pipe = some w
  early : ∀ d, (∀ dl pipe registrations, n.deliveries d = some dl →
    dl.progress ≠ .dispatched pipe registrations) → killsFor d n.kills = []
  done : ∀ d dl pipe registrations, n.deliveries d = some dl →
    dl.progress = .dispatched pipe registrations → registrations.Nodup ∧
      (killsFor d n.kills ++ killsFor d (n.pendingKills pipe)).Perm (due d dl.signal registrations)

theorem killsFor_append (d : ℕ) (kills kills' : List Kill) :
    killsFor d (kills ++ kills') = killsFor d kills ++ killsFor d kills' :=
  List.filter_append _ _

theorem killsFor_eq_nil {d : ℕ} {kills : List Kill} (h : ∀ k ∈ kills, k.delivery ≠ some d) :
    killsFor d kills = [] := by
  refine List.filter_eq_nil_iff.mpr fun k hk => ?_
  rw [decide_eq_true_eq]
  exact h k hk

/-- No call is issued, and no dispatch begins or ends. -/
theorem Accounted.of_same (h : Accounted n) (hdeliveries : n'.deliveries = n.deliveries)
    (hkills : n'.kills = n.kills) (hpending : ∀ pipe, n'.pendingKills pipe = n.pendingKills pipe)
    (hrunning : ∀ pipe, n.pendingKills pipe ≠ [] → (∃ w, n.active pipe = some w) →
      ∃ w, n'.active pipe = some w) : Accounted n' := by
  refine ⟨fun pipe => ?_, fun pipe hne => ?_, ?_, ?_⟩
  · rw [hpending, hdeliveries]
    exact h.pending pipe
  · rw [hpending] at hne
    exact hrunning pipe hne (h.running pipe hne)
  · rw [hdeliveries, hkills]
    exact h.early
  · simp only [hdeliveries, hkills, hpending]
    exact h.done

/-- A delivery comes further, but not to its dispatch. -/
theorem Accounted.of_update (h : Accounted n) {d : ℕ} {dl : Delivery}
    (hdeliveries : n'.deliveries = Function.update n.deliveries d (some dl))
    (hbefore : ∀ old pipe registrations, n.deliveries d = some old →
      old.progress ≠ .dispatched pipe registrations)
    (hafter : ∀ pipe registrations, dl.progress ≠ .dispatched pipe registrations)
    (hkills : n'.kills = n.kills) (hworkers : n'.workers = n.workers) : Accounted n' := by
  have hself : n'.deliveries d = some dl := by rw [hdeliveries, Function.update_self]
  have hother : ∀ {d'}, d' ≠ d → n'.deliveries d' = n.deliveries d' := by
    intro d' hne
    rw [hdeliveries, Function.update_of_ne hne]
  have hpending : ∀ pipe, n'.pendingKills pipe = n.pendingKills pipe := fun pipe => by
    rw [pendingKills, hworkers, pendingKills]
  refine ⟨fun pipe k hk => ?_, fun pipe => ?_, fun d' hd' => ?_, fun d' dl' pipe regs hd' => ?_⟩
  · rw [hpending] at hk
    obtain ⟨d', dl', regs, hkd, hdl', hprogress⟩ := h.pending pipe k hk
    refine ⟨d', dl', regs, hkd, (hother ?_).trans hdl', hprogress⟩
    rintro rfl
    exact hbefore dl' pipe regs hdl' hprogress
  · rw [hpending, active, hworkers]
    exact h.running pipe
  · rw [hkills]
    refine h.early d' fun dl' pipe regs hdl' => ?_
    by_cases heq : d' = d
    · subst heq
      exact hbefore dl' pipe regs hdl'
    · exact hd' dl' pipe regs ((hother heq).trans hdl')
  · intro hprogress
    have hne : d' ≠ d := by
      rintro rfl
      rw [← Option.some.inj (hself.symm.trans hd')] at hprogress
      exact hafter pipe regs hprogress
    rw [hkills, hpending]
    exact h.done d' dl' pipe regs ((hother hne).symm.trans hd') hprogress

theorem pendingKills_setWorker (pipe : ℕ) (w : Worker) (pipe' : ℕ) :
    (n.setWorker pipe w).pendingKills pipe' =
      if pipe' = pipe then w.pending else n.pendingKills pipe' := by
  change (Function.update n.workers pipe (some w) pipe').elim [] (·.pending) = _
  by_cases hpipe : pipe' = pipe
  · rw [if_pos hpipe, hpipe, Function.update_self]
    rfl
  · rw [if_neg hpipe, Function.update_of_ne hpipe]
    rfl

theorem pendingKills_of_active {pipe : ℕ} {w : Worker} (hw : n.active pipe = some w) :
    n.pendingKills pipe = w.pending := by
  rw [pendingKills, (active_eq_some.mp hw).1]
  rfl

theorem active_setWorker {pipe pipe' : ℕ} {w : Worker} (hrunning : w.stopped = false)
    (h : ∃ w', n.active pipe' = some w') : ∃ w', (n.setWorker pipe w).active pipe' = some w' := by
  by_cases hpipe : pipe' = pipe
  · subst hpipe
    exact ⟨w, active_eq_some.mpr ⟨Function.update_self _ _ _, hrunning⟩⟩
  · obtain ⟨w', hw'⟩ := h
    obtain ⟨hworker, hrunning'⟩ := active_eq_some.mp hw'
    exact ⟨w', active_eq_some.mpr ⟨(Function.update_of_ne hpipe _ _).trans hworker, hrunning'⟩⟩

/-- The live registrations are different from each other. -/
theorem Steady.nodup_live {s : SignalState} (h : Steady s) : (Signal.live s).Nodup := by
  have hdistinct := h.distinct
  rw [show (fun e : (_ : ℕ) × SignalRegistration => e.2.serial) =
    SignalRegistration.serial ∘ Sigma.snd from rfl, ← List.map_map] at hdistinct
  exact hdistinct.of_map

/-- A worker collects the registrations for a byte. -/
theorem Accounted.dispatch (h : Accounted n) (hguarded : Guarded original n)
    (hdelivered : Delivered n) {pipe : ℕ} {w : Worker} {cell : Cell} {buffer : List Cell}
    {found : List SignalRegistration} (hw : n.active pipe = some w) (hidle : w.pending = [])
    (hbuffer : w.buffer = cell :: buffer) (hbyte : cell.byte ≠ 0)
    (hfound : found.Perm (n.targets cell.byte)) :
    Accounted ((n.proceedCell cell (.dispatched pipe (live n.sys))).setWorker pipe
      { w with buffer := buffer, pending := found.map (killOf cell) }) := by
  obtain ⟨d, dl, hd, hdl, hsignal, hwritten, -⟩ := hdelivered.head hw hbuffer hbyte
  have hnone : n.pendingKills pipe = [] := (pendingKills_of_active hw).trans hidle
  rw [proceedCell, hd]
  dsimp only
  set dl' : Delivery := { dl with progress := .dispatched pipe (live n.sys) }
  set m := n.proceed d (.dispatched pipe (live n.sys))
  have hdeliveries : m.deliveries = Function.update n.deliveries d (some dl') :=
    proceed_deliveries hdl
  have hself : m.deliveries d = some dl' := by rw [hdeliveries, Function.update_self]
  have hother : ∀ {d'}, d' ≠ d → m.deliveries d' = n.deliveries d' := by
    intro d' hne
    rw [hdeliveries, Function.update_of_ne hne]
  -- no kill has been issued for the delivery before
  have hearly : killsFor d n.kills = [] := by
    refine h.early d fun old pipe' regs hold => ?_
    rw [← Option.some.inj (hdl.symm.trans hold), hwritten]
    rintro ⟨⟩
  have hnew : ∀ k ∈ found.map (killOf cell), k.delivery = some d := by
    intro k hk
    obtain ⟨r, -, rfl⟩ := List.mem_map.mp hk
    exact hd
  have hpending := pendingKills_setWorker (n := m) pipe
    { w with buffer := buffer, pending := found.map (killOf cell) }
  refine ⟨fun pipe' k hk => ?_, fun pipe' hne => ?_, fun d' hd' => ?_,
    fun d' old pipe' regs hold hprogress => ?_⟩
  · rw [hpending] at hk
    split at hk
    · rename_i hpipe
      exact ⟨d, dl', live n.sys, hnew k hk, hself, by rw [hpipe]⟩
    · obtain ⟨d', old, regs, hkd, hold, hprogress⟩ := h.pending pipe' k hk
      refine ⟨d', old, regs, hkd, (hother ?_).trans hold, hprogress⟩
      rintro rfl
      rw [← Option.some.inj (hdl.symm.trans hold), hwritten] at hprogress
      cases hprogress
  · rw [hpending] at hne
    refine active_setWorker (active_eq_some.mp hw).2 ?_
    split at hne
    · rename_i hpipe
      exact ⟨w, by rw [hpipe]; exact hw⟩
    · exact h.running pipe' hne
  · refine h.early d' fun old pipe' regs hold => ?_
    have hne : d' ≠ d := by
      rintro rfl
      exact hd' dl' pipe (live n.sys) hself rfl
    exact hd' old pipe' regs ((hother hne).trans hold)
  · rw [hpending]
    by_cases heq : d' = d
    · -- the kills to issue are one for each registration that lists the signal
      subst heq
      obtain rfl := Option.some.inj (hself.symm.trans hold)
      obtain ⟨rfl, rfl⟩ := Progress.dispatched.inj hprogress
      refine ⟨hguarded.orderly.steady.nodup_live, ?_⟩
      rw [if_pos rfl]
      change (killsFor d' n.kills ++ killsFor d' (found.map (killOf cell))).Perm _
      rw [hearly, List.nil_append, killsFor, List.filter_eq_self.mpr fun k hk =>
        decide_eq_true (hnew k hk)]
      rw [targets, hguarded.clean] at hfound
      refine (hfound.map (killOf cell)).trans (.of_eq ?_)
      unfold due
      rw [if_neg Bool.false_ne_true, hsignal]
      refine List.map_congr_left fun r _ => ?_
      rw [killOf, hd, hsignal]
    · -- the worker had nothing to issue, so the others lose nothing
      have hold' := (hother heq).symm.trans hold
      obtain ⟨hnodup, hperm⟩ := h.done d' old pipe' regs hold' hprogress
      refine ⟨hnodup, ?_⟩
      split
      · rename_i hpipe
        rw [hpipe, hnone] at hperm
        rw [killsFor_eq_nil fun k hk hkd => heq (Option.some.inj (hkd.symm.trans (hnew k hk)))]
        exact hperm
      · exact hperm

/-- A worker issues a call. -/
theorem Accounted.kill (h : Accounted n) {pipe : ℕ} {w : Worker} {k : Kill} {pending : List Kill}
    (hw : n.active pipe = some w) (hpending : w.pending = k :: pending) :
    Accounted { n.setWorker pipe { w with pending := pending } with kills := n.kills ++ [k] } := by
  have hbefore : n.pendingKills pipe = k :: pending := (pendingKills_of_active hw).trans hpending
  have hafter := pendingKills_setWorker (n := n) pipe { w with pending := pending }
  obtain ⟨d₀, dl₀, regs₀, hk₀, hdl₀, hprogress₀⟩ :=
    h.pending pipe k (by rw [hbefore]; exact List.mem_cons_self)
  refine ⟨fun pipe' k' hk' => ?_, fun pipe' hne => ?_, fun d hd => ?_,
    fun d dl pipe' regs hdl hprogress => ?_⟩
  · change k' ∈ (n.setWorker pipe _).pendingKills pipe' at hk'
    rw [hafter] at hk'
    split at hk'
    · rename_i hpipe
      refine h.pending pipe' k' ?_
      rw [hpipe, hbefore]
      exact List.mem_cons_of_mem _ hk'
    · exact h.pending pipe' k' hk'
  · change (n.setWorker pipe _).pendingKills pipe' ≠ [] at hne
    rw [hafter] at hne
    refine active_setWorker (n := n) (active_eq_some.mp hw).2 ?_
    split at hne
    · rename_i hpipe
      exact ⟨w, by rw [hpipe]; exact hw⟩
    · exact h.running pipe' hne
  · change killsFor d (n.kills ++ [k]) = []
    rw [killsFor_append, h.early d hd, List.nil_append]
    refine killsFor_eq_nil fun k' hk' hkd => ?_
    rw [List.mem_singleton.mp hk', hk₀] at hkd
    obtain rfl := Option.some.inj hkd
    exact hd dl₀ pipe regs₀ hdl₀ hprogress₀
  · obtain ⟨hnodup, hperm⟩ := h.done d dl pipe' regs hdl hprogress
    refine ⟨hnodup, ?_⟩
    change (killsFor d (n.kills ++ [k]) ++
      killsFor d ((n.setWorker pipe _).pendingKills pipe')).Perm _
    rw [hafter, killsFor_append]
    split
    · rename_i hpipe
      -- the kill goes from the head of the one list to the end of the other
      rw [hpipe, hbefore, ← List.singleton_append, killsFor_append] at hperm
      rw [List.append_assoc]
      exact hperm
    · rename_i hpipe
      -- a delivery dispatched in another pipe
      have hskip : killsFor d [k] = [] := by
        refine killsFor_eq_nil fun k' hk' hkd => hpipe ?_
        rw [List.mem_singleton.mp hk', hk₀] at hkd
        obtain rfl := Option.some.inj hkd
        rw [Option.some.inj (hdl.symm.trans hdl₀), hprogress₀] at hprogress
        exact (Progress.dispatched.inj hprogress).1.symm
      rw [hskip, List.append_nil]
      exact hperm

/-- A worker changes what it has read. -/
theorem Accounted.of_worker (h : Accounted n) {pipe : ℕ} {w w' : Worker}
    (hw : n.active pipe = some w) (hworkers : n'.workers = (n.setWorker pipe w').workers)
    (hpending : w'.pending = w.pending) (hrunning : w.pending ≠ [] → w'.stopped = false)
    (hdeliveries : n'.deliveries = n.deliveries) (hkills : n'.kills = n.kills) :
    Accounted n' := by
  refine h.of_same hdeliveries hkills (fun pipe' => ?_) fun pipe' hne hactive => ?_
  · rw [pendingKills, hworkers]
    refine (pendingKills_setWorker pipe w' pipe').trans ?_
    split
    · rename_i hpipe
      rw [hpipe, pendingKills_of_active hw, hpending]
    · rfl
  · rw [active, hworkers]
    by_cases hpipe : pipe' = pipe
    · rw [hpipe, pendingKills_of_active hw] at hne
      exact active_setWorker (hrunning hne) hactive
    · obtain ⟨w₁, hw₁⟩ := hactive
      refine ⟨w₁, ?_⟩
      have hsame : (n.setWorker pipe w').workers pipe' = n.workers pipe' :=
        Function.update_of_ne hpipe _ _
      rw [hsame]
      exact hw₁

/-- Callers do not signal processes. -/
theorem Accounted.moves (h : Accounted n) (hwired : Wired n) (hmoves : Moves original n t n') :
    Accounted n' := by
  cases hmoves with
  | installs =>
    have hnone := (hwired.fresh n.sys.pipes le_rfl).1
    refine h.of_same rfl rfl (fun pipe => ?_) fun pipe hne ⟨w, hw⟩ => ?_
    · change (Function.update n.workers n.sys.pipes _ pipe).elim [] (·.pending) = _
      by_cases hpipe : pipe = n.sys.pipes
      · rw [hpipe, Function.update_self, pendingKills, hnone]
        rfl
      · rw [Function.update_of_ne hpipe]
        rfl
    · obtain ⟨hworker, hrunning⟩ := active_eq_some.mp hw
      refine ⟨w, active_eq_some.mpr ⟨(Function.update_of_ne ?_ _ _).trans hworker, hrunning⟩⟩
      exact (hwired.lt_of_active hw).ne
  | stops =>
    unfold Net.writeSentinel
    split
    · exact h.of_same rfl rfl (fun _ => rfl) fun _ _ hw => hw
    · exact h.of_same rfl rfl (fun _ => rfl) fun _ _ hw => hw
  | _ => exact h.of_same rfl rfl (fun _ => rfl) fun _ _ hw => hw

/-- **Every step accounts for the calls that it issues.** -/
theorem Accounted.changes (h : Accounted n) (hguarded : Guarded original n) (hwired : Wired n)
    (hdelivered : Delivered n) (hchanges : Changes original n n') : Accounted n' := by
  have hupdate : ∀ {m : Net} {d : ℕ} {dl old : Delivery}, n.deliveries d = some old →
      m.deliveries = Function.update n.deliveries d (some dl) →
      (∀ pipe regs, old.progress ≠ .dispatched pipe regs) →
      (∀ pipe regs, dl.progress ≠ .dispatched pipe regs) → m.kills = n.kills →
      m.workers = n.workers → Accounted m := by
    intro m d dl old hold hdeliveries hbefore hafter hkills hworkers
    refine h.of_update hdeliveries (fun old' pipe regs hold' => ?_) hafter hkills hworkers
    rw [← Option.some.inj (hold.symm.trans hold')]
    exact hbefore pipe regs
  cases hchanges with
  | stays => exact h
  | acquires => exact h.of_same rfl rfl (fun _ => rfl) fun _ _ hw => hw
  | moves hmoves => exact h.moves hwired hmoves
  | starts hd =>
    refine h.of_update rfl (fun old _ _ hold => ?_) nofun rfl rfl
    exact absurd (hd.symm.trans hold) nofun
  | loads hd => exact hupdate hd (proceed_deliveries hd) nofun nofun rfl rfl
  | writes hd => exact hupdate hd (proceed_deliveries hd) nofun nofun rfl rfl
  | loses hd => exact hupdate hd (proceed_deliveries hd) nofun nofun rfl rfl
  | reads hw => exact h.of_worker hw rfl rfl (fun _ => (active_eq_some.mp hw).2) rfl rfl
  | ends hw hidle => exact h.of_worker hw rfl rfl (fun hne => absurd hidle hne) rfl rfl
  | returns hw hidle => exact h.of_worker hw rfl rfl (fun hne => absurd hidle hne) rfl rfl
  | dispatches hw hidle hbuffer hbyte hfound =>
    exact h.dispatch hguarded hdelivered hw hidle hbuffer hbyte hfound
  | kills hw hpending => exact h.kill hw hpending
  | opens => exact h.of_same rfl rfl (fun _ => rfl) fun _ _ hw => hw
  | closes => exact h.of_same rfl rfl (fun _ => rfl) fun _ _ hw => hw

/-! ### Whole runs -/

/-- Everything that holds at every step. -/
structure Sound (original : ℤ → ℕ) (n : Net) : Prop where
  guarded : Guarded original n
  wired : Wired n
  delivered : Delivered n
  accounted : Accounted n

theorem sound_initial (original : ℤ → ℕ) : Sound original (Net.initial original) := by
  have hsettled := settled_initial original ()
  obtain ⟨surplus, -, hcounted⟩ := hsettled.counted
  have hun : ∀ fd, ¬ Installed fd (Net.initial original).sys := fun fd hfd => absurd hfd.1 nofun
  refine ⟨⟨rfl, fun t => iff_of_false Bool.false_ne_true nofun, ?_⟩, ?_, ?_, ?_⟩
  · exact ⟨hsettled.toSteady, ⟨surplus, hcounted⟩, trivial, nofun⟩
  · exact ⟨fun fd hfd => absurd hfd (hun fd), nofun, nofun, nofun, fun _ _ => ⟨rfl, rfl⟩⟩
  · exact ⟨nofun, fun _ _ => rfl, nofun, nofun⟩
  · exact ⟨nofun, fun _ hne => absurd rfl hne, fun _ _ => rfl, nofun⟩

theorem Sound.step {action : Action} (h : Sound original n)
    (hstep : Signal.step n action = some n') : Sound original n' := by
  have hchanges := step_changes h.guarded hstep
  exact ⟨h.guarded.changes hchanges, h.wired.changes hchanges,
    h.delivered.changes h.guarded h.wired hchanges,
    h.accounted.changes h.guarded h.wired h.delivered hchanges⟩

theorem Sound.steps {actions : List Action} (h : Sound original n)
    (hsteps : Signal.steps n actions = some n') : Sound original n' := by
  induction actions generalizing n with
  | nil =>
    obtain rfl := Option.some.inj hsteps
    exact h
  | cons action actions ih =>
    obtain ⟨m, hstep, hrest⟩ := Option.bind_eq_some_iff.mp hsteps
    exact ih (h.step hstep) hrest

/-- A registration that is live wants the signal of a delivery, and did so when the handler
started. -/
def Waits (n : Net) (d : ℕ) (r : SignalRegistration) : Prop :=
  ∃ dl, n.deliveries d = some dl ∧ r ∈ dl.live ∧ dl.signal ∈ r.signals ∧ r ∈ live n.sys

/-- The calls issued and pending for a process are as many as the registrations for it. -/
theorem Accounted.count_eq (h : Accounted n) {d pipe : ℕ} {dl : Delivery}
    {registrations : List SignalRegistration} (hd : n.deliveries d = some dl)
    (hprogress : dl.progress = .dispatched pipe registrations) (pid : ℤ) :
    n.kills.count ⟨some d, pid, dl.signal⟩ + (n.pendingKills pipe).count ⟨some d, pid, dl.signal⟩ =
      registrations.countP fun r => decide (dl.signal ∈ r.signals ∧ processId r = pid) := by
  have hfor : ∀ kills : List Kill, (killsFor d kills).count ⟨some d, pid, dl.signal⟩ =
      kills.count ⟨some d, pid, dl.signal⟩ := fun kills =>
    List.count_filter (decide_eq_true rfl)
  have hperm := ((h.done d dl pipe registrations hd hprogress).2).count_eq
    ⟨some d, pid, dl.signal⟩
  rw [List.count_append, hfor, hfor] at hperm
  rw [hperm, due, List.count, List.countP_map, List.countP_filter]
  refine List.countP_congr fun r _ => ?_
  simp only [Function.comp_apply, beq_iff_eq, Kill.mk.injEq, true_and, and_true,
    Bool.and_eq_true, decide_eq_true_eq]
  exact and_comm

/-- A byte that is unread has been written to that pipe. -/
theorem Delivered.progress_of_mem (h : Delivered n) {pipe d : ℕ} {c : Cell} {dl : Delivery}
    (hc : c ∈ n.unread pipe) (hcd : c.delivery = some d) (hd : n.deliveries d = some dl) :
    dl.progress = .written pipe := by
  have hpos : 0 < n.bytes pipe d :=
    List.count_pos_iff.mpr (List.mem_map.mpr ⟨c, hc, hcd⟩)
  rw [h.once, hd, Option.map_some] at hpos
  split at hpos
  · rename_i hwritten
    exact Option.some.inj hwritten
  · exact absurd hpos (Nat.lt_irrefl 0)

/-- A byte that has been written and not dispatched is unread. -/
theorem Delivered.exists_mem (h : Delivered n) {pipe d : ℕ} {dl : Delivery}
    (hd : n.deliveries d = some dl) (hwritten : dl.progress = .written pipe) :
    ∃ c ∈ n.unread pipe, c.delivery = some d := by
  have honce := h.once pipe d
  rw [hd, Option.map_some, hwritten, if_pos rfl] at honce
  have hpos : 0 < n.bytes pipe d := honce ▸ Nat.one_pos
  exact List.mem_map.mp (List.count_pos_iff.mp hpos)

/-- The worker of a byte that a live registration waits for is running. -/
theorem Delivered.active_of_waits (h : Delivered n) (hwired : Wired n) {pipe d : ℕ}
    {dl : Delivery} {r : SignalRegistration} (hd : n.deliveries d = some dl) (hr : r ∈ dl.live)
    (hsignal : dl.signal ∈ r.signals) (hlive : r ∈ live n.sys)
    (hwritten : dl.progress = .written pipe) : ∃ w, n.active pipe = some w := by
  have htrack := h.kept d dl hd r hr hsignal hlive
  rw [hwritten] at htrack
  obtain ⟨fd, hfd, rfl⟩ := htrack
  exact (hwired.current fd hfd).2.2.1

/-- **No signal is lost and none is forwarded twice**, whatever the order of steps.

* Once the byte of a delivery has been dispatched, the calls of `kill(2)` for it, issued or
  pending, are one for each registration that was live and wants the signal: exactly one for
  the process of a registration that shares its process with no other.
* A worker with calls pending can issue them.
* A worker that has returned left no byte unread that a live registration waits for.
* A byte is the sentinel exactly if it belongs to no delivery, and otherwise is the signal.
* While a registration waits for a delivery, its byte is not lost: once written, it is unread
  in a pipe whose worker is running. -/
theorem forwarded_once (original : ℤ → ℕ) (actions : List Action) (n : Net)
    (h : steps (Net.initial original) actions = some n) :
    (∀ d dl pipe registrations, n.deliveries d = some dl →
      dl.progress = .dispatched pipe registrations →
      (∀ pid, n.kills.count ⟨some d, pid, dl.signal⟩ +
          (n.pendingKills pipe).count ⟨some d, pid, dl.signal⟩ =
        registrations.countP fun r => decide (dl.signal ∈ r.signals ∧ processId r = pid)) ∧
      ∀ r ∈ dl.live, dl.signal ∈ r.signals → r ∈ registrations →
        (∀ r' ∈ registrations, dl.signal ∈ r'.signals → processId r' = processId r → r' = r) →
        n.kills.count ⟨some d, processId r, dl.signal⟩ +
          (n.pendingKills pipe).count ⟨some d, processId r, dl.signal⟩ = 1) ∧
    (∀ pipe, n.pendingKills pipe ≠ [] → (step n (.kill pipe)).isSome) ∧
    (∀ pipe w, n.workers pipe = some w → w.stopped = true → ∀ c ∈ n.unread pipe, ∀ d r,
      c.delivery = some d → ¬ Waits n d r) ∧
    (∀ pipe, ∀ c ∈ n.unread pipe, (c.byte = 0 ↔ c.delivery = none) ∧
      ∀ d, c.delivery = some d → ∃ dl, n.deliveries d = some dl ∧ (c.byte : ℤ) = dl.signal) ∧
    (∀ d dl r, n.deliveries d = some dl → Waits n d r → dl.progress ≠ .lost ∧
      ∀ pipe, dl.progress = .written pipe →
        (∃ c ∈ n.unread pipe, c.delivery = some d) ∧ ∃ w, n.active pipe = some w) := by
  obtain ⟨hguarded, hwired, hdelivered, haccounted⟩ := (sound_initial original).steps h
  refine ⟨fun d dl pipe regs hd hprogress => ⟨haccounted.count_eq hd hprogress, ?_⟩,
    fun pipe hne => ?_, fun pipe w hw hstopped c hc d r hcd => ?_, fun pipe c hc => ?_,
    fun d dl r hd => ?_⟩
  · intro r _ hsignal hr hunique
    rw [haccounted.count_eq hd hprogress]
    have hnodup := (haccounted.done d dl pipe regs hd hprogress).1
    rw [← List.count_eq_one_of_mem hnodup hr, List.count]
    refine List.countP_congr fun r' hr' => ?_
    rw [decide_eq_true_eq, beq_iff_eq]
    refine ⟨fun hwants => hunique r' hr' hwants.1 hwants.2, ?_⟩
    rintro rfl
    exact ⟨hsignal, rfl⟩
  · obtain ⟨w, hw⟩ := haccounted.running pipe hne
    rw [pendingKills_of_active hw] at hne
    obtain ⟨k, pending, hpending⟩ := List.exists_cons_of_ne_nil hne
    rw [step, Net.kill, hw]
    dsimp only
    rw [hpending]
    rfl
  · rintro ⟨dl, hd, hr, hsignal, hlive⟩
    -- the byte is in the pipe of the manager, whose worker is running
    have hwritten := hdelivered.progress_of_mem hc hcd hd
    obtain ⟨w', hw'⟩ := hdelivered.active_of_waits hwired hd hr hsignal hlive hwritten
    obtain ⟨hworker, hrunning⟩ := active_eq_some.mp hw'
    rw [← Option.some.inj (hw.symm.trans hworker), hstopped] at hrunning
    cases hrunning
  · rcases hdelivered.labelled pipe c hc with ⟨hzero, hnone⟩ | ⟨d, dl, hcd, hd, hsignal, hne⟩
    · refine ⟨iff_of_true hzero hnone, fun d hcd => ?_⟩
      rw [hnone] at hcd
      cases hcd
    · refine ⟨iff_of_false hne ?_, fun d' hcd' => ?_⟩
      · rw [hcd]
        exact Option.some_ne_none d
      · rw [← Option.some.inj (hcd.symm.trans hcd')]
        exact ⟨dl, hd, hsignal⟩
  · rintro ⟨dl', hd', hr, hsignal, hlive⟩
    obtain rfl := Option.some.inj (hd.symm.trans hd')
    refine ⟨fun hlost => ?_, fun pipe hwritten => ⟨?_, ?_⟩⟩
    · have htrack := hdelivered.kept d dl hd r hr hsignal hlive
      rw [hlost] at htrack
      exact htrack
    · exact hdelivered.exists_mem hd hwritten
    · exact hdelivered.active_of_waits hwired hd hr hsignal hlive hwritten

/-- One call registers a signal that stands twice in its list, and the signal is delivered. -/
def listedTwice : List Action :=
  [.call 0 (.register [15, 15] 7), .run 0 ⟨none, .ok (3, 4)⟩, .run 0 ⟨none, .ok (3, 4)⟩,
    .run 0 ⟨none, .ok (3, 4)⟩, .run 0 ⟨none, .ok (3, 4)⟩, .run 0 ⟨none, .ok (3, 4)⟩,
    .handle 0 15, .load 0, .write 0, .read 0 1, .dispatch 0 [⟨7, [15, 15], 0⟩], .kill 0]

/-- A process is signalled once for a signal that is listed twice. -/
theorem forwarded_once_listedTwice :
    ∃ n, steps (Net.initial fun _ => 0) listedTwice = some n ∧
      n.kills.count ⟨some 0, 7, 15⟩ = 1 := by
  obtain ⟨n, hn⟩ : ∃ n, steps (Net.initial fun _ => 0) listedTwice = some n :=
    Option.isSome_iff_exists.mp (by decide +kernel)
  have hstate : ((steps (Net.initial fun _ => 0) listedTwice).map fun n =>
      (n.deliveries 0, n.pendingKills 0)) =
      some (some ⟨15, [⟨7, [15, 15], 0⟩], .dispatched 0 [⟨7, [15, 15], 0⟩]⟩, []) := by
    decide +kernel
  rw [hn] at hstate
  obtain ⟨hd, hpending⟩ := Prod.mk.inj (Option.some.inj hstate)
  have hone := ((forwarded_once (fun _ => 0) listedTwice n hn).1 0 _ 0 _ hd rfl).2
    ⟨7, [15, 15], 0⟩ (List.mem_singleton.mpr rfl) (by decide) (List.mem_singleton.mpr rfl)
    (fun r' hr' _ _ => List.mem_singleton.mp hr')
  rw [hpending, List.count_nil] at hone
  exact ⟨n, hn, hone⟩

/-- Two registrations for one process, and a delivery that both want. -/
def sameProcess : List Action :=
  [.call 0 (.register [15] 7), .run 0 ⟨none, .ok (3, 4)⟩, .run 0 ⟨none, .ok (3, 4)⟩,
    .run 0 ⟨none, .ok (3, 4)⟩, .run 0 ⟨none, .ok (3, 4)⟩,
    .call 0 (.register [15] 7), .run 0 ⟨none, .ok (3, 4)⟩, .run 0 ⟨none, .ok (3, 4)⟩,
    .run 0 ⟨none, .ok (3, 4)⟩, .run 0 ⟨none, .ok (3, 4)⟩,
    .handle 0 15, .load 0, .write 0, .read 0 1,
    .dispatch 0 [⟨7, [15], 0⟩, ⟨7, [15], 1⟩], .kill 0, .kill 0]

/-- **A process with two registrations is signalled twice** for one delivery. -/
theorem signalled_twice :
    ¬ ∀ n, steps (Net.initial fun _ => 0) sameProcess = some n →
      ∀ d dl pipe registrations, n.deliveries d = some dl →
        dl.progress = .dispatched pipe registrations →
        ∀ r ∈ dl.live, dl.signal ∈ r.signals → r ∈ registrations →
          n.kills.count ⟨some d, processId r, dl.signal⟩ +
            (n.pendingKills pipe).count ⟨some d, processId r, dl.signal⟩ = 1 := by
  intro hall
  obtain ⟨n, hn⟩ : ∃ n, steps (Net.initial fun _ => 0) sameProcess = some n :=
    Option.isSome_iff_exists.mp (by decide +kernel)
  have hstate : ((steps (Net.initial fun _ => 0) sameProcess).map fun n =>
      (n.deliveries 0, n.kills, n.pendingKills 0)) =
      some (some ⟨15, [⟨7, [15], 1⟩, ⟨7, [15], 0⟩],
        .dispatched 0 [⟨7, [15], 1⟩, ⟨7, [15], 0⟩]⟩, [⟨some 0, 7, 15⟩, ⟨some 0, 7, 15⟩], []) := by
    decide +kernel
  rw [hn] at hstate
  obtain ⟨hd, hrest⟩ := Prod.mk.inj (Option.some.inj hstate)
  obtain ⟨hkills, hpending⟩ := Prod.mk.inj hrest
  have hone := hall n hn 0 _ 0 _ hd rfl ⟨7, [15], 0⟩ (by decide) (by decide) (by decide)
  rw [hkills, hpending] at hone
  exact absurd hone (by decide)

end Signal

end FirecrackerSdk
