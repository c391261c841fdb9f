import FirecrackerSdk.Signal.Wiring

/-!
# No signal is lost

A registration that is live when a handler starts, and stays live, pins the pipe of the
manager: as long as there is a registration no worker is shut down. So the handler loads the
number of that pipe, the write reaches it, the byte is behind no sentinel, and the worker gets
to it. That is the field `kept` of `FirecrackerSdk.Signal.Delivered`; the field `once` says
that the byte is in one place only.
-/

namespace FirecrackerSdk

namespace Signal

open Net

variable {original : ℤ → ℕ} {n n' : Net} {t : ℕ}

/-! ### The byte of a delivery -/

/-- How often the byte of a delivery stands among the unread bytes of a pipe. -/
def Net.bytes (n : Net) (pipe d : ℕ) : ℕ := ((n.unread pipe).map Cell.delivery).count (some d)

/-- A byte is the sentinel, or it is the signal of its delivery. -/
def Labelled (n : Net) (c : Cell) : Prop :=
  c.byte = 0 ∧ c.delivery = none ∨
    ∃ d dl, c.delivery = some d ∧ n.deliveries d = some dl ∧ (c.byte : ℤ) = dl.signal ∧ c.byte ≠ 0

/-- A delivery is on its way through the pipe of the manager. -/
def OnTrack (s : SignalState) : Progress → Prop
  | .loaded fd => fd = s.pipeWriteFd
  | .lost => False
  | .written pipe => ∃ fd, Installed fd s ∧ fd.pipe = pipe
  | _ => True

/-- **Each delivery has at most one byte**, and one that a live registration waits for is on
its way. -/
structure Delivered (n : Net) : Prop where
  labelled : ∀ pipe, ∀ c ∈ n.unread pipe, Labelled n c
  once : ∀ pipe d, n.bytes pipe d =
    if (n.deliveries d).map Delivery.progress = some (.written pipe) then 1 else 0
  kept : ∀ d dl, n.deliveries d = some dl → ∀ r ∈ dl.live, dl.signal ∈ r.signals →
    r ∈ live n.sys → OnTrack n.sys dl.progress
  past : ∀ d dl, n.deliveries d = some dl → ∀ r ∈ dl.live, r.serial < n.sys.issued

/-- There is only one pipe of the manager. -/
theorem Installed.unique {s : SignalState} {fd fd' : OwnedFd} (h : Installed fd s)
    (h' : Installed fd' s) : fd' = fd := by
  have heq := h.1
  rw [h'.1] at heq
  exact Option.some.inj heq

/-- A delivery stays on its way while the manager keeps its pipe. -/
theorem OnTrack.of_installed {s s' : SignalState} {fd : OwnedFd} {progress : Progress}
    (h : OnTrack s progress) (hfd : Installed fd s) (hfd' : Installed fd s') :
    OnTrack s' progress := by
  cases progress with
  | started => exact trivial
  | loaded f =>
    change f = s'.pipeWriteFd
    rw [hfd'.2.2, ← hfd.2.2]
    exact h
  | lost => exact h
  | written pipe =>
    obtain ⟨fd₀, hfd₀, hpipe⟩ := h
    rw [hfd.unique hfd₀] at hpipe
    exact ⟨fd, hfd', hpipe⟩
  | dispatched pipe registrations => exact trivial

theorem Steady.exists_installed_of_mem_live {s : SignalState} (h : Steady s)
    {r : SignalRegistration} (hr : r ∈ Signal.live s) : ∃ fd, Installed fd s := by
  refine h.live fun hempty => ?_
  rw [live_eq_nil hempty] at hr
  exact absurd hr List.not_mem_nil

/-- Nothing happens to deliveries: the manager keeps its pipe for all registrations that stay,
and no byte comes or goes other than the sentinel. -/
theorem Delivered.of_keeping (h : Delivered n) (hsteady : Steady n.sys)
    (hissued : n.sys.issued ≤ n'.sys.issued)
    (hlive : ∀ r ∈ live n'.sys, r.serial < n.sys.issued → r ∈ live n.sys)
    (hinstalled : ∀ r ∈ live n.sys, ∀ fd, Installed fd n.sys → Installed fd n'.sys)
    (hdeliveries : n'.deliveries = n.deliveries)
    (hcells : ∀ pipe, ∀ c ∈ n'.unread pipe, c ∈ n.unread pipe ∨ c = ⟨0, none⟩)
    (hbytes : ∀ pipe d, n'.bytes pipe d = n.bytes pipe d) : Delivered n' := by
  refine ⟨fun pipe c hc => ?_, fun pipe d => ?_, fun d dl hd r hr hsignal hnow => ?_,
    fun d dl hd r hr => ?_⟩
  · rw [Labelled, hdeliveries]
    rcases hcells pipe c hc with hold | rfl
    · exact h.labelled pipe c hold
    · exact .inl ⟨rfl, rfl⟩
  · rw [hbytes, hdeliveries]
    exact h.once pipe d
  · rw [hdeliveries] at hd
    have hbefore := hlive r hnow (h.past d dl hd r hr)
    obtain ⟨fd, hfd⟩ := hsteady.exists_installed_of_mem_live hbefore
    exact (h.kept d dl hd r hr hsignal hbefore).of_installed hfd (hinstalled r hbefore fd hfd)
  · rw [hdeliveries] at hd
    exact (h.past d dl hd r hr).trans_le hissued

/-- The same, when the manager does not change. -/
theorem Delivered.of_unread (h : Delivered n) (hsteady : Steady n.sys) (hsys : n'.sys = n.sys)
    (hdeliveries : n'.deliveries = n.deliveries)
    (hunread : ∀ pipe, n'.unread pipe = n.unread pipe) : Delivered n' := by
  refine h.of_keeping hsteady (by rw [hsys]) ?_ ?_ hdeliveries (fun pipe c hc => ?_)
    fun pipe d => ?_
  · rw [hsys]
    exact fun r hr _ => hr
  · rw [hsys]
    exact fun _ _ _ hfd => hfd
  · rw [hunread] at hc
    exact .inl hc
  · rw [bytes, hunread, bytes]

/-- One delivery comes further. -/
theorem Delivered.of_update (h : Delivered n) {d : ℕ} {dl : Delivery} (hsys : n'.sys = n.sys)
    (hdeliveries : n'.deliveries = Function.update n.deliveries d (some dl))
    (hsignal : ∀ old, n.deliveries d = some old → old.signal = dl.signal)
    (hcells : ∀ pipe, ∀ c ∈ n'.unread pipe, c ∈ n.unread pipe ∨
      c.delivery = some d ∧ (c.byte : ℤ) = dl.signal ∧ c.byte ≠ 0)
    (honce : ∀ pipe, n'.bytes pipe d = if dl.progress = .written pipe then 1 else 0)
    (hothers : ∀ pipe d', d' ≠ d → n'.bytes pipe d' = n.bytes pipe d')
    (hkept : ∀ r ∈ dl.live, dl.signal ∈ r.signals → r ∈ live n.sys → OnTrack n.sys dl.progress)
    (hpast : ∀ r ∈ dl.live, r.serial < n.sys.issued) : Delivered n' := by
  have hself : n'.deliveries d = some dl := by rw [hdeliveries, Function.update_self]
  have hother : ∀ {d'}, d' ≠ d → n'.deliveries d' = n.deliveries d' := by
    intro d' hne
    rw [hdeliveries, Function.update_of_ne hne]
  refine ⟨fun pipe c hc => ?_, fun pipe d' => ?_, fun d' dl' hd' => ?_, fun d' dl' hd' => ?_⟩
  · rcases hcells pipe c hc with hold | ⟨hd, hbyte, hne⟩
    · rcases h.labelled pipe c hold with hsentinel | ⟨d', dl', hd', hdl', hbyte, hne⟩
      · exact .inl hsentinel
      · by_cases heq : d' = d
        · subst heq
          exact .inr ⟨d', dl, hd', hself, hbyte.trans (hsignal dl' hdl'), hne⟩
        · exact .inr ⟨d', dl', hd', (hother heq).trans hdl', hbyte, hne⟩
    · exact .inr ⟨d, dl, hd, hself, hbyte, hne⟩
  · by_cases heq : d' = d
    · subst heq
      rw [honce, hself, Option.map_some]
      exact if_congr (by rw [Option.some.injEq]) rfl rfl
    · rw [hothers pipe d' heq, h.once, hother heq]
  · rw [hsys]
    by_cases heq : d' = d
    · subst heq
      obtain rfl := Option.some.inj (hself.symm.trans hd')
      exact hkept
    · exact h.kept d' dl' ((hother heq).symm.trans hd')
  · rw [hsys]
    by_cases heq : d' = d
    · subst heq
      obtain rfl := Option.some.inj (hself.symm.trans hd')
      exact hpast
    · exact h.past d' dl' ((hother heq).symm.trans hd')

/-! ### Steps of callers -/

theorem bytes_push {pipe : ℕ} {cell : Cell} (pipe' d : ℕ) :
    (n.push pipe cell).bytes pipe' d =
      n.bytes pipe' d + if pipe' = pipe ∧ cell.delivery = some d then 1 else 0 := by
  rw [bytes, unread_push, bytes]
  by_cases hpipe : pipe' = pipe
  · rw [if_pos hpipe, List.map_append, List.count_append, List.map_singleton,
      List.count_singleton]
    simp only [hpipe, true_and, beq_iff_eq]
  · rw [if_neg hpipe, if_neg fun hand => hpipe hand.1]
    rfl

/-- A new pipe is empty. -/
theorem unread_spawn {pc : Pc} {readFd writeFd : ℕ} (h : Wired n) (pipe : ℕ) :
    ({ n.goto t pc with sys := n.sys.installWorker writeFd }.spawn n.sys.pipes readFd
      writeFd).unread pipe = n.unread pipe := by
  change (Function.update n.workers n.sys.pipes (some { readFd := readFd }) pipe).elim []
    (·.buffer) ++ n.pipes pipe = _
  by_cases hpipe : pipe = n.sys.pipes
  · rw [hpipe, Function.update_self, unread, (h.fresh _ le_rfl).1]
    rfl
  · rw [Function.update_of_ne hpipe]
    rfl

theorem Delivered.moves (h : Delivered n) (hwired : Wired n) (hsteady : Steady n.sys)
    (hmoves : Moves original n t n') : Delivered n' := by
  cases hmoves with
  | keeps _ _ _ _ hkeeps =>
    exact h.of_keeping hsteady hkeeps.issued hkeeps.live
      (fun _ _ fd => (hkeeps.installed fd).mpr) rfl (fun _ _ hc => .inl hc) fun _ _ => rfl
  | installs _ _ _ _ hempty =>
    refine h.of_keeping hsteady le_rfl (fun _ hr _ => hr) (fun r hr => ?_) rfl
      (fun pipe c hc => ?_) fun pipe d => ?_
    · -- a worker is started only when there is no registration
      rw [hempty] at hr
      exact absurd hr List.not_mem_nil
    · rw [unread_spawn hwired] at hc
      exact .inl hc
    · rw [bytes, unread_spawn hwired, bytes]
  | uninstalls _ _ _ hempty =>
    refine h.of_keeping hsteady le_rfl (fun _ hr _ => hr) (fun r hr => ?_) rfl
      (fun _ _ hc => .inl hc) fun _ _ => rfl
    rw [hempty] at hr
    exact absurd hr List.not_mem_nil
  | unlocks => exact h.of_unread hsteady rfl rfl fun _ => rfl
  | @stops shutdown =>
    have hgoto : Delivered (n.goto t (.closing shutdown)) :=
      h.of_unread hsteady rfl rfl fun _ => rfl
    unfold Net.writeSentinel
    split
    · refine hgoto.of_keeping hsteady le_rfl (fun _ hr _ => hr) (fun _ _ _ hfd => hfd) rfl
        (fun pipe c hc => ?_) fun pipe d => ?_
      · rw [unread_push] at hc
        split at hc
        · exact (List.mem_append.mp hc).imp_right List.mem_singleton.mp
        · exact .inl hc
      · rw [bytes_push, if_neg fun hand => absurd hand.2 nofun, Nat.add_zero]
    · exact hgoto
  | closes => exact h.of_unread hsteady rfl rfl fun _ => rfl
  | joins => exact h.of_unread hsteady rfl rfl fun _ => rfl

/-! ### Steps of handlers -/

/-- A delivery whose byte has not been written has none. -/
theorem Delivered.bytes_eq_zero (h : Delivered n) {d : ℕ}
    (hd : ∀ dl pipe, n.deliveries d = some dl → dl.progress ≠ .written pipe) (pipe : ℕ) :
    n.bytes pipe d = 0 := by
  rw [h.once, if_neg]
  intro hwritten
  obtain ⟨dl, hdl, hprogress⟩ := Option.map_eq_some_iff.mp hwritten
  exact hd dl pipe hdl hprogress

theorem proceed_deliveries {d : ℕ} {dl : Delivery} {progress : Progress}
    (hd : n.deliveries d = some dl) : (n.proceed d progress).deliveries =
      Function.update n.deliveries d (some { dl with progress := progress }) := by
  rw [proceed, hd]
  rfl

/-- A delivery that a live registration waits for finds the pipe of the manager. -/
theorem Delivered.reaches (h : Delivered n) (hwired : Wired n) (hsteady : Steady n.sys)
    {d : ℕ} {dl : Delivery} {fd : ℤ} (hd : n.deliveries d = some dl)
    (hloaded : dl.progress = .loaded fd) {r : SignalRegistration} (hr : r ∈ dl.live)
    (hsignal : dl.signal ∈ r.signals) (hlive : r ∈ live n.sys) :
    ∃ fd', Installed fd' n.sys ∧ 0 ≤ fd ∧ n.reaches fd.toNat = some fd'.pipe := by
  obtain ⟨fd', hfd'⟩ := hsteady.exists_installed_of_mem_live hlive
  have htrack := h.kept d dl hd r hr hsignal hlive
  rw [hloaded] at htrack
  have hraw : fd = fd'.raw := htrack.trans hfd'.2.2
  obtain ⟨hheld, -, ⟨w, hw⟩, -⟩ := hwired.current fd' hfd'
  refine ⟨fd', hfd', ?_, ?_⟩
  · rw [hraw]
    exact Int.natCast_nonneg _
  · rw [hraw, Int.toNat_natCast]
    exact reaches_of_active hheld.2 hw

/-- A delivery comes further without a byte. -/
theorem Delivered.proceed (h : Delivered n) {d : ℕ} {dl : Delivery} {progress : Progress}
    (hd : n.deliveries d = some dl) (hbefore : ∀ pipe, dl.progress ≠ .written pipe)
    (hafter : ∀ pipe, progress ≠ .written pipe)
    (hkept : ∀ r ∈ dl.live, dl.signal ∈ r.signals → r ∈ live n.sys → OnTrack n.sys progress) :
    Delivered (n.proceed d progress) := by
  refine h.of_update rfl (proceed_deliveries hd) ?_ (fun _ _ hc => .inl hc) (fun pipe => ?_)
    (fun _ _ _ => rfl) hkept (h.past d dl hd)
  · intro old hold
    rw [← Option.some.inj (hd.symm.trans hold)]
  · rw [if_neg (hafter pipe)]
    refine h.bytes_eq_zero (fun dl' pipe' hdl' => ?_) pipe
    rw [← Option.some.inj (hd.symm.trans hdl')]
    exact hbefore pipe'

theorem Delivered.start (h : Delivered n) (hsteady : Steady n.sys) {d : ℕ} (signal : ℤ)
    (hd : n.deliveries d = none) :
    Delivered { n with
      deliveries := Function.update n.deliveries d (some ⟨signal, live n.sys, .started⟩) } := by
  refine h.of_update (d := d) rfl rfl ?_ (fun _ _ hc => .inl hc) (fun pipe => ?_)
    (fun _ _ _ => rfl) (fun _ _ _ _ => trivial) fun r hr => ?_
  · intro old hold
    exact absurd (hd.symm.trans hold) nofun
  · rw [if_neg nofun]
    refine h.bytes_eq_zero (fun dl pipe' hdl => ?_) pipe
    exact absurd (hd.symm.trans hdl) nofun
  · obtain ⟨e, he, rfl⟩ := List.mem_map.mp hr
    exact hsteady.serials e he

/-- The byte of a signal in range is the signal. -/
theorem byte_eq_signal {signal : ℤ} (h : outOfRange signal = false) :
    (((signal % 256).toNat : ℕ) : ℤ) = signal ∧ (signal % 256).toNat ≠ 0 := by
  simp only [outOfRange, Bool.or_eq_false_iff, decide_eq_false_iff_not] at h
  omega

/-- The byte of a delivery goes into a pipe. -/
theorem Delivered.write (h : Delivered n) (hwired : Wired n) (hsteady : Steady n.sys) {d : ℕ}
    {dl : Delivery} {fd : ℤ} {pipe : ℕ} (hd : n.deliveries d = some dl)
    (hloaded : dl.progress = .loaded fd) (hrange : outOfRange dl.signal = false)
    (hreaches : n.reaches fd.toNat = some pipe) :
    Delivered ((n.proceed d (.written pipe)).push pipe
      ⟨(dl.signal % 256).toNat, some d⟩) := by
  -- before the write no pipe holds a byte of this delivery
  have hnone : ∀ pipe', n.bytes pipe' d = 0 := by
    refine h.bytes_eq_zero fun dl' pipe' hdl' => ?_
    rw [← Option.some.inj (hd.symm.trans hdl'), hloaded]
    exact nofun
  refine h.of_update rfl (proceed_deliveries hd) ?_ (fun pipe' c hc => ?_) (fun pipe' => ?_)
    (fun pipe' d' hne => ?_) (fun r hr hsignal hlive => ?_) (h.past d dl hd)
  · intro old hold
    rw [← Option.some.inj (hd.symm.trans hold)]
  · rw [unread_push] at hc
    split at hc
    · rcases List.mem_append.mp hc with hold | hnew
      · exact .inl hold
      · rw [List.mem_singleton.mp hnew]
        exact .inr ⟨rfl, byte_eq_signal hrange⟩
    · exact .inl hc
  · rw [bytes_push]
    change n.bytes pipe' d + _ = _
    rw [hnone, Nat.zero_add]
    refine if_congr ?_ rfl rfl
    simp only [and_true, Progress.written.injEq]
    exact eq_comm
  · rw [bytes_push, if_neg fun hand => hne (Option.some.inj hand.2).symm]
    rfl
  · obtain ⟨fd', hfd', -, hreaches'⟩ := h.reaches hwired hsteady hd hloaded hr hsignal hlive
    exact ⟨fd', hfd', Option.some.inj (hreaches'.symm.trans hreaches)⟩

/-! ### Steps of workers -/

/-- The next byte of a worker. -/
theorem unread_eq_cons {pipe : ℕ} {w : Worker} {cell : Cell} {buffer : List Cell}
    (hw : n.active pipe = some w) (hbuffer : w.buffer = cell :: buffer) :
    n.unread pipe = cell :: (buffer ++ n.pipes pipe) := by
  rw [unread_eq_of_active hw, hbuffer]
  rfl

theorem unread_stop {pipe : ℕ} {w : Worker} (pipe' : ℕ) :
    (n.stop pipe w).unread pipe' =
      if pipe' = pipe then w.buffer ++ n.pipes pipe else n.unread pipe' :=
  unread_setWorker pipe { w with stopped := true } pipe'

/-- The sentinel is taken from the pipe. -/
theorem Delivered.return (h : Delivered n) (hsteady : Steady n.sys) {pipe : ℕ} {w : Worker}
    {cell : Cell} {buffer : List Cell} (hw : n.active pipe = some w)
    (hbuffer : w.buffer = cell :: buffer) (hzero : cell.byte = 0) :
    Delivered (n.stop pipe { w with buffer := buffer }) := by
  have hunread := unread_eq_cons hw hbuffer
  have hsentinel : cell.delivery = none := by
    rcases h.labelled pipe cell (by rw [hunread]; exact List.mem_cons_self) with
      hsentinel | ⟨d, dl, -, -, -, hne⟩
    · exact hsentinel.2
    · exact absurd hzero hne
  refine h.of_keeping hsteady le_rfl (fun _ hr _ => hr) (fun _ _ _ hfd => hfd) rfl
    (fun pipe' c hc => ?_) fun pipe' d => ?_
  · rw [unread_stop] at hc
    split at hc
    · rename_i hpipe
      rw [hpipe, hunread]
      exact .inl (List.mem_cons_of_mem _ hc)
    · exact .inl hc
  · rw [bytes, unread_stop, bytes]
    split
    · rename_i hpipe
      rw [hpipe, hunread, List.map_cons, hsentinel,
        List.count_cons_of_ne (Option.some_ne_none d).symm]
    · rfl

/-- The delivery of the next byte, which is the only byte that it has. -/
theorem Delivered.head (h : Delivered n) {pipe : ℕ} {w : Worker} {cell : Cell}
    {buffer : List Cell} (hw : n.active pipe = some w) (hbuffer : w.buffer = cell :: buffer)
    (hbyte : cell.byte ≠ 0) :
    ∃ d dl, cell.delivery = some d ∧ n.deliveries d = some dl ∧ (cell.byte : ℤ) = dl.signal ∧
      dl.progress = .written pipe ∧
      ((buffer ++ n.pipes pipe).map Cell.delivery).count (some d) = 0 := by
  have hunread := unread_eq_cons hw hbuffer
  rcases h.labelled pipe cell (by rw [hunread]; exact List.mem_cons_self) with
    hsentinel | ⟨d, dl, hd, hdl, hsignal, -⟩
  · exact absurd hsentinel.1 hbyte
  · have honce := h.once pipe d
    rw [bytes, hunread, List.map_cons, hd, List.count_cons_self, hdl, Option.map_some] at honce
    split at honce
    · rename_i hwritten
      exact ⟨d, dl, hd, hdl, hsignal, Option.some.inj hwritten, Nat.succ.inj honce⟩
    · exact absurd honce (Nat.succ_ne_zero _)

/-- The next byte is dispatched. -/
theorem Delivered.dispatch (h : Delivered n) {pipe : ℕ} {w : Worker} {cell : Cell}
    {buffer : List Cell} {pending : List Kill} (hw : n.active pipe = some w)
    (hbuffer : w.buffer = cell :: buffer) (hbyte : cell.byte ≠ 0) :
    Delivered ((n.proceedCell cell (.dispatched pipe (live n.sys))).setWorker pipe
      { w with buffer := buffer, pending := pending }) := by
  -- the byte at the head belongs to a delivery, and is its only one
  obtain ⟨d, dl, hd, hdl, -, hprogress, hlast⟩ := h.head hw hbuffer hbyte
  have hunread := unread_eq_cons hw hbuffer
  rw [proceedCell, hd]
  refine h.of_update rfl (proceed_deliveries hdl) ?_ (fun pipe' c hc => ?_) (fun pipe' => ?_)
    (fun pipe' d' hne => ?_) (fun _ _ _ _ => trivial) (h.past d dl hdl)
  · intro old hold
    rw [← Option.some.inj (hdl.symm.trans hold)]
  · rw [unread_setWorker] at hc
    split at hc
    · rename_i hpipe
      rw [hpipe, hunread]
      exact .inl (List.mem_cons_of_mem _ hc)
    · exact .inl hc
  · rw [if_neg nofun, bytes, unread_setWorker]
    split
    · exact hlast
    · rename_i hpipe
      change n.bytes pipe' d = 0
      rw [h.once, hdl, if_neg]
      rw [Option.map_some, hprogress]
      exact fun heq => hpipe (Progress.written.inj (Option.some.inj heq)).symm
  · rw [bytes, unread_setWorker, bytes]
    split
    · rename_i hpipe
      rw [hpipe, hunread, List.map_cons, hd,
        List.count_cons_of_ne fun heq => hne (Option.some.inj heq).symm]
      rfl
    · rfl

/-- **Every step keeps each delivery on its way.** -/
theorem Delivered.changes (h : Delivered n) (hguarded : Guarded original n) (hwired : Wired n)
    (hchanges : Changes original n n') : Delivered n' := by
  have hsteady := hguarded.orderly.steady
  cases hchanges with
  | stays => exact h
  | acquires => exact h.of_unread hsteady rfl rfl fun _ => rfl
  | moves hmoves => exact h.moves hwired hsteady hmoves
  | starts hd => exact h.start hsteady _ hd
  | loads hd => exact h.proceed hd nofun nofun fun _ _ _ _ => rfl
  | writes hd _ hrange hreaches => exact h.write hwired hsteady hd rfl hrange hreaches
  | @loses d signal before fd hd hbad =>
    -- a handler that writes nowhere serves no registration that is still live
    refine h.proceed hd nofun nofun fun r hr hsignal hlive => ?_
    obtain ⟨fd', -, hpos, hreaches⟩ := h.reaches hwired hsteady hd rfl hr hsignal hlive
    have hrange := hguarded.orderly.inRange r hlive _ hsignal
    rcases hbad with hneg | hout | hnone
    · exact absurd hpos (Int.not_le.mpr hneg)
    · rw [hrange] at hout
      exact absurd hout Bool.false_ne_true
    · rw [hreaches] at hnone
      exact absurd hnone nofun
  | reads hw hbuffer => exact h.of_unread hsteady rfl rfl (unread_read hw hbuffer)
  | ends hw =>
    refine h.of_unread hsteady rfl rfl fun pipe' => ?_
    rw [unread_stop]
    split
    · rename_i hpipe
      rw [hpipe, unread_eq_of_active hw]
    · rfl
  | returns hw _ hbuffer hzero => exact h.return hsteady hw hbuffer hzero
  | dispatches hw _ hbuffer hbyte => exact h.dispatch hw hbuffer hbyte
  | kills hw =>
    refine h.of_unread hsteady rfl rfl fun pipe' => ?_
    refine (unread_setWorker _ _ pipe').trans ?_
    split
    · rename_i hpipe
      rw [hpipe, unread_eq_of_active hw]
    · rfl
  | opens => exact h.of_unread hsteady rfl rfl fun _ => rfl
  | closes => exact h.of_unread hsteady rfl rfl fun _ => rfl

end Signal

end FirecrackerSdk
