import FirecrackerSdk.Lib.Guarded
import FirecrackerSdk.Machine.Configure
import FirecrackerSdk.Machine.Ledger

/-!
# Who holds the children of a machine

The machine keeps the child it has spawned last, and the number of a registration. What it
does not keep is what became of the children before, and which process the registration
names. Both can be told from what the world has seen: an environment that takes notes
(`FirecrackerSdk.Env.recording`) answers like the environment it is made of and puts down
every answer that concerns a process or a registration.

`FirecrackerSdk.Custody` is what the notes add up to: the table of processes that the
operating system keeps, and the live registrations. The machine waits only for the process it
has spawned last, so the notes need not say which one is meant.

`FirecrackerSdk.Tracked` relates the machine to the notes at every moment outside of a wait,
`FirecrackerSdk.Rested` is what holds in addition between two calls, and the lemmas of this
file say what each change of the child, of the forwarder and of the processes does to the two.
-/

namespace FirecrackerSdk

/-! ### Taking notes -/

/-- What the world has seen. -/
inductive Note where
  /-- A process was spawned. -/
  | spawned (pid : ℕ)
  /-- Processes have ended on their own. -/
  | exited (exits : List (ℕ × ExitStatus))
  /-- `waitpid(2)` without blocking, on the last process. -/
  | tried
  /-- The last process was awaited, and it ended. -/
  | waited (status : ExitStatus)
  /-- Waiting for it failed. -/
  | waitFailed
  /-- The future that waited for it was dropped. -/
  | waitDropped
  /-- The manager accepted a registration. -/
  | registered (registrationId : ℕ) (signals : List ℤ) (pid : ℕ)
  /-- The manager removed one. -/
  | unregistered (registrationId : ℕ)
  deriving DecidableEq

/-- What an answer is worth noting. -/
def Query.notes : {α : Type} → Query α → α → List Note
  | _, .spawn _, .ok pid => [.spawned pid]
  | _, .exits, ended => [.exited ended]
  | _, .tryWaitError _, none => [.tried]
  | _, .childWait _, .ok status => [.waited status]
  | _, .childWait _, .error _ => [.waitFailed]
  | _, .await .childWait, true => [.waitDropped]
  | _, .register signals pid, .ok registrationId => [.registered registrationId signals pid]
  | _, .unregister registrationId, _ => [.unregistered registrationId]
  | _, _, _ => []

/-- A world with the notes taken so far. -/
structure Recorded (W : Type) where
  base : W
  log : List Note := []

/-- **The same environment, taking notes.** -/
def Env.recording {W : Type} (env : Env W) : Env (Recorded W) where
  answer query world :=
    ((env.answer query world.base).1,
      { base := (env.answer query world.base).2
        log := world.log ++ query.notes (env.answer query world.base).1 })
  unprintable := env.unprintable

/-! ### What the notes add up to -/

/-- A live registration, with the process that had the id when it was made: the last one
spawned. -/
structure Registration where
  id : ℕ
  signals : List ℤ
  pid : ℕ
  uid : ℕ
  deriving DecidableEq

/-- The processes and the live registrations. -/
structure Custody where
  procs : List Proc := []
  live : List Registration := []

/-- Processes end. -/
def endAll (exits : List (ℕ × ExitStatus)) (procs : List Proc) : List Proc :=
  exits.foldl (fun procs e => procs.modify e.1 (Op.endProc e.2)) procs

/-- A process is reaped. -/
def Proc.reap (proc : Proc) : Proc := { proc with reaped := true }

/-- A process is reaped if it has ended. -/
def Proc.tryReap (proc : Proc) : Proc := if proc.exit.isSome then proc.reap else proc

namespace Custody

/-- The position of the process that was spawned last. -/
def last (c : Custody) : ℕ := c.procs.length - 1

/-- What a note tells. Inserting a registration under a number that is taken replaces the
old one. -/
def step (c : Custody) : Note → Custody
  | .spawned pid => { c with procs := c.procs ++ [{ pid := pid }] }
  | .exited exits => { c with procs := endAll exits c.procs }
  | .tried => { c with procs := c.procs.modify c.last Proc.tryReap }
  | .waited status =>
    { c with procs := (c.procs.modify c.last (Op.endProc status)).modify c.last Proc.reap }
  | .waitFailed => c
  | .waitDropped => c
  | .registered id signals pid =>
    { c with live := c.live.filter (·.id ≠ id) ++ [⟨id, signals, pid, c.last⟩] }
  | .unregistered id => { c with live := c.live.filter (·.id ≠ id) }

/-- What a list of notes tells. -/
def run (log : List Note) : Custody := log.foldl step {}

theorem run_snoc (log : List Note) (n : Note) : run (log ++ [n]) = (run log).step n := by
  rw [run, List.foldl_append]
  rfl

/-- Whether no child gets out of sight: a process is spawned when those before it have been
reaped, and a wait neither fails nor is dropped. -/
def allows (c : Custody) : Note → Bool
  | .spawned _ => c.procs.all (·.reaped)
  | .waitFailed => false
  | .waitDropped => false
  | _ => true

/-- Whether a registration is for the process that was spawned last. -/
def names (c : Custody) : Note → Bool
  | .registered _ _ pid => c.procs[c.last]?.any fun p => p.pid = pid
  | _ => true

end Custody

/-- **No child has got out of sight.** -/
def Careful (log : List Note) : Bool := Guarded.all Custody.step Custody.allows {} log

/-- Each registration was for the process that had been spawned last. -/
def WellNamed (log : List Note) : Bool := Guarded.all Custody.step Custody.names {} log

theorem wellNamed_snoc {log : List Note} {n : Note} (h : WellNamed log = true)
    (hn : (Custody.run log).names n = true) : WellNamed (log ++ [n]) = true := by
  rw [WellNamed, Guarded.all_snoc, Bool.and_eq_true]
  exact ⟨h, hn⟩

theorem careful_snoc (log : List Note) (n : Note) :
    Careful (log ++ [n]) = (Careful log && (Custody.run log).allows n) :=
  Guarded.all_snoc _ _ _ log n

theorem careful_of_snoc {log : List Note} {n : Note} (h : Careful (log ++ [n]) = true) :
    Careful log = true ∧ (Custody.run log).allows n = true := by
  rwa [careful_snoc, Bool.and_eq_true] at h

theorem not_careful_snoc {log : List Note} {n : Note} (h : Careful (log ++ [n]) = false) :
    Careful log = false ∨ (Custody.run log).allows n = false := by
  rwa [careful_snoc, Bool.and_eq_false_iff] at h

/-- A note that says nothing about a child getting out of sight. -/
theorem not_careful_of_snoc {log : List Note} {n : Note} (hn : ∀ c : Custody, c.allows n = true)
    (h : Careful (log ++ [n]) = false) : Careful log = false := by
  refine (not_careful_snoc h).resolve_right fun hallows => ?_
  rw [hn] at hallows
  cases hallows

/-! ### The machine and the notes -/

/-- What a machine in its world has to do with children. -/
structure View where
  process : Option Child
  signalForwarder : Option SignalForwarder
  procs : List Proc
  log : List Note

/-- The custody that the notes tell of. -/
def View.custody (v : View) : Custody := Custody.run v.log

/-- The part of a state that has to do with children. -/
def Sys.view {W : Type} (s : Sys (Recorded W)) : View where
  process := s.machine.process
  signalForwarder := s.machine.signalForwarder
  procs := s.procs
  log := s.world.log

/-- **The machine knows where its children are.** The processes are those that the notes tell
of; the child in `process` is the last one and has a status exactly if it has been reaped; a
live registration is the one of the forwarder; and as long as no child has got out of
sight, one that has not been reaped is the child in `process`. A child that has got out of
sight is never reaped. -/
structure Tracked (v : View) : Prop where
  wellNamed : WellNamed v.log = true
  mirror : v.custody.procs = v.procs
  ended : ∀ (i : ℕ) (p : Proc), v.procs[i]? = some p → p.reaped = true → p.exit.isSome = true
  child : ∀ c, v.process = some c → c.uid + 1 = v.procs.length ∧
    ∃ p, v.procs[c.uid]? = some p ∧ p.pid = c.pid ∧ p.reaped = c.done.isSome
  forwarder : ∀ r ∈ v.custody.live, ∃ f, v.signalForwarder = some f ∧ r.id = f.registrationId
  named : ∀ r ∈ v.custody.live, ∃ p, v.procs[r.uid]? = some p ∧ p.pid = r.pid
  kept : Careful v.log = true → ∀ (i : ℕ) (p : Proc), v.procs[i]? = some p →
    p.reaped = false → ∃ c, v.process = some c ∧ c.uid = i
  lost : Careful v.log = false → ∃ (i : ℕ) (p : Proc), v.procs[i]? = some p ∧ p.reaped = false ∧
    ∀ c, v.process = some c → c.uid ≠ i

/-- **Nothing is left half done**: the child in `process` has not been reaped, and neither has
the process that a live registration names. -/
structure Rested (v : View) : Prop where
  running : ∀ c, v.process = some c → c.done = none
  unreaped : ∀ r ∈ v.custody.live, ∀ p, v.procs[r.uid]? = some p → p.reaped = false

/-- The two together. -/
def Held (v : View) : Prop := Tracked v ∧ Rested v

/-! ### Changing one process -/

theorem modify_congr {α : Type} {l : List α} {i : ℕ} {f g : α → α}
    (h : ∀ a, l[i]? = some a → f a = g a) : l.modify i f = l.modify i g := by
  refine List.ext_getElem? fun j => ?_
  by_cases hij : i = j
  · subst hij
    rw [List.getElem?_modify_eq, List.getElem?_modify_eq]
    cases hl : l[i]? with
    | none => rfl
    | some a => exact congrArg some (h a hl)
  · rw [List.getElem?_modify_ne _ _ hij, List.getElem?_modify_ne _ _ hij]

theorem getElem?_snoc_eq_some {α : Type} {l : List α} {a b : α} {i : ℕ} :
    (l ++ [a])[i]? = some b ↔ l[i]? = some b ∨ i = l.length ∧ a = b := by
  rcases lt_trichotomy i l.length with hi | rfl | hi
  · rw [List.getElem?_append_left hi]
    simp [hi.ne]
  · simp
  · have hnone : (l ++ [a])[i]? = none := by
      rw [List.getElem?_eq_none_iff, List.length_append, List.length_singleton]
      omega
    rw [hnone, List.getElem?_eq_none_iff.mpr hi.le]
    simp [hi.ne']

theorem endProc_pid (status : ExitStatus) (p : Proc) : (Op.endProc status p).pid = p.pid := by
  unfold Op.endProc
  split <;> rfl

/-- Ending touches neither the id of a process nor whether it has been reaped. -/
theorem endAll_getElem? (exits : List (ℕ × ExitStatus)) (procs : List Proc) (i : ℕ) :
    ∃ g : Proc → Proc, (endAll exits procs)[i]? = procs[i]?.map g ∧
      ∀ p, (g p).pid = p.pid ∧ (g p).reaped = p.reaped ∧
        (p.exit.isSome = true → (g p).exit.isSome = true) := by
  induction exits generalizing procs with
  | nil => exact ⟨id, by simp [endAll], fun _ => ⟨rfl, rfl, fun h => h⟩⟩
  | cons e exits ih =>
    obtain ⟨g, hg, hkeeps⟩ := ih (procs.modify e.1 (Op.endProc e.2))
    refine ⟨fun p => g (if e.1 = i then Op.endProc e.2 p else p), ?_, fun p => ?_⟩
    · change (endAll exits (procs.modify e.1 (Op.endProc e.2)))[i]? = _
      rw [hg, List.getElem?_modify]
      cases procs[i]? <;> rfl
    · have hend : (Op.endProc e.2 p).reaped = p.reaped := by
        unfold Op.endProc
        split <;> rfl
      by_cases hi : e.1 = i
      · obtain ⟨hpid, hreaped, hexit⟩ := hkeeps (Op.endProc e.2 p)
        simp only [hi, if_true]
        exact ⟨hpid.trans (endProc_pid e.2 p), hreaped.trans hend,
          fun _ => hexit (isSome_endProc_exit e.2 p)⟩
      · simp only [hi, if_false]
        exact hkeeps p

theorem endAll_length (exits : List (ℕ × ExitStatus)) (procs : List Proc) :
    (endAll exits procs).length = procs.length :=
  (settles_exits exits procs).1

/-- A process after some have ended, from the process before. -/
theorem endAll_eq_some {exits : List (ℕ × ExitStatus)} {procs : List Proc} {i : ℕ} {p' : Proc}
    (h : (endAll exits procs)[i]? = some p') :
    ∃ p, procs[i]? = some p ∧ p'.pid = p.pid ∧ p'.reaped = p.reaped ∧
      (p.exit.isSome = true → p'.exit.isSome = true) := by
  obtain ⟨g, hg, hkeeps⟩ := endAll_getElem? exits procs i
  rw [hg, Option.map_eq_some_iff] at h
  obtain ⟨p, hp, rfl⟩ := h
  exact ⟨p, hp, hkeeps p⟩

/-- The same, the other way round. -/
theorem exists_endAll {procs : List Proc} {i : ℕ} {p : Proc} (h : procs[i]? = some p)
    (exits : List (ℕ × ExitStatus)) :
    ∃ p', (endAll exits procs)[i]? = some p' ∧ p'.pid = p.pid ∧ p'.reaped = p.reaped := by
  obtain ⟨g, hg, hkeeps⟩ := endAll_getElem? exits procs i
  exact ⟨g p, by rw [hg, h]; rfl, (hkeeps p).1, (hkeeps p).2.1⟩

/-! ### What each change does -/

variable {v : View}

theorem View.custody_snoc (v : View) (n : Note) {process : Option Child}
    {forwarder : Option SignalForwarder} {procs : List Proc} :
    (View.mk process forwarder procs (v.log ++ [n])).custody = v.custody.step n :=
  Custody.run_snoc v.log n

/-- Processes end on their own. -/
theorem Tracked.exits (h : Tracked v) (exits : List (ℕ × ExitStatus)) :
    Tracked { v with procs := endAll exits v.procs, log := v.log ++ [.exited exits] } := by
  refine ⟨wellNamed_snoc h.wellNamed rfl, ?_, fun i p' hp' hreaped => ?_, fun c hc => ?_,
    fun r hr => ?_, fun r hr => ?_, fun hcareful i p' hp' hreaped => ?_, fun hcareful => ?_⟩
  · rw [View.custody_snoc]
    exact congrArg (endAll exits) h.mirror
  · obtain ⟨p, hp, -, hsame, hexit⟩ := endAll_eq_some hp'
    exact hexit (h.ended i p hp (hsame ▸ hreaped))
  · obtain ⟨hlast, p, hp, hpid, hdone⟩ := h.child c hc
    obtain ⟨p', hp', hpid', hsame⟩ := exists_endAll hp exits
    exact ⟨hlast.trans (endAll_length exits v.procs).symm, p', hp', hpid'.trans hpid,
      hsame.trans hdone⟩
  · rw [View.custody_snoc] at hr
    exact h.forwarder r hr
  · rw [View.custody_snoc] at hr
    obtain ⟨p, hp, hpid⟩ := h.named r hr
    obtain ⟨p', hp', hpid', -⟩ := exists_endAll hp exits
    exact ⟨p', hp', hpid'.trans hpid⟩
  · obtain ⟨p, hp, -, hsame, -⟩ := endAll_eq_some hp'
    exact h.kept (careful_of_snoc hcareful).1 i p hp (hsame ▸ hreaped)
  · obtain ⟨i, p, hp, hreaped, hgone⟩ := h.lost (not_careful_of_snoc (fun _ => rfl) hcareful)
    obtain ⟨p', hp', -, hsame⟩ := exists_endAll hp exits
    exact ⟨i, p', hp', hsame.trans hreaped, hgone⟩

theorem Rested.exits (h : Rested v) (exits : List (ℕ × ExitStatus)) :
    Rested { v with procs := endAll exits v.procs, log := v.log ++ [.exited exits] } := by
  refine ⟨h.running, fun r hr p' hp' => ?_⟩
  rw [View.custody_snoc] at hr
  obtain ⟨p, hp, -, hsame, -⟩ := endAll_eq_some hp'
  exact hsame.trans (h.unreaped r hr p hp)

/-- A process is spawned. -/
theorem Tracked.spawn (h : Tracked v) (pid : ℕ) :
    Tracked { v with
      process := some { uid := v.procs.length, pid := pid }
      procs := v.procs ++ [{ pid := pid }]
      log := v.log ++ [.spawned pid] } := by
  have hprocs : (Custody.run v.log).procs = v.procs := h.mirror
  refine ⟨wellNamed_snoc h.wellNamed rfl, ?_, fun i p hp hreaped => ?_, fun c hc => ?_,
    fun r hr => ?_, fun r hr => ?_, fun hcareful i p hp hreaped => ?_, fun hcareful => ?_⟩
  · rw [View.custody_snoc]
    exact congrArg (· ++ _) h.mirror
  · rcases getElem?_snoc_eq_some.mp hp with hold | ⟨-, rfl⟩
    · exact h.ended i p hold hreaped
    · cases hreaped
  · obtain rfl := Option.some.inj hc
    exact ⟨by simp, _, getElem?_snoc_eq_some.mpr (.inr ⟨rfl, rfl⟩), rfl, rfl⟩
  · rw [View.custody_snoc] at hr
    exact h.forwarder r hr
  · rw [View.custody_snoc] at hr
    obtain ⟨p, hp, hpid⟩ := h.named r hr
    exact ⟨p, getElem?_snoc_eq_some.mpr (.inl hp), hpid⟩
  · -- everything before has been reaped
    obtain ⟨-, hallows⟩ := careful_of_snoc hcareful
    have hall : ∀ p ∈ v.procs, p.reaped = true := by
      simpa [Custody.allows, hprocs] using hallows
    rcases getElem?_snoc_eq_some.mp hp with hold | ⟨rfl, -⟩
    · rw [hall p (List.mem_of_getElem? hold)] at hreaped
      cases hreaped
    · exact ⟨_, rfl, rfl⟩
  · -- one that was there before has not been reaped, and is not the new child
    have hold : ∃ (i : ℕ) (p : Proc), v.procs[i]? = some p ∧ p.reaped = false := by
      rcases not_careful_snoc hcareful with hlost | hallows
      · obtain ⟨i, p, hp, hreaped, -⟩ := h.lost hlost
        exact ⟨i, p, hp, hreaped⟩
      · have hsome : ∃ p ∈ v.procs, p.reaped = false := by
          simpa [Custody.allows, hprocs] using hallows
        obtain ⟨p, hp, hreaped⟩ := hsome
        obtain ⟨i, hi⟩ := List.mem_iff_getElem?.mp hp
        exact ⟨i, p, hi, hreaped⟩
    obtain ⟨i, p, hp, hreaped⟩ := hold
    refine ⟨i, p, getElem?_snoc_eq_some.mpr (.inl hp), hreaped, fun c hc => ?_⟩
    obtain rfl := Option.some.inj hc
    exact (List.getElem?_eq_some_iff.mp hp).1.ne'

theorem Rested.spawn (h : Rested v) (pid : ℕ) :
    Rested { v with
      process := some { uid := v.procs.length, pid := pid }
      procs := v.procs ++ [{ pid := pid }]
      log := v.log ++ [.spawned pid] } := by
  refine ⟨fun c hc => ?_, fun r hr p hp => ?_⟩
  · obtain rfl := Option.some.inj hc
    rfl
  · rw [View.custody_snoc] at hr
    rcases getElem?_snoc_eq_some.mp hp with hold | ⟨-, rfl⟩
    · exact h.unreaped r hr p hold
    · rfl

/-- The child is the process that was spawned last. -/
theorem Tracked.last_eq (h : Tracked v) {c : Child} (hc : v.process = some c) :
    v.custody.last = c.uid := by
  have hlast := (h.child c hc).1
  rw [Custody.last, h.mirror]
  omega

/-- `waitpid(2)` finds the child running. -/
theorem Tracked.tried (h : Tracked v) {c : Child} (hc : v.process = some c)
    (hrunning : Op.exitOf v.procs c.uid = none) :
    Tracked { v with log := v.log ++ [.tried] } := by
  refine ⟨wellNamed_snoc h.wellNamed rfl, ?_, h.ended, h.child, fun r hr => ?_, fun r hr => ?_,
    fun hcareful => h.kept (careful_of_snoc hcareful).1,
    fun hcareful => h.lost (not_careful_of_snoc (fun _ => rfl) hcareful)⟩
  · have hsame : v.procs.modify c.uid Proc.tryReap = v.procs.modify c.uid id := by
      refine modify_congr fun p hp => ?_
      have hexit : p.exit = none := by
        rw [Op.exitOf, hp] at hrunning
        exact hrunning
      rw [Proc.tryReap, hexit]
      rfl
    rw [View.custody_snoc]
    change v.custody.procs.modify v.custody.last Proc.tryReap = v.procs
    rw [h.mirror, h.last_eq hc, hsame, List.modify_id]
  · rw [View.custody_snoc] at hr
    exact h.forwarder r hr
  · rw [View.custody_snoc] at hr
    exact h.named r hr

theorem Rested.tried (h : Rested v) : Rested { v with log := v.log ++ [.tried] } := by
  refine ⟨h.running, fun r hr => ?_⟩
  rw [View.custody_snoc] at hr
  exact h.unreaped r hr

/-- The child is reaped, as a process that has ended. What is left of it in `process` has a
status if it stays there. -/
theorem Tracked.reaped (h : Tracked v) {c : Child} (hc : v.process = some c) {n : Note}
    {procs' : List Proc} {f : Proc → Proc} {process' : Option Child}
    (hmirror : (v.custody.step n).procs = v.procs.modify c.uid f)
    (hlive : (v.custody.step n).live = v.custody.live) (hn : ∀ c : Custody, c.allows n = true)
    (hnames : (Custody.run v.log).names n = true) (hprocs : procs' = v.procs.modify c.uid f)
    (hf : ∀ p, v.procs[c.uid]? = some p → (f p).pid = p.pid ∧ (f p).reaped = true ∧
      (f p).exit.isSome = true)
    (hprocess : ∀ c', process' = some c' → c'.uid = c.uid ∧ c'.pid = c.pid ∧
      c'.done.isSome = true) :
    Tracked { v with process := process', procs := procs', log := v.log ++ [n] } := by
  obtain ⟨hlast, p₀, hp₀, hpid₀, -⟩ := h.child c hc
  have hat : (v.procs.modify c.uid f)[c.uid]? = some (f p₀) := by
    rw [List.getElem?_modify_eq, hp₀]
    rfl
  have hne : ∀ {i : ℕ}, i ≠ c.uid → (v.procs.modify c.uid f)[i]? = v.procs[i]? := fun hi =>
    List.getElem?_modify_ne _ _ hi.symm
  subst hprocs
  refine ⟨wellNamed_snoc h.wellNamed hnames, ?_, fun i p hp hreaped => ?_, fun c' hc' => ?_,
    fun r hr => ?_, fun r hr => ?_, fun hcareful i p hp hreaped => ?_, fun hcareful => ?_⟩
  · rw [View.custody_snoc]
    exact hmirror
  · by_cases hi : i = c.uid
    · -- the child itself: what `f` makes of it has exited
      subst hi
      obtain rfl := Option.some.inj (hat.symm.trans hp)
      exact (hf p₀ hp₀).2.2
    · exact h.ended i p ((hne hi).symm.trans hp) hreaped
  · obtain ⟨huid, hpid, hdone⟩ := hprocess c' hc'
    rw [huid, hpid, hdone]
    exact ⟨hlast.trans (List.length_modify ..).symm, _, hat, (hf p₀ hp₀).1.trans hpid₀,
      (hf p₀ hp₀).2.1⟩
  · rw [View.custody_snoc, hlive] at hr
    exact h.forwarder r hr
  · rw [View.custody_snoc, hlive] at hr
    obtain ⟨p, hp, hpid⟩ := h.named r hr
    by_cases hi : r.uid = c.uid
    · rw [hi] at hp
      obtain rfl := Option.some.inj (hp₀.symm.trans hp)
      exact ⟨_, by rw [hi]; exact hat, (hf p₀ hp₀).1.trans hpid⟩
    · exact ⟨p, (hne hi).trans hp, hpid⟩
  · -- the child was the only one that had not been reaped
    by_cases hi : i = c.uid
    · subst hi
      obtain rfl := Option.some.inj (hat.symm.trans hp)
      rw [(hf p₀ hp₀).2.1] at hreaped
      cases hreaped
    · obtain ⟨c', hc', huid⟩ :=
        h.kept (careful_of_snoc hcareful).1 i p ((hne hi).symm.trans hp) hreaped
      obtain rfl := Option.some.inj (hc.symm.trans hc')
      exact absurd huid.symm hi
  · -- the one that was lost is not the child, and stays as it is
    obtain ⟨i, p, hp, hreaped, hgone⟩ := h.lost (not_careful_of_snoc hn hcareful)
    have hi : i ≠ c.uid := (hgone c hc).symm
    refine ⟨i, p, (hne hi).trans hp, hreaped, fun c' hc' => ?_⟩
    rw [(hprocess c' hc').1]
    exact hi.symm

/-- `waitpid(2)` finds that the child has ended. -/
theorem Tracked.observed (h : Tracked v) {c : Child} (hc : v.process = some c)
    {status : ExitStatus} (hexit : Op.exitOf v.procs c.uid = some status) :
    Tracked { v with
      process := some { c with done := some status }
      procs := v.procs.modify c.uid Proc.reap
      log := v.log ++ [.tried] } := by
  have hended : ∀ p, v.procs[c.uid]? = some p → p.exit = some status := by
    intro p hp
    rw [Op.exitOf, hp] at hexit
    exact hexit
  refine h.reaped hc ?_ rfl (fun _ => rfl) rfl rfl (fun p hp => ⟨rfl, rfl, ?_⟩) ?_
  · change v.custody.procs.modify v.custody.last Proc.tryReap = _
    rw [h.mirror, h.last_eq hc]
    refine modify_congr fun p hp => ?_
    rw [Proc.tryReap, hended p hp]
    rfl
  · change p.exit.isSome = true
    rw [hended p hp]
    rfl
  · rintro c' ⟨⟩
    exact ⟨rfl, rfl, rfl⟩

/-- The child ends while it is awaited. -/
theorem Tracked.waited (h : Tracked v) {c : Child} (hc : v.process = some c)
    (status : ExitStatus) :
    Tracked { v with
      process := none
      procs := (v.procs.modify c.uid (Op.endProc status)).modify c.uid Proc.reap
      log := v.log ++ [.waited status] } := by
  have hboth : (v.procs.modify c.uid (Op.endProc status)).modify c.uid Proc.reap =
      v.procs.modify c.uid (Proc.reap ∘ Op.endProc status) := List.modify_modify_eq ..
  refine h.reaped hc ?_ rfl (fun _ => rfl) rfl hboth
    (fun p _ => ⟨?_, rfl, isSome_endProc_exit status p⟩) (by simp)
  · change (v.custody.procs.modify v.custody.last (Op.endProc status)).modify v.custody.last
      Proc.reap = _
    rw [h.mirror, h.last_eq hc, hboth]
  · exact endProc_pid status p

/-- A child that has been reaped leaves the machine. -/
theorem Tracked.collect (h : Tracked v) {c : Child} (hc : v.process = some c)
    (hdone : c.done.isSome = true) : Tracked { v with process := none } := by
  refine ⟨h.wellNamed, h.mirror, h.ended, fun c' hc' => absurd hc' (by simp), h.forwarder, h.named,
    fun hcareful i p hp hreaped => ?_, fun hcareful => ?_⟩
  · obtain ⟨c', hc', rfl⟩ := h.kept hcareful i p hp hreaped
    obtain rfl := Option.some.inj (hc.symm.trans hc')
    obtain ⟨-, p', hp', -, hsame⟩ := h.child c hc
    obtain rfl := Option.some.inj (hp.symm.trans hp')
    rw [hreaped, hdone] at hsame
    cases hsame
  · obtain ⟨i, p, hp, hreaped, -⟩ := h.lost hcareful
    exact ⟨i, p, hp, hreaped, fun c' hc' => absurd hc' (by simp)⟩

/-- A child leaves the machine before it has been reaped. -/
theorem Tracked.lose (h : Tracked v) {c : Child} (hc : v.process = some c) (hdone : c.done = none)
    {n : Note} (hn : n = .waitFailed ∨ n = .waitDropped) :
    Tracked { v with process := none, log := v.log ++ [n] } := by
  have hsame : v.custody.step n = v.custody := by
    rcases hn with rfl | rfl <;> rfl
  have hnames : (Custody.run v.log).names n = true := by
    rcases hn with rfl | rfl <;> rfl
  refine ⟨wellNamed_snoc h.wellNamed hnames, ?_, h.ended, fun c hc => absurd hc (by simp),
    fun r hr => ?_, fun r hr => ?_, fun hcareful => ?_, fun _ => ?_⟩
  · rw [View.custody_snoc, hsame]
    exact h.mirror
  · rw [View.custody_snoc, hsame] at hr
    exact h.forwarder r hr
  · rw [View.custody_snoc, hsame] at hr
    exact h.named r hr
  · obtain ⟨-, hallows⟩ := careful_of_snoc hcareful
    rcases hn with rfl | rfl <;> cases hallows
  · obtain ⟨-, p, hp, -, hreaped⟩ := h.child c hc
    rw [hdone] at hreaped
    exact ⟨c.uid, p, hp, hreaped, fun c' hc' => absurd hc' (by simp)⟩

theorem Rested.lose (h : Rested v) {n : Note} (hn : n = .waitFailed ∨ n = .waitDropped) :
    Rested { v with process := none, log := v.log ++ [n] } := by
  have hsame : v.custody.step n = v.custody := by
    rcases hn with rfl | rfl <;> rfl
  refine ⟨fun c hc => absurd hc (by simp), fun r hr => ?_⟩
  rw [View.custody_snoc, hsame] at hr
  exact h.unreaped r hr

/-- Without a forwarder no registration is live. -/
theorem Tracked.live_eq_nil (h : Tracked v) (hf : v.signalForwarder = none) :
    v.custody.live = [] := by
  refine List.eq_nil_iff_forall_not_mem.mpr fun r hr => ?_
  obtain ⟨f, hsome, -⟩ := h.forwarder r hr
  rw [hf] at hsome
  cases hsome

/-- The forwarder is shut down. -/
theorem Tracked.unregister (h : Tracked v) {f : SignalForwarder}
    (hf : v.signalForwarder = some f) :
    Tracked { v with
      signalForwarder := none
      log := v.log ++ [.unregistered f.registrationId] } := by
  have hempty : (v.custody.step (.unregistered f.registrationId)).live = [] := by
    refine List.filter_eq_nil_iff.mpr fun r hr => ?_
    obtain ⟨f', hf', hid⟩ := h.forwarder r hr
    obtain rfl := Option.some.inj (hf.symm.trans hf')
    simp [hid]
  refine ⟨wellNamed_snoc h.wellNamed rfl, ?_, h.ended, h.child, fun r hr => ?_, fun r hr => ?_,
    fun hcareful => h.kept (careful_of_snoc hcareful).1,
    fun hcareful => h.lost (not_careful_of_snoc (fun _ => rfl) hcareful)⟩
  · rw [View.custody_snoc]
    exact h.mirror
  · rw [View.custody_snoc, hempty] at hr
    cases hr
  · rw [View.custody_snoc, hempty] at hr
    cases hr

/-- A forwarder is installed for the child. -/
theorem Held.register (h : Held v) {c : Child} (hc : v.process = some c)
    (hf : v.signalForwarder = none) (id : ℕ) (signals : List ℤ) :
    Held { v with
      signalForwarder := some ⟨id⟩
      log := v.log ++ [.registered id signals c.pid] } := by
  obtain ⟨ht, hr⟩ := h
  obtain ⟨hlast, p, hp, hpid, hdone⟩ := ht.child c hc
  have hlive : (v.custody.step (.registered id signals c.pid)).live =
      [⟨id, signals, c.pid, c.uid⟩] := by
    change v.custody.live.filter _ ++ [_] = _
    rw [ht.live_eq_nil hf, ht.last_eq hc]
    rfl
  have hnames : (Custody.run v.log).names (.registered id signals c.pid) = true := by
    change (v.custody.procs[v.custody.last]?.any fun p => p.pid = c.pid) = true
    rw [ht.mirror, ht.last_eq hc, hp]
    simpa using hpid
  -- the new registration is the only one, and names the child in `process`
  refine ⟨⟨wellNamed_snoc ht.wellNamed hnames, ?_, ht.ended, ht.child, fun r hmem => ?_,
    fun r hmem => ?_, fun hcareful => ht.kept (careful_of_snoc hcareful).1,
    fun hcareful => ht.lost (not_careful_of_snoc (fun _ => rfl) hcareful)⟩, hr.running,
    fun r hmem p' hp' => ?_⟩
  · rw [View.custody_snoc]
    exact ht.mirror
  · rw [View.custody_snoc, hlive, List.mem_singleton] at hmem
    subst hmem
    exact ⟨_, rfl, rfl⟩
  · rw [View.custody_snoc, hlive, List.mem_singleton] at hmem
    subst hmem
    exact ⟨p, hp, hpid⟩
  · rw [View.custody_snoc, hlive, List.mem_singleton] at hmem
    subst hmem
    obtain rfl := Option.some.inj (hp.symm.trans hp')
    rw [hdone, hr.running c hc]
    rfl

end FirecrackerSdk
