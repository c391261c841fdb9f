import FirecrackerSdk.Lib.Text
import FirecrackerSdk.Machine.World
import Mathlib.Logic.Relation

/-!
# The ledger of a machine

An abstract model of what a machine owns, and of everything that can happen to it. The
ledger (`FirecrackerSdk.Ledger`) keeps the fields of a machine that its lifecycle
writes, the processes it has spawned and the trace, and forgets the rest: the
configuration, the world, the clock. A step of the ledger (`FirecrackerSdk.Step`) is an
atomic piece of a lifecycle operation, one that no dropped future can cut in two; in
particular a drain and the writing down of what failed in it are one step.

The operations of the model walk along these steps, whatever the environment answers
and wherever they stop; this is proved in `FirecrackerSdk.Machine.Walk`. The theorems about
whole runs are then proved once for each step.

What a run may do is restricted by a policy (`FirecrackerSdk.Policy`): in which
ledgers it may spawn, and on whose behalf it may drain.
-/

namespace FirecrackerSdk

/-! ### Processes end once -/

/-- **What time can do to the spawned processes**: some end, none changes its exit
status. -/
def Settles (procs procs' : List Proc) : Prop :=
  procs'.length = procs.length ∧
    ∀ i, (Op.exitOf procs i).isSome → Op.exitOf procs' i = Op.exitOf procs i

theorem Settles.refl (procs : List Proc) : Settles procs procs := ⟨rfl, fun _ _ => rfl⟩

theorem Settles.trans {p q r : List Proc} (h : Settles p q) (h' : Settles q r) : Settles p r := by
  refine ⟨h'.1.trans h.1, fun i hi => ?_⟩
  have hq := h.2 i hi
  rw [h'.2 i (by rwa [hq]), hq]

theorem exitOf_modify_self (procs : List Proc) (i : ℕ) (f : Proc → Proc) :
    Op.exitOf (procs.modify i f) i = procs[i]?.bind fun p => (f p).exit := by
  unfold Op.exitOf
  rw [List.getElem?_modify_eq]
  cases procs[i]? <;> rfl

theorem exitOf_modify_ne (procs : List Proc) {i j : ℕ} (f : Proc → Proc) (h : i ≠ j) :
    Op.exitOf (procs.modify i f) j = Op.exitOf procs j := by
  unfold Op.exitOf
  rw [List.getElem?_modify]
  simp only [h, if_false, id_map']

/-- Changing one process is settling, as long as an exit status stays. -/
theorem settles_modify (procs : List Proc) (i : ℕ) {f : Proc → Proc}
    (h : ∀ p, p.exit.isSome → (f p).exit = p.exit) : Settles procs (procs.modify i f) := by
  refine ⟨List.length_modify .., fun j hj => ?_⟩
  by_cases hij : i = j
  · subst hij
    rw [exitOf_modify_self]
    unfold Op.exitOf at hj ⊢
    cases hp : procs[i]? with
    | none => rfl
    | some p =>
      rw [hp] at hj
      exact h p hj
  · exact exitOf_modify_ne procs f hij

theorem endProc_exit {status : ExitStatus} {p : Proc} (h : p.exit.isSome) :
    (Op.endProc status p).exit = p.exit := by
  rw [Op.endProc, if_pos h]

theorem isSome_endProc_exit (status : ExitStatus) (p : Proc) :
    (Op.endProc status p).exit.isSome := by
  unfold Op.endProc
  split
  · assumption
  · rfl

theorem settles_exits (exits : List (ℕ × ExitStatus)) (procs : List Proc) :
    Settles procs (exits.foldl (fun procs e => procs.modify e.1 (Op.endProc e.2)) procs) := by
  induction exits generalizing procs with
  | nil => exact Settles.refl procs
  | cons e exits ih =>
    exact (settles_modify procs e.1 fun _ h => endProc_exit h).trans (ih _)

theorem anyRunning_iff {procs : List Proc} :
    Op.anyRunning procs = true ↔ ∃ i < procs.length, Op.exitOf procs i = none := by
  unfold Op.anyRunning
  rw [List.any_eq_true]
  constructor
  · rintro ⟨p, hp, hexit⟩
    obtain ⟨i, hi, rfl⟩ := List.getElem_of_mem hp
    refine ⟨i, hi, ?_⟩
    rw [Op.exitOf, List.getElem?_eq_getElem hi]
    exact Option.isNone_iff_eq_none.mp hexit
  · rintro ⟨i, hi, hexit⟩
    refine ⟨procs[i], List.getElem_mem hi, ?_⟩
    rw [Op.exitOf, List.getElem?_eq_getElem hi] at hexit
    exact Option.isNone_iff_eq_none.mpr hexit

/-- A process that runs has been running before. -/
theorem Settles.exitOf_eq_none {p q : List Proc} (h : Settles p q) {i : ℕ}
    (hq : Op.exitOf q i = none) : Op.exitOf p i = none := by
  by_contra hne
  have := h.2 i (Option.isSome_iff_ne_none.mpr hne)
  rw [hq] at this
  exact hne this.symm

/-- No process starts to run again. -/
theorem Settles.anyRunning {p q : List Proc} (h : Settles p q) (hq : Op.anyRunning q = true) :
    Op.anyRunning p = true := by
  obtain ⟨i, hi, hexit⟩ := anyRunning_iff.mp hq
  exact anyRunning_iff.mpr ⟨i, h.1 ▸ hi, h.exitOf_eq_none hexit⟩

/-! ### The ledger -/

/-- The fields of a machine that its lifecycle owns, and those it only reads: the handlers
and the devices of the configuration. -/
structure Core where
  handlers : Handlers
  devices : Config
  process : Option Child
  signalForwarder : Option SignalForwarder
  cleanupFuncs : List CleanupFn
  cleanupDone : Bool
  started : Bool
  fatalErr : Option Error

/-- The part of a machine that its lifecycle owns. -/
def Machine.core (m : Machine) : Core :=
  ⟨m.handlers, m.cfg.devices, m.process, m.signalForwarder, m.cleanupFuncs, m.cleanupDone,
    m.started, m.fatalErr⟩

/-- What a machine owns, and what has been done with it. -/
structure Ledger extends Core where
  procs : List Proc
  fresh : ℕ
  trace : List Event

/-- The ledger of a machine in its world. -/
def Sys.ledger {W : Type} (s : Sys W) : Ledger where
  toCore := s.machine.core
  procs := s.procs
  fresh := s.fresh
  trace := s.trace

/-- **The machine owns nothing any more**, and will not drain again. -/
structure Core.Quiescent (c : Core) : Prop where
  process : c.process = none
  signalForwarder : c.signalForwarder = none
  cleanupFuncs : c.cleanupFuncs = []
  cleanupDone : c.cleanupDone = true

/-! ### Steps -/

/-- Events of operations that own nothing, and that make only certain client calls. -/
def Event.isCalm (mayCall : ClientCall → Prop) : Event → Prop
  | .client call _ => mayCall call
  | .acquired _ => True
  | _ => False

/-- The client calls of a run, each with the error it returned. -/
def clientLog (trace : List Event) : List (ClientCall × Option Error) :=
  trace.filterMap fun
    | .client call failure => some (call, failure)
    | _ => none

theorem clientLog_append (t t' : List Event) :
    clientLog (t ++ t') = clientLog t ++ clientLog t' :=
  List.filterMap_append

/-- What the failures of a drain display, in the order of their execution. -/
def failureTexts (execs : List Execution) : List String :=
  execs.filterMap fun x => x.failure.map Error.display

/-- **`do_cleanup` on a ledger**: nothing when there is nothing to do, and else every
registered function is executed, the last one first, whatever the others
returned. -/
inductive Drained (site : DrainSite) (l : Ledger) : List Execution → Ledger → Prop
  | idle (hdone : l.cleanupDone = true) : Drained site l [] l
  | drain {execs : List Execution} {procs' : List Proc} (hdone : l.cleanupDone = false)
      (hcleanups : execs.map (·.cleanup) = l.cleanupFuncs.reverse)
      (hsite : ∀ x ∈ execs, x.site = site) (hfatal : ∀ x ∈ execs, x.fatal = l.fatalErr)
      (hrunning : ∀ x ∈ execs, x.vmmRunning = true → Op.anyRunning l.procs = true)
      (hprocs : Settles l.procs procs') :
      Drained site l execs
        { l with
          cleanupDone := true
          cleanupFuncs := []
          procs := procs'
          trace := l.trace ++ .drainBegin :: (execs.map .executed ++ [.drainEnd]) }

/-- Where a run may spawn a process, on whose behalf it may drain, whether it may link files
into a jail, and which client calls it may make. -/
structure Policy where
  mayLaunch : Ledger → Prop := fun _ => True
  mayDrain : DrainSite → Prop := fun _ => True
  mayRelink : Prop := True
  mayCall : ClientCall → Prop := fun _ => True

/-- **Everything that can happen to a ledger.** -/
inductive Step (p : Policy) : Ledger → Ledger → Prop
  /-- Something that owns nothing. -/
  | calm {l : Ledger} {fresh' : ℕ} {events : List Event} (hfresh : l.fresh ≤ fresh')
      (hevents : ∀ e ∈ events, e.isCalm p.mayCall) :
      Step p l { l with fresh := fresh', trace := l.trace ++ events }
  /-- Time passes. -/
  | settle {l : Ledger} {procs' : List Proc} (h : Settles l.procs procs') :
      Step p l { l with procs := procs' }
  /-- Files are linked into a jail, and the configuration names them as they are called
  there. -/
  | relink {l : Ledger} {kernelImagePath : String} {initrdPath logFifo metricsFifo : Option String}
      {drives : List Drive} (hrelink : p.mayRelink) :
      Step p l
        { l with
          devices := { l.devices with
            kernelImagePath := kernelImagePath
            initrdPath := initrdPath
            logFifo := logFifo
            metricsFifo := metricsFifo
            drives := drives } }
  /-- `start` is entered for the first time. -/
  | begin {l : Ledger} : Step p l { l with started := true }
  /-- Cleanup functions are registered that were boxed just now. -/
  | push {l : Ledger} {fresh' : ℕ} {events : List Event} {cleanups : List CleanupFn}
      (hfresh : l.fresh ≤ fresh') (hevents : ∀ e ∈ events, e.isCalm p.mayCall)
      (hnodup : (cleanups.map (·.id)).Nodup)
      (hids : ∀ c ∈ cleanups, l.fresh ≤ c.id ∧ c.id < fresh') :
      Step p l
        { l with
          fresh := fresh'
          cleanupDone := false
          cleanupFuncs := l.cleanupFuncs ++ cleanups
          trace := l.trace ++ events ++ cleanups.map .pushed }
  /-- The VMM is spawned, and the removal of its socket registered. -/
  | launch {l : Ledger} {pid : ℕ} {cleanup : CleanupFn} (hlaunch : p.mayLaunch l)
      (hid : cleanup.id = l.fresh) :
      Step p l
        { l with
          process := some { uid := l.procs.length, pid := pid }
          procs := l.procs ++ [{ pid := pid }]
          fresh := l.fresh + 1
          cleanupDone := false
          cleanupFuncs := l.cleanupFuncs ++ [cleanup]
          trace := l.trace ++ [.pushed cleanup] }
  /-- The exit of the child has been seen. -/
  | observe {l : Ledger} {child : Child} {status : ExitStatus} (hchild : l.process = some child)
      (hexit : Op.exitOf l.procs child.uid = some status) :
      Step p l { l with process := some { child with done := some status } }
  /-- A child that has exited leaves the machine. -/
  | collect {l : Ledger} {child : Child} (hchild : l.process = some child)
      (hexit : child.done.isSome ∨
        (child.uid < l.procs.length → (Op.exitOf l.procs child.uid).isSome)) :
      Step p l { l with process := none }
  /-- A child that may be running leaves the machine. -/
  | abandon {l : Ledger} {child : Child} (hchild : l.process = some child) :
      Step p l { l with process := none, trace := l.trace ++ [.abandoned child.uid] }
  /-- Signals are forwarded to the child from now on. -/
  | forward {l : Ledger} {child : Child} {forwarder : SignalForwarder}
      (hchild : l.process = some child) : Step p l { l with signalForwarder := some forwarder }
  /-- Signals are not forwarded any more. -/
  | unforward {l : Ledger} : Step p l { l with signalForwarder := none }
  /-- A drain whose result is remembered, unless something else is already. -/
  | finalize {l l' : Ledger} {site : DrainSite} {execs : List Execution} {failure : Option Error}
      (hsite : p.mayDrain site) (hne : site ≠ .abort) (hprocess : l.process = none)
      (hforwarder : l.signalForwarder = none) (hdrain : Drained site l execs l')
      (hfailure : ∀ t ∈ failureTexts execs,
        ∃ e, failure = some e ∧ Text.Occurs t e.copy.display) :
      Step p l { l' with fatalErr := l'.fatalErr.or (failure.map Error.copy) }
  /-- `abort_start` is entered. -/
  | aborting {l : Ledger} {cause : Error} :
      Step p l { l with trace := l.trace ++ [.aborting l.fatalErr cause] }
  /-- A drain that ends a failed start. What it reports takes the place of what was
  remembered; it shows the cause that `abort_start` was entered with. -/
  | abort {l l' : Ledger} {execs : List Execution} {before after : List Event}
      {fatal : Option Error} {cause e : Error} (hsite : p.mayDrain .abort)
      (hprocess : l.process = none) (hforwarder : l.signalForwarder = none)
      (hentered : l.trace = before ++ .aborting fatal cause :: after)
      (hafter : ∀ x, .executed x ∈ after → x.site = .abortStop)
      (hdrain : Drained .abort l execs l')
      (hcause : ∀ t, Text.Occurs t cause.display → Text.Occurs t cause.copy.display →
        Text.Occurs t e.copy.display)
      (hfailure : ∀ t ∈ failureTexts execs, Text.Occurs t e.copy.display) :
      Step p l { l' with fatalErr := some e }

/-- A walk along the steps that a policy allows. -/
abbrev Walk (p : Policy) : Ledger → Ledger → Prop := Relation.ReflTransGen (Step p)

/-- Everything that `p` allows, `q` allows. -/
structure Policy.Stricter (p q : Policy) : Prop where
  launch : ∀ l, p.mayLaunch l → q.mayLaunch l
  drain : ∀ site, p.mayDrain site → q.mayDrain site
  relink : p.mayRelink → q.mayRelink
  call : ∀ c, p.mayCall c → q.mayCall c

theorem Event.isCalm.mono {A B : ClientCall → Prop} (h : ∀ c, A c → B c) {e : Event}
    (he : e.isCalm A) : e.isCalm B := by
  cases e with
  | client call failure => exact h call he
  | acquired cleanup => trivial
  | _ => exact he.elim

/-- What is allowed stays allowed under a laxer policy. -/
theorem Step.mono {p q : Policy} (hpq : p.Stricter q) {l l' : Ledger} (h : Step p l l') :
    Step q l l' := by
  cases h with
  | calm hfresh hevents => exact .calm hfresh fun e he => (hevents e he).mono hpq.call
  | settle h => exact .settle h
  | relink hrelink => exact .relink (hpq.relink hrelink)
  | begin => exact .begin
  | push hfresh hevents hnodup hids =>
    exact .push hfresh (fun e he => (hevents e he).mono hpq.call) hnodup hids
  | launch hlaunch hid => exact .launch (hpq.launch _ hlaunch) hid
  | observe hchild hexit => exact .observe hchild hexit
  | collect hchild hexit => exact .collect hchild hexit
  | abandon hchild => exact .abandon hchild
  | forward hchild => exact .forward hchild
  | unforward => exact .unforward
  | finalize hsite hne hprocess hforwarder hdrain hfailure =>
    exact .finalize (hpq.drain _ hsite) hne hprocess hforwarder hdrain hfailure
  | aborting => exact .aborting
  | abort hsite hprocess hforwarder hentered hafter hdrain hcause hfailure =>
    exact .abort (hpq.drain _ hsite) hprocess hforwarder hentered hafter hdrain hcause hfailure

theorem Walk.mono {p q : Policy} (hpq : p.Stricter q) {l l' : Ledger} (h : Walk p l l') :
    Walk q l l' :=
  Relation.ReflTransGen.mono (fun _ _ => Step.mono hpq) _ _ h

/-- **What every step preserves holds after every walk.** -/
theorem Walk.invariant {p : Policy} {I : Ledger → Prop}
    (hstep : ∀ l l', Step p l l' → I l → I l') {l l' : Ledger} (h : Walk p l l') (hl : I l) :
    I l' := by
  induction h with
  | refl => exact hl
  | tail _ hs ih => exact hstep _ _ hs ih

/-- A machine that has been started stays so. -/
theorem Walk.started {p : Policy} {l l' : Ledger} (h : Walk p l l') (hl : l.started = true) :
    l'.started = true := by
  refine Walk.invariant (I := fun l => l.started = true) (fun l l' hstep hl => ?_) h hl
  cases hstep with
  | begin => rfl
  | finalize _ _ _ _ hdrain _ => cases hdrain <;> exact hl
  | abort _ _ _ _ _ hdrain _ _ => cases hdrain <;> exact hl
  | _ => exact hl

/-- The handlers of a machine stay the same. -/
theorem Walk.handlers {p : Policy} {l l' : Ledger} (h : Walk p l l') :
    l'.handlers = l.handlers := by
  refine Walk.invariant (I := fun l' => l'.handlers = l.handlers) (fun l₁ l₂ hstep hl => ?_) h rfl
  cases hstep with
  | finalize _ _ _ _ hdrain _ => cases hdrain <;> exact hl
  | abort _ _ _ _ _ hdrain _ _ => cases hdrain <;> exact hl
  | _ => exact hl

/-- Nothing changes the vsock devices. -/
theorem Walk.vsockDevices {p : Policy} {l l' : Ledger} (h : Walk p l l') :
    l'.devices.vsockDevices = l.devices.vsockDevices := by
  refine Walk.invariant (I := fun l' => l'.devices.vsockDevices = l.devices.vsockDevices)
    (fun l₁ l₂ hstep hl => ?_) h rfl
  cases hstep with
  | finalize _ _ _ _ hdrain _ => cases hdrain <;> exact hl
  | abort _ _ _ _ _ hdrain _ _ => cases hdrain <;> exact hl
  | _ => exact hl

/-- Where no file is linked, the devices of the configuration stay the same. -/
theorem Walk.devices {p : Policy} (hp : ¬ p.mayRelink) {l l' : Ledger} (h : Walk p l l') :
    l'.devices = l.devices := by
  refine Walk.invariant (I := fun l' => l'.devices = l.devices) (fun l₁ l₂ hstep hl => ?_) h rfl
  cases hstep with
  | relink hrelink => exact absurd hrelink hp
  | finalize _ _ _ _ hdrain _ => cases hdrain <;> exact hl
  | abort _ _ _ _ _ hdrain _ _ => cases hdrain <;> exact hl
  | _ => exact hl

/-- Without a launch, a machine that has no child gets none. -/
theorem Walk.process_eq_none {p : Policy} (hp : ∀ l, ¬ p.mayLaunch l) {l l' : Ledger}
    (h : Walk p l l') (hl : l.process = none) : l'.process = none := by
  refine Walk.invariant (I := fun l => l.process = none) (fun l l' hstep hl => ?_) h hl
  cases hstep with
  | launch hlaunch _ => exact absurd hlaunch (hp l)
  | observe hchild _ =>
    rw [hl] at hchild
    cases hchild
  | collect _ _ => rfl
  | abandon _ => rfl
  | finalize _ _ _ _ hdrain _ => cases hdrain <;> exact hl
  | abort _ _ _ _ _ hdrain _ _ => cases hdrain <;> exact hl
  | _ => exact hl

/-! ### What a walk adds to the trace -/

/-- A drain adds executions on behalf of its site, and no client calls. -/
theorem Drained.trace {site : DrainSite} {l l' : Ledger} {execs : List Execution}
    (h : Drained site l execs l') :
    ∃ events, l'.trace = l.trace ++ events ∧ (∀ x, .executed x ∈ events → x.site = site) ∧
      clientLog events = [] := by
  cases h with
  | idle => exact ⟨[], by simp, by simp, rfl⟩
  | drain hdone hcleanups hsite hfatal hrunning hprocs =>
    refine ⟨_, rfl, fun x hmem => hsite x (by simpa using hmem), ?_⟩
    change clientLog (execs.map .executed ++ [.drainEnd]) = []
    rw [clientLog_append, clientLog, List.filterMap_map]
    simp [clientLog]

/-- Calm events hold no executions, and only calls that are allowed. -/
theorem calm_events {A : ClientCall → Prop} {events : List Event} (h : ∀ e ∈ events, e.isCalm A) :
    (∀ x, .executed x ∉ events) ∧ ∀ entry ∈ clientLog events, A entry.1 := by
  refine ⟨fun x hmem => h _ hmem, fun entry hmem => ?_⟩
  obtain ⟨e, he, heq⟩ := List.mem_filterMap.mp hmem
  cases e with
  | client call failure =>
    obtain rfl := Option.some.inj heq
    exact h _ he
  | _ => cases heq

theorem Step.trace {p : Policy} {l l' : Ledger} (h : Step p l l') :
    ∃ events, l'.trace = l.trace ++ events ∧ (∀ x, .executed x ∈ events → p.mayDrain x.site) ∧
      ∀ entry ∈ clientLog events, p.mayCall entry.1 := by
  cases h with
  | calm hfresh hevents =>
    obtain ⟨hexec, hcall⟩ := calm_events hevents
    exact ⟨_, rfl, fun x hmem => absurd hmem (hexec x), hcall⟩
  | push hfresh hevents hnodup hids =>
    obtain ⟨hexec, hcall⟩ := calm_events hevents
    refine ⟨_, List.append_assoc _ _ _, fun x hmem => ?_, fun entry hmem => ?_⟩
    · rcases List.mem_append.mp hmem with h | h
      · exact absurd h (hexec x)
      · simp at h
    · rw [clientLog_append] at hmem
      rcases List.mem_append.mp hmem with h | h
      · exact hcall entry h
      · rw [clientLog, List.filterMap_map] at h
        simp at h
  | launch hlaunch hid => exact ⟨_, rfl, by simp, by simp [clientLog]⟩
  | abandon hchild => exact ⟨_, rfl, by simp, by simp [clientLog]⟩
  | aborting => exact ⟨_, rfl, by simp, by simp [clientLog]⟩
  | finalize hsite _ _ _ hdrain _ =>
    obtain ⟨events, ht, hx, hlog⟩ := hdrain.trace
    exact ⟨events, ht, fun x hmem => hx x hmem ▸ hsite, by simp [hlog]⟩
  | abort hsite _ _ _ _ hdrain _ _ =>
    obtain ⟨events, ht, hx, hlog⟩ := hdrain.trace
    exact ⟨events, ht, fun x hmem => hx x hmem ▸ hsite, by simp [hlog]⟩
  | _ => exact ⟨[], by simp, by simp, by simp [clientLog]⟩

/-- **A walk adds to the trace**, drains only where it may, and makes only the client calls
that it may. -/
theorem Walk.trace {p : Policy} {l l' : Ledger} (h : Walk p l l') :
    ∃ events, l'.trace = l.trace ++ events ∧ (∀ x, .executed x ∈ events → p.mayDrain x.site) ∧
      ∀ entry ∈ clientLog events, p.mayCall entry.1 := by
  induction h with
  | refl => exact ⟨[], by simp, by simp, by simp [clientLog]⟩
  | tail _ hs ih =>
    obtain ⟨events, ht, hx, hcall⟩ := ih
    obtain ⟨more, ht', hx', hcall'⟩ := hs.trace
    refine ⟨events ++ more, by rw [ht', ht, List.append_assoc], fun x hmem => ?_,
      fun entry hmem => ?_⟩
    · rcases List.mem_append.mp hmem with h | h
      · exact hx x h
      · exact hx' x h
    · rw [clientLog_append] at hmem
      rcases List.mem_append.mp hmem with h | h
      · exact hcall entry h
      · exact hcall' entry h

end FirecrackerSdk
