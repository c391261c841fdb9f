import FirecrackerSdk.Lib.Partial
import FirecrackerSdk.Lib.Pipe
import FirecrackerSdk.Plugins

/-!
# The pipes of a plugin

`run_plugin` gives a plugin its input on one pipe and gets its output on two. It writes the whole
input first (`write_all`) and reads nothing until that is done; then it closes the input, reads both
outputs to their ends, and waits for the plugin (`wait_with_output`).

The plugin is an arbitrary program, which reads, writes and closes its descriptors as it likes and
exits when it likes; it stands for all processes that hold these descriptors. The steps of the two
and of the system come in any order.

Whether the two can wait for each other forever depends on the size of the input only: that they
cannot, whatever the plugin does, is so exactly if the input fits in a pipe
(`FirecrackerSdk.plugin_deadlock_free_iff`). What `run_plugin` returns is what the plugin wrote, to
the last byte; but if the plugin does not take all of its input, it is left behind
(`FirecrackerSdk.plugin_run_account`).
-/

namespace FirecrackerSdk

namespace PluginPipes

/-- How many bytes a pipe holds. -/
def pipeCapacity : ℕ := 65536

/-- `PIPE_BUF`: the longest write that is not split. -/
def pipeBuf : ℕ := 4096

/-- The outputs of a plugin. -/
inductive Output where
  | stdout
  | stderr
  deriving DecidableEq

/-- **What a plugin does next**, and how it goes on. -/
inductive PluginAction (σ : Type) where
  /-- Read from the standard input; at its end, and if the plugin has closed it, that is nothing. -/
  | read (next : List UInt8 → σ)
  /-- Write to an output, and go on with the number of bytes that were taken, or without one if
  nobody reads there. -/
  | write (output : Output) (bytes : List UInt8) (next : Option ℕ → σ)
  | closeStdin (next : σ)
  | closeOutput (output : Output) (next : σ)
  /-- Anything else. -/
  | think (next : σ)
  | exit (status : ExitStatus)

/-- The process of a plugin. -/
inductive Process (σ : Type) where
  | running (x : σ)
  | exited (status : ExitStatus)
  /-- It has been waited for. -/
  | reaped (status : ExitStatus)

/-- Where `run_plugin` is. -/
inductive Pc where
  /-- In `write_all`, with this much to be written. -/
  | writing (rest : List UInt8)
  /-- In `wait_with_output`, with these outputs not read to the end. -/
  | reading (left : List Output)
  /-- It has returned, from `wait_with_output` or from a `write_all` that failed. -/
  | returned (written : Bool)

/-- The two processes, and the pipes between them. -/
structure State (σ : Type) where
  stdin : Pipe pipeCapacity := {}
  stdout : Pipe pipeCapacity := {}
  stderr : Pipe pipeCapacity := {}
  plugin : Process σ
  pc : Pc

/-- A step: those of `run_plugin`, and that of the plugin. A number says how many bytes move. -/
inductive Event where
  | write (count : ℕ)
  /-- `EPIPE`. -/
  | writeFailed
  /-- `drop(stdin)`. -/
  | closeStdin
  | collect (output : Output) (count : ℕ)
  | endOfFile (output : Output)
  /-- `wait`. -/
  | reap
  | plugin (count : ℕ)

namespace State

variable {σ : Type}

/-- The pipe of an output. -/
def pipe (s : State σ) : Output → Pipe pipeCapacity
  | .stdout => s.stdout
  | .stderr => s.stderr

def setPipe (s : State σ) (pipe : Pipe pipeCapacity) : Output → State σ
  | .stdout => { s with stdout := pipe }
  | .stderr => { s with stderr := pipe }

/-- `run_plugin` returns, and its ends of the pipes are closed. -/
def finish (s : State σ) (written : Bool) : State σ :=
  { s with
    stdin := s.stdin.closeWriter
    stdout := s.stdout.closeReader
    stderr := s.stderr.closeReader
    pc := .returned written }

/-- The plugin goes on. -/
def goOn (s : State σ) (x : σ) : State σ := { s with plugin := .running x }

/-- A step of the plugin. -/
def act (s : State σ) (count : ℕ) : PluginAction σ → Option (State σ)
  | .read next =>
    if s.stdin.reader = false ∨ s.stdin.AtEnd then some (s.goOn (next []))
    else (s.stdin.read count).map fun stdin =>
      { s with stdin := stdin }.goOn (next (s.stdin.buffer.take count))
  | .write output bytes next =>
    if (s.pipe output).writer = false ∨ (s.pipe output).reader = false then
      some (s.goOn (next none))
    else if bytes = [] then some (s.goOn (next (some 0)))
    else ((s.pipe output).write pipeBuf bytes count).map fun pipe =>
      (s.setPipe pipe output).goOn (next (some count))
  | .closeStdin next => some ({ s with stdin := s.stdin.closeReader }.goOn next)
  | .closeOutput output next => some ((s.setPipe (s.pipe output).closeWriter output).goOn next)
  | .think next => some (s.goOn next)
  | .exit status =>
    some { s with
      stdin := s.stdin.closeReader
      stdout := s.stdout.closeWriter
      stderr := s.stderr.closeWriter
      plugin := .exited status }

/-- **A step.** -/
def step (action : σ → PluginAction σ) (s : State σ) : Event → Option (State σ)
  | .write count =>
    match s.pc with
    | .writing rest =>
      if s.stdin.reader then
        (s.stdin.write pipeBuf rest count).map fun stdin =>
          { s with stdin := stdin, pc := .writing (rest.drop count) }
      else none
    | _ => none
  | .writeFailed =>
    match s.pc with
    | .writing rest => if rest ≠ [] ∧ s.stdin.reader = false then some (s.finish false) else none
    | _ => none
  | .closeStdin =>
    match s.pc with
    | .writing [] => some { s with stdin := s.stdin.closeWriter, pc := .reading [.stdout, .stderr] }
    | _ => none
  | .collect output count =>
    match s.pc with
    | .reading left =>
      if output ∈ left then ((s.pipe output).read count).map fun pipe => s.setPipe pipe output
      else none
    | _ => none
  | .endOfFile output =>
    match s.pc with
    | .reading left =>
      if output ∈ left ∧ (s.pipe output).AtEnd then
        some { s with pc := .reading (left.filter (· ≠ output)) }
      else none
    | _ => none
  | .reap =>
    match s.pc, s.plugin with
    | .reading [], .exited status => some { s.finish true with plugin := .reaped status }
    | _, _ => none
  | .plugin count =>
    match s.plugin with
    | .running x => s.act count (action x)
    | _ => none

/-- `run_plugin` has returned. -/
def Returned (s : State σ) : Prop := ∃ written, s.pc = .returned written

/-- **Everybody waits.** -/
def Deadlock (action : σ → PluginAction σ) (s : State σ) : Prop :=
  ¬s.Returned ∧ ∀ event, s.step action event = none

end State

variable {σ : Type}

/-- A run, from the moment at which the plugin is started. -/
abbrev run (action : σ → PluginAction σ) (start : σ) (input : List UInt8) (events : List Event) :
    Option (State σ) :=
  Partial.run (State.step action) { plugin := .running start, pc := .writing input } events

/-! ### What a run keeps -/

/-- How much of the input was written, by the place where `run_plugin` is. -/
def Fed (input : List UInt8) (s : State σ) : Prop :=
  match s.pc with
  | .writing rest => s.stdin.sent ++ rest = input ∧ s.stdin.writer = true
  | .reading _ => s.stdin.sent = input ∧ s.stdin.writer = false
  | .returned true => s.stdin.sent = input
  | .returned false => s.stdin.reader = false ∧ ∃ rest, rest ≠ [] ∧ s.stdin.sent ++ rest = input

/-- How much of an output was read, by the place where `run_plugin` is. -/
def Drained (s : State σ) (output : Output) : Prop :=
  match s.pc with
  | .writing _ => (s.pipe output).reader = true
  | .reading left => (s.pipe output).reader = true ∧ (output ∉ left → (s.pipe output).AtEnd)
  | .returned true => (s.pipe output).AtEnd
  | .returned false => True

/-- What the end of the plugin means for the pipes. -/
def Closed (s : State σ) : Prop :=
  match s.plugin with
  | .running _ => s.pc ≠ .returned true
  | .exited _ => s.pc ≠ .returned true ∧ s.stdin.reader = false ∧
      ∀ output, (s.pipe output).writer = false
  | .reaped _ => s.pc = .returned true

/-- **What holds at any time of a run.** -/
structure Sound (input : List UInt8) (s : State σ) : Prop where
  fed : Fed input s
  drained : ∀ output, Drained s output
  closed : Closed s

section Pipes

variable (s : State σ) (pipe : Pipe pipeCapacity) (output : Output)

@[simp] theorem setPipe_pc : (s.setPipe pipe output).pc = s.pc := by cases output <;> rfl

@[simp] theorem setPipe_plugin : (s.setPipe pipe output).plugin = s.plugin := by
  cases output <;> rfl

@[simp] theorem setPipe_stdin : (s.setPipe pipe output).stdin = s.stdin := by cases output <;> rfl

theorem pipe_setPipe (other : Output) :
    (s.setPipe pipe output).pipe other = if other = output then pipe else s.pipe other := by
  cases output <;> cases other <;> rfl

end Pipes

/-- **What the plugin can do**: it takes from its input and adds to its outputs, and what it has
closed stays closed. -/
structure Moves (s s' : State σ) : Prop where
  pc : s'.pc = s.pc
  sent : s'.stdin.sent = s.stdin.sent
  writer : s'.stdin.writer = s.stdin.writer
  reader : s.stdin.reader = false → s'.stdin.reader = false
  outputs : ∀ output, (s'.pipe output).reader = (s.pipe output).reader ∧
    (s'.pipe output).received = (s.pipe output).received ∧
    ((s.pipe output).AtEnd → (s'.pipe output).AtEnd)
  plugin : (∃ x, s'.plugin = .running x) ∨ ∃ status, s'.plugin = .exited status ∧
    s'.stdin.reader = false ∧ ∀ output, (s'.pipe output).writer = false

/-- It changes one output. -/
theorem moves_setPipe {s : State σ} {pipe : Pipe pipeCapacity} {output : Output} (x : σ)
    (hreader : pipe.reader = (s.pipe output).reader)
    (hreceived : pipe.received = (s.pipe output).received)
    (hend : (s.pipe output).AtEnd → pipe.AtEnd) : Moves s ((s.setPipe pipe output).goOn x) := by
  refine ⟨by simp [State.goOn], by simp [State.goOn], by simp [State.goOn], by simp [State.goOn],
    fun other => ?_, .inl ⟨x, rfl⟩⟩
  have hpipe : ((s.setPipe pipe output).goOn x).pipe other =
      if other = output then pipe else s.pipe other := by
    rw [← pipe_setPipe]
    cases other <;> rfl
  rw [hpipe]
  split
  · rename_i h
    subst h
    exact ⟨hreader, hreceived, hend⟩
  · exact ⟨rfl, rfl, id⟩

theorem act_moves {s s' : State σ} {count : ℕ} {action : PluginAction σ}
    (h : s.act count action = some s') : Moves s s' := by
  have hstays : ∀ x, Moves s (s.goOn x) := fun x =>
    ⟨rfl, rfl, rfl, id, fun output => by cases output <;> exact ⟨rfl, rfl, id⟩,
      .inl ⟨x, rfl⟩⟩
  cases action with
  | read next =>
    rw [State.act] at h
    split at h
    · obtain rfl := Option.some.inj h
      exact hstays _
    · obtain ⟨stdin, hread, rfl⟩ := Option.map_eq_some_iff.mp h
      obtain ⟨hsent, hwriter, hreader, -⟩ := Pipe.sent_read hread
      exact ⟨rfl, hsent, hwriter, fun hclosed => hreader.trans hclosed,
        fun output => by cases output <;> exact ⟨rfl, rfl, id⟩, .inl ⟨_, rfl⟩⟩
  | write output bytes next =>
    rw [State.act] at h
    split at h
    · obtain rfl := Option.some.inj h
      exact hstays _
    · rename_i hopen
      rw [not_or] at hopen
      split at h
      · obtain rfl := Option.some.inj h
        exact hstays _
      · obtain ⟨pipe, hwrite, rfl⟩ := Option.map_eq_some_iff.mp h
        obtain ⟨-, hreceived, -, hreader⟩ := Pipe.sent_write hwrite
        exact moves_setPipe _ hreader hreceived fun hend => absurd hend.2 hopen.1
  | closeStdin next =>
    obtain rfl := Option.some.inj h
    exact ⟨rfl, rfl, rfl, fun _ => rfl,
      fun output => by cases output <;> exact ⟨rfl, rfl, id⟩, .inl ⟨_, rfl⟩⟩
  | closeOutput output next =>
    obtain rfl := Option.some.inj h
    exact moves_setPipe _ rfl rfl fun hend => ⟨hend.1, rfl⟩
  | think next =>
    obtain rfl := Option.some.inj h
    exact hstays _
  | exit status =>
    obtain rfl := Option.some.inj h
    refine ⟨rfl, rfl, rfl, fun _ => rfl, fun output => ?_, .inr ⟨status, rfl, rfl, ?_⟩⟩
    · cases output <;> exact ⟨rfl, rfl, fun hend => ⟨hend.1, rfl⟩⟩
    · rintro (_ | _) <;> rfl

theorem Sound.moves {input : List UInt8} {s s' : State σ} (h : Sound input s) {x : σ}
    (hplugin : s.plugin = .running x) (hmoves : Moves s s') : Sound input s' := by
  obtain ⟨hpc, hsent, hwriter, hreader, houtputs, hplugin'⟩ := hmoves
  have hclosed := h.closed
  rw [Closed, hplugin] at hclosed
  refine ⟨?_, fun output => ?_, ?_⟩
  · have hfed := h.fed
    rw [Fed] at hfed ⊢
    rw [hpc]
    cases hplace : s.pc with
    | writing rest =>
      rw [hplace] at hfed
      rw [hsent, hwriter]
      exact hfed
    | reading left =>
      rw [hplace] at hfed
      rw [hsent, hwriter]
      exact hfed
    | returned written =>
      rw [hplace] at hfed
      cases written with
      | true => exact hsent.trans hfed
      | false =>
        obtain ⟨hshut, hrest⟩ := hfed
        rw [hsent]
        exact ⟨hreader hshut, hrest⟩
  · have hdrained := h.drained output
    obtain ⟨hsame, -, hend⟩ := houtputs output
    rw [Drained] at hdrained ⊢
    rw [hpc, hsame]
    cases hplace : s.pc with
    | writing rest =>
      rw [hplace] at hdrained
      exact hdrained
    | reading left =>
      rw [hplace] at hdrained
      exact ⟨hdrained.1, fun hnot => hend (hdrained.2 hnot)⟩
    | returned written =>
      cases written with
      | true => exact absurd hplace hclosed
      | false => trivial
  · rw [Closed]
    rcases hplugin' with ⟨x', hx'⟩ | ⟨status, hexited, hshut, houts⟩
    · rw [hx', hpc]
      exact hclosed
    · rw [hexited, hpc]
      exact ⟨hclosed, hshut, houts⟩

/-- The plugin is not there any more only if it was waited for. -/
theorem Closed.of_pc {s s' : State σ} (h : Closed s) (hplugin : s'.plugin = s.plugin)
    (hpc : s.pc = .returned true ↔ s'.pc = .returned true)
    (hreader : s'.stdin.reader = s.stdin.reader)
    (hwriter : ∀ output, (s'.pipe output).writer = (s.pipe output).writer) : Closed s' := by
  rw [Closed] at h ⊢
  rw [hplugin]
  cases hplace : s.plugin with
  | running x =>
    rw [hplace] at h
    exact mt hpc.mpr h
  | exited status =>
    rw [hplace] at h
    exact ⟨mt hpc.mpr h.1, hreader.trans h.2.1, fun output => (hwriter output).trans (h.2.2 output)⟩
  | reaped status =>
    rw [hplace] at h
    exact hpc.mp h

theorem sound_write {input : List UInt8} {s s' : State σ} (h : Sound input s)
    {action : σ → PluginAction σ} {count : ℕ} (hstep : s.step action (.write count) = some s') :
    Sound input s' := by
  obtain ⟨hfed, hdrained, hclosed⟩ := h
  rw [State.step] at hstep
  split at hstep
  · rename_i rest hpc
    split at hstep
    · obtain ⟨stdin, hwrite, rfl⟩ := Option.map_eq_some_iff.mp hstep
      obtain ⟨hsent, -, hwriter, hreader⟩ := Pipe.sent_write hwrite
      rw [Fed, hpc] at hfed
      refine ⟨⟨?_, hwriter.trans hfed.2⟩, fun output => ?_,
        hclosed.of_pc rfl (by simp [hpc]) hreader fun output => by cases output <;> rfl⟩
      · rw [hsent, List.append_assoc, List.take_append_drop]
        exact hfed.1
      · have hopen := hdrained output
        rw [Drained, hpc] at hopen
        cases output <;> exact hopen
    · cases hstep
  · cases hstep

theorem sound_writeFailed {input : List UInt8} {s s' : State σ} (h : Sound input s)
    {action : σ → PluginAction σ} (hstep : s.step action .writeFailed = some s') :
    Sound input s' := by
  obtain ⟨hfed, hdrained, hclosed⟩ := h
  rw [State.step] at hstep
  split at hstep
  · rename_i rest hpc
    obtain ⟨⟨hrest, hreader⟩, hs'⟩ := Option.ite_none_right_eq_some.mp hstep
    obtain rfl := Option.some.inj hs'
    rw [Fed, hpc] at hfed
    refine ⟨⟨hreader, rest, hrest, hfed.1⟩, fun _ => trivial,
      hclosed.of_pc rfl (by simp [hpc, State.finish]) rfl fun output => by cases output <;> rfl⟩
  · cases hstep

theorem sound_closeStdin {input : List UInt8} {s s' : State σ} (h : Sound input s)
    {action : σ → PluginAction σ} (hstep : s.step action .closeStdin = some s') :
    Sound input s' := by
  obtain ⟨hfed, hdrained, hclosed⟩ := h
  rw [State.step] at hstep
  split at hstep
  · rename_i hpc
    obtain rfl := Option.some.inj hstep
    rw [Fed, hpc] at hfed
    refine ⟨⟨?_, rfl⟩, fun output => ?_,
      hclosed.of_pc rfl (by simp [hpc]) rfl fun output => by cases output <;> rfl⟩
    · rw [← hfed.1, List.append_nil]
      rfl
    · have hopen := hdrained output
      rw [Drained, hpc] at hopen
      cases output <;> exact ⟨hopen, fun hnot => absurd (by simp) hnot⟩
  · cases hstep

theorem sound_collect {input : List UInt8} {s s' : State σ} (h : Sound input s)
    {action : σ → PluginAction σ} {output : Output} {count : ℕ}
    (hstep : s.step action (.collect output count) = some s') : Sound input s' := by
  obtain ⟨hfed, hdrained, hclosed⟩ := h
  rw [State.step] at hstep
  split at hstep
  · rename_i left hpc
    obtain ⟨hleft, hmap⟩ := Option.ite_none_right_eq_some.mp hstep
    obtain ⟨pipe, hread, rfl⟩ := Option.map_eq_some_iff.mp hmap
    obtain ⟨-, hwriter, hreader, -⟩ := Pipe.sent_read hread
    refine ⟨?_, fun other => ?_, hclosed.of_pc (by simp) (by simp) (by simp) fun other => ?_⟩
    · rw [Fed] at hfed ⊢
      simpa using hfed
    · have hopen := hdrained other
      rw [Drained, hpc] at hopen
      rw [Drained, setPipe_pc, hpc, pipe_setPipe]
      by_cases heq : other = output
      · subst heq
        rw [if_pos rfl]
        exact ⟨hreader.trans hopen.1, fun hnot => absurd hleft hnot⟩
      · rw [if_neg heq]
        exact hopen
    · rw [pipe_setPipe]
      split
      · rename_i heq
        rw [hwriter, heq]
      · rfl
  · cases hstep

theorem sound_endOfFile {input : List UInt8} {s s' : State σ} (h : Sound input s)
    {action : σ → PluginAction σ} {output : Output}
    (hstep : s.step action (.endOfFile output) = some s') : Sound input s' := by
  obtain ⟨hfed, hdrained, hclosed⟩ := h
  rw [State.step] at hstep
  split at hstep
  · rename_i left hpc
    obtain ⟨⟨-, hend⟩, hs'⟩ := Option.ite_none_right_eq_some.mp hstep
    obtain rfl := Option.some.inj hs'
    rw [Fed, hpc] at hfed
    refine ⟨hfed, fun other => ?_, hclosed.of_pc rfl (by simp [hpc]) rfl fun other => ?_⟩
    · have hopen := hdrained other
      rw [Drained, hpc] at hopen
      have hother : other ∉ left.filter (· ≠ output) → (s.pipe other).AtEnd := by
        intro hnot
        by_cases heq : other = output
        · exact heq ▸ hend
        · exact hopen.2 fun hmem => hnot (List.mem_filter.mpr ⟨hmem, decide_eq_true heq⟩)
      cases other <;> exact ⟨hopen.1, hother⟩
    · cases other <;> rfl
  · cases hstep

theorem sound_reap {input : List UInt8} {s s' : State σ} (h : Sound input s)
    {action : σ → PluginAction σ} (hstep : s.step action .reap = some s') : Sound input s' := by
  obtain ⟨hfed, hdrained, hclosed⟩ := h
  rw [State.step] at hstep
  split at hstep
  · rename_i status hpc hplugin
    obtain rfl := Option.some.inj hstep
    rw [Fed, hpc] at hfed
    refine ⟨hfed.1, fun output => ?_, rfl⟩
    have hopen := hdrained output
    rw [Drained, hpc] at hopen
    cases output <;> exact hopen.2 List.not_mem_nil
  · cases hstep

theorem sound_step {input : List UInt8} {s s' : State σ} (h : Sound input s)
    {action : σ → PluginAction σ} {event : Event} (hstep : s.step action event = some s') :
    Sound input s' := by
  cases event with
  | write count => exact sound_write h hstep
  | writeFailed => exact sound_writeFailed h hstep
  | closeStdin => exact sound_closeStdin h hstep
  | collect output count => exact sound_collect h hstep
  | endOfFile output => exact sound_endOfFile h hstep
  | reap => exact sound_reap h hstep
  | plugin count =>
    rw [State.step] at hstep
    split at hstep
    · rename_i x hplugin
      exact h.moves hplugin (act_moves hstep)
    · cases hstep

theorem sound_initial (start : σ) (input : List UInt8) :
    Sound input ({ plugin := .running start, pc := .writing input } : State σ) := by
  refine ⟨⟨rfl, rfl⟩, ?_, nofun⟩
  rintro (_ | _) <;> rfl

theorem sound_of_run {action : σ → PluginAction σ} {start : σ} {input : List UInt8}
    {events : List Event} {s : State σ} (hrun : run action start input events = some s) :
    Sound input s :=
  Partial.invariant (I := fun _ s => Sound input s) (sound_initial start input)
    (fun _ _ _ _ h hstep => sound_step h hstep) hrun

/-! ### Who can go on -/

/-- Once the input is closed, a plugin goes on whatever it does next, if its outputs are empty. -/
theorem exists_act {s : State σ} (hstdin : s.stdin.writer = false)
    (hempty : ∀ output, (s.pipe output).buffer = []) (action : PluginAction σ) :
    ∃ count s', s.act count action = some s' := by
  cases action with
  | read next =>
    by_cases hend : s.stdin.reader = false ∨ s.stdin.AtEnd
    · exact ⟨0, _, if_pos hend⟩
    · have hbuffer : s.stdin.buffer ≠ [] := fun hnil => hend (.inr ⟨hnil, hstdin⟩)
      obtain ⟨stdin, hread⟩ := Option.isSome_iff_exists.mp (Pipe.isSome_read hbuffer)
      refine ⟨1, { s with stdin := stdin }.goOn (next (s.stdin.buffer.take 1)), ?_⟩
      rw [State.act, if_neg hend, hread]
      rfl
  | write output bytes next =>
    by_cases hclosed : (s.pipe output).writer = false ∨ (s.pipe output).reader = false
    · exact ⟨0, _, if_pos hclosed⟩
    · by_cases hbytes : bytes = []
      · refine ⟨0, s.goOn (next (some 0)), ?_⟩
        rw [State.act, if_neg hclosed, if_pos hbytes]
      · have hroom : ∃ count, (s.pipe output).Takes pipeBuf bytes.length count :=
          Pipe.exists_takes (by decide) (by decide) (hempty output) (List.length_pos_iff.mpr hbytes)
        obtain ⟨count, htakes⟩ := hroom
        obtain ⟨pipe, hwrite, -⟩ := Pipe.exists_write htakes
        refine ⟨count, (s.setPipe pipe output).goOn (next (some count)), ?_⟩
        rw [State.act, if_neg hclosed, if_neg hbytes, hwrite]
        rfl
  | closeStdin next => exact ⟨0, _, rfl⟩
  | closeOutput output next => exact ⟨0, _, rfl⟩
  | think next => exact ⟨0, _, rfl⟩
  | exit status => exact ⟨0, _, rfl⟩

/-- **While the input is written** and fits in the pipe, `run_plugin` goes on. -/
theorem exists_step_writing {input : List UInt8} {s : State σ} (h : Sound input s)
    (hfits : input.length ≤ pipeCapacity) {rest : List UInt8} (hpc : s.pc = .writing rest)
    (action : σ → PluginAction σ) : ∃ event s', s.step action event = some s' := by
  have hfed := h.fed
  rw [Fed, hpc] at hfed
  by_cases hrest : rest = []
  · refine ⟨.closeStdin, { s with
      stdin := s.stdin.closeWriter
      pc := .reading [.stdout, .stderr] }, ?_⟩
    rw [State.step, hpc, hrest]
  · cases hreader : s.stdin.reader with
    | false =>
      refine ⟨.writeFailed, s.finish false, ?_⟩
      rw [State.step, hpc]
      exact if_pos ⟨hrest, hreader⟩
    | true =>
      -- what is in the pipe and what is to come are parts of the input
      have hroom : s.stdin.buffer.length + rest.length ≤ pipeCapacity := by
        have hlength := congrArg List.length hfed.1
        rw [Pipe.sent, List.length_append, List.length_append] at hlength
        omega
      obtain ⟨stdin, hwrite, -⟩ := @Pipe.exists_write _ s.stdin pipeBuf rest.length rest
        (Pipe.takes_of_fits (List.length_pos_iff.mpr hrest) hroom)
      refine ⟨.write rest.length, { s with
        stdin := stdin
        pc := .writing (rest.drop rest.length) }, ?_⟩
      rw [State.step, hpc]
      dsimp only
      rw [if_pos hreader, hwrite]
      rfl

/-- **While the outputs are read**, somebody goes on. -/
theorem exists_step_reading {input : List UInt8} {s : State σ} (h : Sound input s)
    {left : List Output} (hpc : s.pc = .reading left) (action : σ → PluginAction σ) :
    ∃ event s', s.step action event = some s' := by
  have hfed := h.fed
  rw [Fed, hpc] at hfed
  have hdrained : ∀ output, (s.pipe output).reader = true ∧
      (output ∉ left → (s.pipe output).AtEnd) := by
    intro output
    have hplace := h.drained output
    rw [Drained, hpc] at hplace
    exact hplace
  by_cases hcollect : ∃ output ∈ left, (s.pipe output).buffer ≠ []
  · obtain ⟨output, hleft, hbuffer⟩ := hcollect
    obtain ⟨pipe, hread⟩ := Option.isSome_iff_exists.mp (Pipe.isSome_read hbuffer)
    refine ⟨.collect output 1, s.setPipe pipe output, ?_⟩
    rw [State.step, hpc]
    dsimp only
    rw [if_pos hleft, hread]
    rfl
  -- there is nothing to collect
  have hempty : ∀ output, (s.pipe output).buffer = [] := by
    intro output
    by_cases hleft : output ∈ left
    · by_contra hbuffer
      exact hcollect ⟨output, hleft, hbuffer⟩
    · exact ((hdrained output).2 hleft).1
  have hclosed := h.closed
  rw [Closed] at hclosed
  cases hplugin : s.plugin with
  | running x =>
    obtain ⟨count, s', hact⟩ := exists_act hfed.2 hempty (action x)
    refine ⟨.plugin count, s', ?_⟩
    rw [State.step, hplugin]
    exact hact
  | exited status =>
    rw [hplugin] at hclosed
    cases left with
    | nil =>
      refine ⟨.reap, { s.finish true with plugin := .reaped status }, ?_⟩
      rw [State.step, hpc, hplugin]
    | cons output rest =>
      refine ⟨.endOfFile output,
        { s with pc := .reading ((output :: rest).filter (· ≠ output)) }, ?_⟩
      rw [State.step, hpc]
      exact if_pos ⟨List.mem_cons_self, hempty output, hclosed.2.2 output⟩
  | reaped status =>
    rw [hplugin] at hclosed
    rw [hpc] at hclosed
    cases hclosed

/-! ### A plugin that speaks first -/

/-- A plugin that writes some bytes and exits. -/
def speak : List UInt8 → PluginAction (List UInt8)
  | [] => .exit (.code 0)
  | b :: rest => .write .stdout (b :: rest) fun
    | some count => (b :: rest).drop count
    | none => []

/-- **Both sides are in the middle of a write**, and neither pipe has room. -/
theorem deadlock_speak {s : State (List UInt8)} {rest words : List UInt8}
    (hpc : s.pc = .writing rest) (hrest : rest ≠ []) (hplugin : s.plugin = .running words)
    (hwords : words ≠ []) (hreader : s.stdin.reader = true)
    (hstdin : pipeCapacity ≤ s.stdin.buffer.length) (hwriter : s.stdout.writer = true)
    (hstdout : s.stdout.reader = true) (hfull : pipeCapacity ≤ s.stdout.buffer.length) :
    s.Deadlock speak := by
  refine ⟨?_, fun event => ?_⟩
  · rintro ⟨written, hreturned⟩
    rw [hpc] at hreturned
    cases hreturned
  · cases event with
    | write count =>
      rw [State.step, hpc]
      dsimp only
      rw [if_pos hreader, Pipe.write, dif_neg (Pipe.not_takes_of_full hstdin _ _ _)]
      rfl
    | writeFailed =>
      rw [State.step, hpc]
      refine if_neg fun hfailed => ?_
      rw [hreader] at hfailed
      cases hfailed.2
    | closeStdin =>
      rw [State.step, hpc]
      cases rest with
      | nil => exact absurd rfl hrest
      | cons => rfl
    | collect | endOfFile | reap => rw [State.step, hpc]
    | plugin count =>
      rw [State.step, hplugin]
      cases words with
      | nil => exact absurd rfl hwords
      | cons b more =>
        have hopen : ¬((s.pipe .stdout).writer = false ∨ (s.pipe .stdout).reader = false) := by
          rw [State.pipe, hwriter, hstdout]
          decide
        have hnone : (s.pipe .stdout).write pipeBuf (b :: more) count = none :=
          dif_neg (Pipe.not_takes_of_full hfull _ _ _)
        show s.act count (.write .stdout (b :: more) _) = none
        rw [State.act, if_neg hopen, if_neg (List.cons_ne_nil b more), hnone]
        rfl

theorem speak_eq {words : List UInt8} (h : words ≠ []) :
    speak words = .write .stdout words fun
      | some count => words.drop count
      | none => [] := by
  cases words with
  | nil => exact absurd rfl h
  | cons b rest => rfl

theorem takes_capacity {bytes : List UInt8} (h : pipeCapacity < bytes.length) :
    ({} : Pipe pipeCapacity).Takes pipeBuf bytes.length pipeCapacity := by
  have hbuf : pipeBuf < pipeCapacity := by decide
  refine ⟨by decide, h.le, (Nat.zero_add _).le, fun hshort => ?_⟩
  omega

/-- **It happens** with an input that does not fit: each side writes as much as it can. -/
theorem exists_deadlock {input : List UInt8} (h : pipeCapacity < input.length) :
    ∃ events s, run speak (List.replicate (pipeCapacity + 1) 0) input events = some s ∧
      s.Deadlock speak := by
  generalize hwords : List.replicate (pipeCapacity + 1) (0 : UInt8) = words
  have hlong : pipeCapacity < words.length := by
    rw [← hwords, List.length_replicate]
    exact Nat.lt_succ_self _
  have hdrop : ∀ {bytes : List UInt8}, pipeCapacity < bytes.length →
      bytes.drop pipeCapacity ≠ [] := by
    intro bytes hbytes hnil
    have hle := List.drop_eq_nil_iff.mp hnil
    omega
  have hfull : ∀ {pipe : Pipe pipeCapacity} {bytes : List UInt8}, pipeCapacity < bytes.length →
      pipe.buffer = [] ++ bytes.take pipeCapacity → pipeCapacity ≤ pipe.buffer.length := by
    intro pipe bytes hbytes hbuffer
    rw [hbuffer, List.nil_append, List.length_take_of_le hbytes.le]
  obtain ⟨stdin, hstdin, hin⟩ := Pipe.exists_write (takes_capacity h)
  obtain ⟨stdout, hstdout, hout⟩ := Pipe.exists_write (takes_capacity hlong)
  obtain ⟨-, -, -, hreader⟩ := Pipe.sent_write hstdin
  obtain ⟨-, -, hwriter, hopen⟩ := Pipe.sent_write hstdout
  let before : State (List UInt8) := { plugin := .running words, pc := .writing input }
  let between : State (List UInt8) :=
    { before with stdin := stdin, pc := .writing (input.drop pipeCapacity) }
  have hfirst : before.step speak (.write pipeCapacity) = some between := by
    show Option.map _ (Pipe.write _ pipeBuf input pipeCapacity) = _
    rw [hstdin]
    rfl
  have hsecond : between.step speak (.plugin pipeCapacity) =
      some ((between.setPipe stdout .stdout).goOn (words.drop pipeCapacity)) := by
    have hnil : words ≠ [] := List.ne_nil_of_length_pos (Nat.zero_lt_of_lt hlong)
    have hpipe : between.pipe .stdout = ({} : Pipe pipeCapacity) := rfl
    show between.act pipeCapacity (speak words) = _
    rw [speak_eq hnil, State.act, if_neg (by rintro (h | h) <;> cases h), if_neg hnil, hpipe,
      hstdout]
    rfl
  have hrun : Partial.run (State.step speak) before
      [.write pipeCapacity, .plugin pipeCapacity] =
      some ((between.setPipe stdout .stdout).goOn (words.drop pipeCapacity)) := by
    rw [Partial.run, hfirst, Option.bind_some, Partial.run, hsecond, Option.bind_some, Partial.run]
  exact ⟨_, _, hrun, deadlock_speak rfl (hdrop h) rfl (hdrop hlong) hreader (hfull h hin) hwriter
    hopen (hfull hlong hout)⟩

/-! ### What is returned -/

/-- `EPIPE`. -/
def brokenPipe : IoError := ⟨.other 32, "Broken pipe (os error 32)", some 32⟩

/-- What becomes of the plugin, as far as `run_plugin` sees it when it has returned. -/
def State.process (s : State σ) : Option PluginProcess :=
  match s.pc, s.plugin with
  | .returned true, .reaped status =>
    some { status := status, stdout := s.stdout.received, stderr := s.stderr.received }
  | .returned false, _ => some { written := .error brokenPipe, status := .code 0 }
  | _, _ => none

/-- A step of `run_plugin`. -/
def Event.ofCaller : Event → Bool
  | .plugin _ => false
  | _ => true

/-- What was written is the first of the input. -/
theorem Sound.sent_prefix {input : List UInt8} {s : State σ} (h : Sound input s) :
    s.stdin.sent <+: input := by
  have hfed := h.fed
  rw [Fed] at hfed
  split at hfed
  · exact ⟨_, hfed.1⟩
  · rw [hfed.1]
  · rw [hfed]
  · obtain ⟨-, rest, -, hrest⟩ := hfed
    exact ⟨rest, hrest⟩

/-- How far `run_plugin` is in its course. -/
def Pc.phase : Pc → ℕ
  | .writing _ => 0
  | .reading left =>
    1 + (if .stdout ∈ left then 0 else 1) + (if .stderr ∈ left then 0 else 1)
  | .returned _ => 4

/-- What `run_plugin` has done. -/
def State.work (s : State σ) : ℕ :=
  s.stdin.sent.length + s.stdout.received.length + s.stderr.received.length + s.pc.phase

/-- What the plugin does is no work of `run_plugin`. -/
theorem Moves.work_eq {s s' : State σ} (h : Moves s s') : s'.work = s.work := by
  have hstdout : s'.stdout.received = s.stdout.received := (h.outputs .stdout).2.1
  have hstderr : s'.stderr.received = s.stderr.received := (h.outputs .stderr).2.1
  rw [State.work, State.work, h.pc, h.sent, hstdout, hstderr]

/-- **Each step of `run_plugin` does something.** -/
theorem work_step {action : σ → PluginAction σ} {s s' : State σ} {event : Event}
    (hcaller : event.ofCaller = true) (hstep : s.step action event = some s') :
    s.work < s'.work := by
  cases event with
  | write count =>
    rw [State.step] at hstep
    split at hstep
    · rename_i rest hpc
      split at hstep
      · obtain ⟨stdin, hwrite, rfl⟩ := Option.map_eq_some_iff.mp hstep
        obtain ⟨⟨hpos, hle, -⟩, -⟩ := Pipe.write_eq_some.mp hwrite
        have hsent := congrArg List.length (Pipe.sent_write hwrite).1
        rw [List.length_append, List.length_take_of_le hle] at hsent
        simp only [State.work, hpc, Pc.phase]
        omega
      · cases hstep
    · cases hstep
  | writeFailed =>
    rw [State.step] at hstep
    split at hstep
    · rename_i rest hpc
      obtain ⟨-, hs'⟩ := Option.ite_none_right_eq_some.mp hstep
      obtain rfl := Option.some.inj hs'
      simp only [State.work, hpc, Pc.phase, State.finish, Pipe.closeWriter, Pipe.closeReader,
        Pipe.sent]
      omega
    · cases hstep
  | closeStdin =>
    rw [State.step] at hstep
    split at hstep
    · rename_i hpc
      obtain rfl := Option.some.inj hstep
      simp only [State.work, hpc, Pc.phase, Pipe.closeWriter, Pipe.sent]
      omega
    · cases hstep
  | collect output count =>
    rw [State.step] at hstep
    split at hstep
    · obtain ⟨-, hmap⟩ := Option.ite_none_right_eq_some.mp hstep
      obtain ⟨pipe, hread, rfl⟩ := Option.map_eq_some_iff.mp hmap
      obtain ⟨⟨hpos, -⟩, -⟩ := Pipe.read_eq_some.mp hread
      obtain ⟨-, -, -, hlength⟩ := Pipe.sent_read hread
      cases output <;> simp only [State.work, State.setPipe, State.pipe] at hlength ⊢ <;> omega
    · cases hstep
  | endOfFile output =>
    rw [State.step] at hstep
    split at hstep
    · rename_i left hpc
      obtain ⟨⟨hleft, -⟩, hs'⟩ := Option.ite_none_right_eq_some.mp hstep
      obtain rfl := Option.some.inj hs'
      cases output <;> simp [State.work, hpc, Pc.phase, hleft]
    · cases hstep
  | reap =>
    rw [State.step] at hstep
    split at hstep
    · rename_i status hpc hplugin
      obtain rfl := Option.some.inj hstep
      simp [State.work, hpc, Pc.phase, State.finish, Pipe.closeWriter, Pipe.closeReader, Pipe.sent]
    · cases hstep
  | plugin count => cases hcaller

/-- So `run_plugin` makes no more steps than that. -/
theorem steps_le_work {action : σ → PluginAction σ} {start : σ} {input : List UInt8}
    {events : List Event} {s : State σ} (hrun : run action start input events = some s) :
    (events.filter Event.ofCaller).length ≤ s.work := by
  refine Partial.invariant (I := fun events s => (events.filter Event.ofCaller).length ≤ s.work)
    (Nat.zero_le _) ?_ hrun
  intro events s event s' ih hstep
  rw [List.filter_append, List.length_append]
  cases hcaller : event.ofCaller with
  | true =>
    have hwork := work_step hcaller hstep
    simp only [List.filter_cons, hcaller, if_true, List.filter_nil, List.length_singleton]
    omega
  | false =>
    cases event with
    | plugin count =>
      rw [State.step] at hstep
      split at hstep
      · rw [(act_moves hstep).work_eq]
        exact ih
      · cases hstep
    | _ => cases hcaller

theorem work_le {input : List UInt8} {s : State σ} (h : s.stdin.sent.length ≤ input.length) :
    s.work ≤ input.length + s.stdout.sent.length + s.stderr.sent.length + 4 := by
  have hstdout := s.stdout.received_prefix.length_le
  have hstderr := s.stderr.received_prefix.length_le
  have hphase : s.pc.phase ≤ 4 := by
    cases s.pc with
    | reading left =>
      rw [Pc.phase]
      split <;> split <;> decide
    | writing rest => exact Nat.zero_le 4
    | returned written => exact le_rfl
  rw [State.work]
  omega

end PluginPipes

open PluginPipes

/-- **When a plugin and `run_plugin` cannot wait for each other forever**, whatever the plugin does:
exactly if the input fits in a pipe. -/
theorem plugin_deadlock_free_iff (input : List UInt8) :
    (∀ (σ : Type) (action : σ → PluginAction σ) (start : σ) (events : List PluginPipes.Event)
      (s : PluginPipes.State σ), PluginPipes.run action start input events = some s →
        ¬s.Deadlock action) ↔
    input.length ≤ pipeCapacity := by
  constructor
  · intro h
    by_contra hlong
    obtain ⟨events, s, hrun, hdeadlock⟩ := exists_deadlock (not_le.mp hlong)
    exact h _ _ _ events s hrun hdeadlock
  · rintro hfits σ action start events s hrun ⟨hnot, hnone⟩
    have hsound := PluginPipes.sound_of_run hrun
    have hstep : ∃ event s', s.step action event = some s' := by
      cases hpc : s.pc with
      | writing rest => exact exists_step_writing hsound hfits hpc action
      | reading left => exact exists_step_reading hsound hpc action
      | returned written => exact absurd ⟨written, hpc⟩ hnot
    obtain ⟨event, s', hstep⟩ := hstep
    rw [hnone event] at hstep
    cases hstep

/-- **What becomes of a plugin and its output**, in every run. -/
theorem plugin_run_account {σ : Type} {action : σ → PluginAction σ} {start : σ}
    {input : List UInt8} {events : List PluginPipes.Event} {s : PluginPipes.State σ}
    (hrun : PluginPipes.run action start input events = some s) :
    s.stdin.received <+: input ∧
    (events.filter Event.ofCaller).length ≤
      input.length + s.stdout.sent.length + s.stderr.sent.length + 4 ∧
    (s.Returned → ∃ process, s.process = some process ∧
      (process.written = .ok () → s.plugin = .reaped process.status ∧ s.stdin.sent = input ∧
        process.stdout = s.stdout.sent ∧ process.stderr = s.stderr.sent) ∧
      (process.written ≠ .ok () → (∀ status, s.plugin ≠ .reaped status) ∧
        s.stdin.received.length < input.length ∧
        ∀ unprintable pluginType,
          RealCni.pluginResult unprintable pluginType (.ok process) =
            .error (.io brokenPipe))) := by
  have hsound := sound_of_run hrun
  refine ⟨s.stdin.received_prefix.trans hsound.sent_prefix,
    (steps_le_work hrun).trans (work_le hsound.sent_prefix.length_le), ?_⟩
  obtain ⟨hfed, hdrained, hclosed⟩ := hsound
  rintro ⟨written, hpc⟩
  rw [Fed, hpc] at hfed
  rw [Closed, hpc] at hclosed
  cases written with
  | true =>
    cases hplugin : s.plugin with
    | running x | exited status =>
      rw [hplugin] at hclosed
      simp at hclosed
    | reaped status =>
      refine ⟨{ status := status, stdout := s.stdout.received, stderr := s.stderr.received },
        by rw [State.process, hpc, hplugin], fun _ => ⟨rfl, hfed, ?_, ?_⟩,
        fun hnot => absurd rfl hnot⟩
      · have hend := hdrained .stdout
        rw [PluginPipes.Drained, hpc] at hend
        exact hend.received_eq
      · have hend := hdrained .stderr
        rw [PluginPipes.Drained, hpc] at hend
        exact hend.received_eq
  | false =>
    obtain ⟨-, rest, hrest, hinput⟩ := hfed
    refine ⟨{ written := .error brokenPipe, status := .code 0 }, by rw [State.process, hpc], nofun,
      fun _ => ⟨fun status hplugin => ?_, ?_, fun _ _ => rfl⟩⟩
    · rw [hplugin] at hclosed
      cases hclosed
    · have hlength := congrArg List.length hinput
      have hpos := List.length_pos_iff.mpr hrest
      have hle := s.stdin.received_prefix.length_le
      rw [List.length_append] at hlength
      omega

/-- A plugin that gets one byte, says one, and exits. -/
def spokenEvents : List PluginPipes.Event :=
  [.write 1, .plugin 1, .closeStdin, .plugin 0, .collect .stdout 1, .endOfFile .stdout,
    .endOfFile .stderr, .reap]

theorem plugin_run_account_spoken : ∃ s, PluginPipes.run speak [65] [1] spokenEvents = some s ∧
    s.stdin.received <+: [1] ∧ ∃ process, s.process = some process ∧
      process.stdout = s.stdout.sent ∧ s.stdout.sent = [65] := by
  have hrun : ∃ s, PluginPipes.run speak [65] [1] spokenEvents = some s ∧
      s.pc = .returned true ∧ s.stdout.sent = [65] ∧
      s.plugin = .reaped (.code 0) := ⟨_, rfl, rfl, rfl, rfl⟩
  obtain ⟨s, hrun, hpc, hsent, hplugin⟩ := hrun
  obtain ⟨hread, -, hreturned⟩ := plugin_run_account hrun
  obtain ⟨process, hprocess, hwritten, -⟩ := hreturned ⟨true, hpc⟩
  refine ⟨s, hrun, hread, process, hprocess, (hwritten ?_).2.2.1, hsent⟩
  rw [State.process, hpc, hplugin] at hprocess
  obtain rfl := Option.some.inj hprocess
  rfl

end FirecrackerSdk
