import FirecrackerSdk.Machine.Selection

/-!
# The body of a request to load a snapshot

The API wants exactly one of `mem_file_path` and `mem_backend`. The validation of a snapshot looks
at the path that `get_mem_backend_path` merges out of the two, and `load_snapshot` sends both as
they are. So a machine that was told about its memory in both ways passes the validation and sends
both; with one of them, the body is what the API wants.

An option `with_snapshot` starts from an empty configuration, so the last of them counts, and the
configuration of the user only if there is none.
-/

namespace FirecrackerSdk

/-- `with_snapshot` with options `with_memory_backend`, each with a type and a path. -/
structure SnapshotOption where
  memFilePath : String
  snapshotPath : String
  backends : List (String × String)

namespace SnapshotOption

/-- The option of a machine. -/
def toOpt (option : SnapshotOption) : Opt :=
  .withSnapshot option.memFilePath option.snapshotPath
    (option.backends.map fun backend => withMemoryBackend backend.1 backend.2)

/-- The snapshot that the option selects. -/
def snapshot (option : SnapshotOption) : SnapshotConfig := option.toOpt.snapshot {}

end SnapshotOption

/-- The body that `load_snapshot` sends. -/
def snapshotBody (snapshot : SnapshotConfig) : SnapshotLoadParams where
  memFilePath := snapshot.memFilePath
  memBackend := snapshot.memBackend
  snapshotPath := snapshot.snapshotPath
  enableDiffSnapshots := snapshot.enableDiffSnapshots
  resumeVm := snapshot.resumeVm

/-- The path of the memory that `validate_load_snapshot` looks for. -/
def validatedMemoryPath (snapshot : SnapshotConfig) : String := snapshot.getMemBackendPath.getD ""

/-- **What the API wants**: the path of the snapshot, and one way to find the memory, which is the
one that was validated. -/
structure MemoryOnce (body : SnapshotLoadParams) (validated : String) : Prop where
  snapshotPath : body.snapshotPath.isSome = true
  one : body.memFilePath.isSome ≠ body.memBackend.isSome
  backend : ∀ backend, body.memBackend = some backend → backend.backendPath = some validated

/-- **The memory is given twice**: by the last option, or by the configuration if there is none. -/
def GivesMemoryTwice (snapshot : SnapshotConfig) (options : List SnapshotOption) : Prop :=
  match options.getLast? with
  | none => snapshot.memFilePath.isSome = true ∧ snapshot.memBackend.isSome = true
  | some option => option.memFilePath ≠ "" ∧ option.backends ≠ []

/-! ### What the options leave -/

/-- Backends do not touch the paths, and the last one counts. -/
theorem foldl_withMemoryBackend (backends : List (String × String)) (snapshot : SnapshotConfig) :
    ((backends.map fun backend => withMemoryBackend backend.1 backend.2).foldl
        (fun snapshot opt => opt snapshot) snapshot).memFilePath = snapshot.memFilePath ∧
      ((backends.map fun backend => withMemoryBackend backend.1 backend.2).foldl
        (fun snapshot opt => opt snapshot) snapshot).memBackend.isSome =
          (!backends.isEmpty || snapshot.memBackend.isSome) := by
  induction backends generalizing snapshot with
  | nil => exact ⟨rfl, rfl⟩
  | cons backend backends ih =>
    obtain ⟨hfile, hbackend⟩ := ih (withMemoryBackend backend.1 backend.2 snapshot)
    refine ⟨hfile, ?_⟩
    rw [List.map_cons, List.foldl_cons, hbackend]
    simp [withMemoryBackend]

theorem SnapshotOption.memory (option : SnapshotOption) :
    option.snapshot.memFilePath.isSome = (option.memFilePath != "") ∧
      option.snapshot.memBackend.isSome = !option.backends.isEmpty := by
  obtain ⟨hfile, hbackend⟩ := foldl_withMemoryBackend option.backends
    (.withPaths option.memFilePath option.snapshotPath)
  unfold SnapshotOption.snapshot SnapshotOption.toOpt Opt.snapshot
  rw [hfile, hbackend]
  refine ⟨?_, by simp [SnapshotConfig.withPaths]⟩
  by_cases h : option.memFilePath = "" <;> simp [SnapshotConfig.withPaths, h]

/-- **The snapshot of a new machine**: that of the last option, or of the configuration. -/
theorem newMachine_snapshot {cfg : Config} {uuid cpuset : String} {options : List SnapshotOption}
    {m : Machine} (h : newMachine cfg uuid cpuset (options.map SnapshotOption.toOpt) = .ok m) :
    m.cfg.snapshot = (options.getLast?.map SnapshotOption.snapshot).getD cfg.snapshot := by
  obtain ⟨m₀, h₀, rfl⟩ := newMachine_eq_ok h
  rw [foldl_apply_snapshot, newWithClient_snapshot h₀]
  rcases List.eq_nil_or_concat' options with rfl | ⟨init, last, rfl⟩
  · rfl
  · rw [List.map_append, List.foldl_append, List.getLast?_concat]
    rfl

theorem givesMemoryTwice_iff {cfg : Config} {uuid cpuset : String} {options : List SnapshotOption}
    {m : Machine} (h : newMachine cfg uuid cpuset (options.map SnapshotOption.toOpt) = .ok m) :
    GivesMemoryTwice cfg.snapshot options ↔
      m.cfg.snapshot.memFilePath.isSome = true ∧ m.cfg.snapshot.memBackend.isSome = true := by
  rw [newMachine_snapshot h]
  unfold GivesMemoryTwice
  cases options.getLast? with
  | none => rfl
  | some option =>
    obtain ⟨hfile, hbackend⟩ := option.memory
    dsimp only
    rw [Option.map_some, Option.getD_some, hfile, hbackend]
    simp

/-! ### What the validation accepts -/

/-- A merged path comes from one of the two places. -/
theorem memoryOnce_iff {snapshot : SnapshotConfig}
    (hmemory : snapshot.getMemBackendPath.isSome = true)
    (hpath : snapshot.snapshotPath.isSome = true) :
    MemoryOnce (snapshotBody snapshot) (validatedMemoryPath snapshot) ↔
      ¬(snapshot.memFilePath.isSome = true ∧ snapshot.memBackend.isSome = true) := by
  constructor
  · rintro ⟨-, hone, -⟩ ⟨hfile, hbackend⟩
    exact hone (hfile.trans hbackend.symm)
  · intro hnot
    unfold SnapshotConfig.getMemBackendPath at hmemory
    cases hbackend : snapshot.memBackend with
    | none =>
      rw [hbackend, Option.bind_none, Option.none_or] at hmemory
      refine ⟨hpath, ?_, fun backend h => ?_⟩
      · change snapshot.memFilePath.isSome ≠ snapshot.memBackend.isSome
        rw [hbackend, hmemory]
        decide
      · cases hbackend.symm.trans h
    | some backend =>
      have hfile : snapshot.memFilePath = none := by
        cases hfile : snapshot.memFilePath with
        | none => rfl
        | some file => exact absurd ⟨by rw [hfile]; rfl, by rw [hbackend]; rfl⟩ hnot
      rw [hbackend, Option.bind_some, hfile, Option.or_none] at hmemory
      refine ⟨hpath, ?_, fun backend' h => ?_⟩
      · change snapshot.memFilePath.isSome ≠ snapshot.memBackend.isSome
        rw [hbackend, hfile]
        exact Bool.false_ne_true
      · obtain rfl := Option.some.inj (hbackend.symm.trans h)
        obtain ⟨path, hsome⟩ := Option.isSome_iff_exists.mp hmemory
        rw [validatedMemoryPath, SnapshotConfig.getMemBackendPath, hbackend, Option.bind_some,
          hfile, Option.or_none, hsome, Option.getD_some]

namespace Machine

variable {W : Type} (env : Env W)

/-- The validation of a snapshot accepts only if both paths are there. -/
theorem snapshot_of_validated {s s' : Sys W}
    (h : loadSnapshotConfigValidation env s = (.ok (), s')) :
    s.machine.cfg.snapshot.getMemBackendPath.isSome = true ∧
      s.machine.cfg.snapshot.snapshotPath.isSome = true := by
  unfold loadSnapshotConfigValidation at h
  rw [Op.cfg_bind] at h
  split at h
  · cases h
  · rename_i hsome
    simp only [Bool.or_eq_true, Option.isNone_iff_eq_none, not_or] at hsome
    exact ⟨Option.isSome_iff_ne_none.mpr hsome.1, Option.isSome_iff_ne_none.mpr hsome.2⟩

theorem issues_loadSnapshot (s : Sys W) :
    Issues [some (.loadSnapshot (snapshotBody s.machine.cfg.snapshot))] (loadSnapshot env) s :=
  issues_cfg (issues_call env _ s)

end Machine

/-- **When the body for a validated snapshot is what the API wants**: if the memory was not given
twice. -/
theorem snapshot_body_iff {W : Type} (env : Env W) {cfg : Config} {uuid cpuset : String}
    {options : List SnapshotOption} {m : Machine}
    (hnew : newMachine cfg uuid cpuset (options.map SnapshotOption.toOpt) = .ok m)
    {s s' : Sys W} (hs : s.machine = m)
    (haccepted : Machine.loadSnapshotConfigValidation env s = (.ok (), s')) :
    ∃ body, (∀ s₁ : Sys W, s₁.machine.cfg.snapshot = m.cfg.snapshot →
        Machine.Issues [some (.loadSnapshot body)] (Machine.loadSnapshot env) s₁) ∧
      (MemoryOnce body (validatedMemoryPath m.cfg.snapshot) ↔
        ¬GivesMemoryTwice cfg.snapshot options) := by
  obtain ⟨hmemory, hpath⟩ := Machine.snapshot_of_validated env haccepted
  rw [hs] at hmemory hpath
  refine ⟨snapshotBody m.cfg.snapshot, fun s₁ hsame => ?_, ?_⟩
  · rw [← hsame]
    exact Machine.issues_loadSnapshot env s₁
  · rw [memoryOnce_iff hmemory hpath, givesMemoryTwice_iff hnew]

/-- A configuration of a snapshot that was taken before. -/
def resumedConfig : Config where
  socketPath := "/run/fc.sock"

/-- A machine made of it with options. -/
def resumedMachine (options : List SnapshotOption) : Sys Unit :=
  let start := (plainBlueprint resumedConfig "vm").initial 0 ()
  { start with
    machine := (options.map SnapshotOption.toOpt).foldl (fun m opt => opt.apply m) start.machine }

theorem newMachine_resumed (options : List SnapshotOption) :
    newMachine resumedConfig "vm" "" (options.map SnapshotOption.toOpt) =
      .ok (resumedMachine options).machine := by
  rw [newMachine, newWithClient_plain rfl]
  rfl

/-- All files are there, and the socket is not. -/
def freshSocket : Env Unit := .answering fun
  | .stat "/run/fc.sock" => .error ⟨.notFound, "No such file or directory", some 2⟩
  | query => query.smooth

/-- A snapshot whose memory comes from a page fault handler. -/
def handledMemory : SnapshotOption := ⟨"", "/srv/snap", [("Uffd", "/run/uffd.sock")]⟩

theorem snapshot_body_handled :
    ∃ body, Machine.Issues [some (.loadSnapshot body)] (Machine.loadSnapshot freshSocket)
        (resumedMachine [handledMemory]) ∧
      MemoryOnce body "/run/uffd.sock" := by
  have haccepted : Machine.loadSnapshotConfigValidation freshSocket
      (resumedMachine [handledMemory]) = (.ok (), resumedMachine [handledMemory]) := by
    refine Prod.ext ?_ ?_
    · decide +kernel
    · rfl
  obtain ⟨body, hissues, hiff⟩ := snapshot_body_iff freshSocket
    (newMachine_resumed [handledMemory]) rfl haccepted
  refine ⟨body, hissues _ rfl, hiff.mpr ?_⟩
  rintro ⟨hfile, -⟩
  exact hfile rfl

/-- A snapshot whose memory is a file, and comes from a handler. -/
def twofoldMemory : SnapshotOption := ⟨"/srv/mem", "/srv/snap", [("Uffd", "/run/uffd.sock")]⟩

/-- What is sent for it. -/
def twofoldBody : SnapshotLoadParams where
  memFilePath := some "/srv/mem"
  memBackend := some { backendType := some "Uffd", backendPath := some "/run/uffd.sock" }
  snapshotPath := some "/srv/snap"

/-- **Both ways at once**: the validation passes, and the body has both. -/
theorem memory_sent_twice :
    (Machine.loadSnapshotConfigValidation freshSocket (resumedMachine [twofoldMemory])).1 =
        .ok () ∧
      (Machine.loadSnapshot freshSocket (resumedMachine [twofoldMemory])).2.trace =
        [.client (.loadSnapshot twofoldBody) none] ∧
      ∀ validated, ¬MemoryOnce twofoldBody validated := by
  refine ⟨?_, rfl, ?_⟩
  · decide +kernel
  · rintro validated ⟨-, hone, -⟩
    exact hone rfl

end FirecrackerSdk
