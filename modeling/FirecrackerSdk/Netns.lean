import FirecrackerSdk.Lib.Prog
import FirecrackerSdk.Error

/-!
# Making a network namespace

`RealCniNetworkOperations::initialize_netns` of `network.rs`: a file is created at the path of the
namespace, with the directory it stands in if that is missing, and a thread that has moved into a
namespace of its own binds that namespace to the file. The cleanup functions are what takes the
steps back.

`std::fs::create_dir_all` is modelled by what it does, over the ancestors of a path: try to make
the directory, and if something above it is missing make that first. All system calls are answered
by a world; each may fail for any reason.
-/

namespace FirecrackerSdk

/-! ### Paths as texts -/

/-- A path read from its end, without the separators and the `.` components there. A `.` that the
path begins with stays, and so does the root. -/
def dropCurDirs : List Char → List Char
  | [] => []
  | ['/'] => ['/']
  | ['.', '/'] => ['/']
  | '/' :: rest => dropCurDirs rest
  | '.' :: '/' :: rest => dropCurDirs rest
  | rest => rest

/-- `Path::parent`, on the characters of a path from its end. -/
def parentFromEnd (path : List Char) : Option (List Char) :=
  match dropCurDirs path with
  | [] => none
  | ['/'] => none
  | rest => some (dropCurDirs (rest.dropWhile (· != '/')))

/-- `Path::parent`. -/
def pathParent (path : String) : Option String :=
  (parentFromEnd path.toList.reverse).map fun parent => String.ofList parent.reverse

example : pathParent "/var/run/./netns//vm/" = some "/var/run/./netns" := by decide +kernel

example : pathParent "vm" = some "" ∧ pathParent "/" = none ∧ pathParent "./.." = some "." := by
  decide +kernel

theorem length_dropCurDirs (path : List Char) : (dropCurDirs path).length ≤ path.length := by
  fun_induction dropCurDirs path <;> simp_all <;> omega

/-- What is left is nothing, the root, or ends with the name of a component. -/
theorem dropCurDirs_cases (path : List Char) :
    dropCurDirs path = [] ∨ dropCurDirs path = ['/'] ∨
      ∃ c rest, c ≠ '/' ∧ dropCurDirs path = c :: rest := by
  fun_induction dropCurDirs path with
  | case1 => exact .inl rfl
  | case2 => exact .inr (.inl rfl)
  | case3 => exact .inr (.inl rfl)
  | case4 rest hrest ih => exact ih
  | case5 rest hrest ih => exact ih
  | case6 path hnil hroot hdot hslash hcur =>
    cases path with
    | nil => exact absurd rfl hnil
    | cons c rest => exact .inr (.inr ⟨c, rest, fun hc => hslash rest (hc ▸ rfl), rfl⟩)

/-- The parent of a path is a shorter text. -/
theorem length_parentFromEnd {path parent : List Char} (h : parentFromEnd path = some parent) :
    parent.length < path.length := by
  have hlength := length_dropCurDirs path
  unfold parentFromEnd at h
  split at h
  · cases h
  · cases h
  · rename_i rest hnil hroot
    obtain ⟨c, tail, hc, hrest⟩ : ∃ c tail, c ≠ '/' ∧ dropCurDirs path = c :: tail := by
      rcases dropCurDirs_cases path with hempty | hslash | hcons
      · exact absurd hempty hnil
      · exact absurd hslash hroot
      · exact hcons
    rw [← Option.some.inj h, hrest, List.dropWhile_cons_of_pos (by simpa using hc)]
    have hdrop := (List.dropWhile_sublist (l := tail) (· != '/')).length_le
    have htrim := length_dropCurDirs (tail.dropWhile (· != '/'))
    rw [hrest, List.length_cons] at hlength
    omega

theorem length_pathParent {path parent : String} (h : pathParent path = some parent) :
    parent.toList.length < path.toList.length := by
  obtain ⟨end_, hend, rfl⟩ := Option.map_eq_some_iff.mp h
  simpa using length_parentFromEnd hend

/-- At most `fuel` of the ancestors of a path, itself first. -/
def ancestorsFrom : ℕ → String → List String
  | 0, _ => []
  | fuel + 1, path => path :: ((pathParent path).map (ancestorsFrom fuel)).getD []

theorem ancestorsFrom_eq {path : String} {n m : ℕ} (hn : path.toList.length < n)
    (hm : path.toList.length < m) : ancestorsFrom n path = ancestorsFrom m path := by
  induction n generalizing path m with
  | zero => exact absurd hn (Nat.not_lt_zero _)
  | succ n ih =>
    cases m with
    | zero => exact absurd hm (Nat.not_lt_zero _)
    | succ m =>
      rw [ancestorsFrom, ancestorsFrom]
      cases hparent : pathParent path with
      | none => rfl
      | some parent =>
        have hlt := length_pathParent hparent
        rw [Option.map_some, Option.map_some,
          ih (hlt.trans_le (Nat.le_of_lt_succ hn)) (hlt.trans_le (Nat.le_of_lt_succ hm))]

/-- `Path::ancestors`: each is shorter than the one before it, so the length of the path is fuel
enough. -/
def pathAncestors (path : String) : List String := ancestorsFrom (path.toList.length + 1) path

theorem pathAncestors_eq (path : String) :
    pathAncestors path = path :: ((pathParent path).map pathAncestors).getD [] := by
  rw [pathAncestors, ancestorsFrom]
  cases hparent : pathParent path with
  | none => rfl
  | some parent =>
    rw [Option.map_some, Option.map_some, pathAncestors,
      ancestorsFrom_eq (length_pathParent hparent) (Nat.lt_succ_self _)]

/-! ### The world -/

/-- The questions that change nothing. -/
inductive NetnsQuestion where
  /-- `Path::exists`: an error counts as no. -/
  | pathExists (path : String)
  /-- `Path::is_dir`: an error counts as no. -/
  | isDir (path : String)
  /-- Whether `thread::spawn` gives a thread; it panics otherwise. -/
  | threadStarts
  /-- Whether the thread ends without a panic. -/
  | threadJoins
  deriving DecidableEq

/-- The system calls. -/
inductive NetnsCall where
  | mkdir (path : String)
  /-- `open(2)` with `O_CREAT` and `O_EXCL`. -/
  | createNew (path : String)
  /-- `unshare(2)` with `CLONE_NEWNET`. -/
  | unshare
  /-- `mount(2)` of the thread's network namespace on a path, with `MS_BIND`. -/
  | bindMount (target : String)
  /-- `umount2(2)` with `MNT_DETACH`. -/
  | umount (target : String)
  | removeFile (path : String)
  | removeDir (path : String)
  deriving DecidableEq

/-- An answer to every question and every call, which may depend on the world and may change it,
and the characters that the format `{:?}` escapes. -/
structure NetnsEnv (W : Type) where
  answer : NetnsQuestion → W → Bool × W
  call : NetnsCall → W → Except IoError Unit × W
  unprintable : Char → Bool := fun _ => false

/-- An operation on network namespaces. -/
abbrev NetnsOp (W α : Type) : Type := Prog W Error α

namespace NetnsOp

variable {W : Type} (env : NetnsEnv W)

/-- Ask the world. -/
def ask (question : NetnsQuestion) : NetnsOp W Bool := fun w =>
  (.ok (env.answer question w).1, (env.answer question w).2)

/-- Make a system call, and return how it went. -/
def tryCall (call : NetnsCall) : NetnsOp W (Except IoError Unit) := fun w =>
  (.ok (env.call call w).1, (env.call call w).2)

theorem ask_bind {α : Type} (question : NetnsQuestion) (f : Bool → NetnsOp W α) (w : W) :
    (ask env question >>= f) w = f (env.answer question w).1 (env.answer question w).2 := rfl

theorem tryCall_bind {α : Type} (call : NetnsCall) (f : Except IoError Unit → NetnsOp W α)
    (w : W) :
    (tryCall env call >>= f) w = f (env.call call w).1 (env.call call w).2 := rfl

/-- Make a system call, and fail with it. -/
def call (call : NetnsCall) : NetnsOp W Unit := do
  match ← tryCall env call with
  | .ok _ => pure ()
  | .error error => Prog.fail (.io error)

end NetnsOp

namespace RealCni

variable {W : Type} (env : NetnsEnv W)

/-! ### Directories -/

/-- What `create_dir_all` makes of a call of `mkdir` that failed: a directory that is there is as
good as a new one. -/
def acceptDir (path : String) (error : IoError) : NetnsOp W Unit := do
  if ← NetnsOp.ask env (.isDir path) then pure () else Prog.fail (.io error)

/-- `fs::create_dir_all` for the first of a list of ancestors. -/
def createDirs : List String → NetnsOp W Unit
  | [] => Prog.fail (.io ⟨.other 0, "failed to create whole tree", none⟩)
  | path :: ancestors =>
    if path = "" then pure ()
    else do
      match ← NetnsOp.tryCall env (.mkdir path) with
      | .ok _ => pure ()
      | .error error =>
        if error.kind = .notFound then do
          createDirs ancestors
          match ← NetnsOp.tryCall env (.mkdir path) with
          | .ok _ => pure ()
          | .error error => acceptDir env path error
        else acceptDir env path error

/-- `fs::create_dir_all`. -/
def createDirAll (path : String) : NetnsOp W Unit := createDirs env (pathAncestors path)

/-! ### Cleanup functions -/

/-- The closures of `initialize_netns`. -/
inductive NetnsCleanup where
  | removeDir (path : String)
  | removeFile (path : String)
  | unmount (path : String)
  deriving DecidableEq

/-- `path_to_cstring`. -/
def pathToCstring (unprintable : Char → Bool) (path : String) : Except Error Unit :=
  if path.toList.any (·.toNat == 0) then
    .error (.invalidConfig ("invalid path for C string: " ++ Text.debugStr unprintable path))
  else .ok ()

/-- Make a call for which it is not an error that there is nothing. -/
def removing (call : NetnsCall) : NetnsOp W Unit := do
  match ← NetnsOp.tryCall env call with
  | .ok _ => pure ()
  | .error error => if error.kind = .notFound then pure () else Prog.fail (.io error)

/-- Run a closure. -/
def NetnsCleanup.run : NetnsCleanup → NetnsOp W Unit
  | .removeDir path => removing env (.removeDir path)
  | .removeFile path => removing env (.removeFile path)
  | .unmount path => do
    Prog.ofExcept (pathToCstring env.unprintable path)
    match ← NetnsOp.tryCall env (.umount path) with
    | .ok _ => pure ()
    | .error error =>
      if error.rawOsError = some 22 ∨ error.rawOsError = some 2 then pure ()
      else Prog.fail (.io error)

/-- Run closures one after the other, ending with the first that fails. -/
def runAll : List NetnsCleanup → NetnsOp W Unit
  | [] => pure ()
  | cleanup :: rest => do
    cleanup.run env
    runAll rest

/-- The loop that pops closures and runs them, whether they fail or not. -/
def rollback : List NetnsCleanup → NetnsOp W Unit
  | [] => pure ()
  | cleanup :: rest => do
    let _ ← (cleanup.run env).attempt
    rollback rest

/-! ### The namespace -/

/-- The part of `initialize_netns` that makes the directory of the namespace, with the closure
that removes it. -/
def makeParent (parentDir : String) : NetnsOp W (List NetnsCleanup) := do
  if ← NetnsOp.ask env (.pathExists parentDir) then pure []
  else do
    createDirAll env parentDir
    pure [.removeDir parentDir]

/-- The body of the thread of `initialize_netns`. -/
def mountNetns (path : String) : NetnsOp W Unit := do
  Prog.ofExcept (pathToCstring env.unprintable path)
  NetnsOp.call env .unshare
  NetnsOp.call env (.bindMount path)

/-- The thread of `initialize_netns`, from its start until it is joined: how its body ended. -/
def runThread (path : String) : NetnsOp W (Except Error Unit) := do
  if ← NetnsOp.ask env .threadStarts then do
    let result ← (mountNetns env path).attempt
    if ← NetnsOp.ask env .threadJoins then pure result
    else Prog.fail (.process "failed joining netns initialization thread")
  else Prog.drop

/-- `initialize_netns`. -/
def initializeNetns (netNsPath : String) : NetnsOp W (List NetnsCleanup) := do
  if ← NetnsOp.ask env (.pathExists netNsPath) then pure []
  else
    match pathParent netNsPath with
    | none =>
      Prog.fail (.invalidConfig
        ("invalid netns path " ++ Text.debugStr env.unprintable netNsPath))
    | some parentDir => do
      let dirCleanups ← makeParent env parentDir
      NetnsOp.call env (.createNew netNsPath)
      let cleanups := dirCleanups ++ [.removeFile netNsPath]
      match ← runThread env netNsPath with
      | .error error => do
        rollback env cleanups.reverse
        Prog.fail error
      | .ok _ => pure (cleanups ++ [.unmount netNsPath])

end RealCni

end FirecrackerSdk
