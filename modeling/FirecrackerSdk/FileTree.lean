import Mathlib.Data.Set.Insert
import FirecrackerSdk.Lib.Lexical
import FirecrackerSdk.Netns

/-!
# Files, directories and mounts

What the steps of `initialize_netns` change: a set of objects in every world, with the effects of
the system calls as the manual pages have them (`FirecrackerSdk.FileSystem`). Which object a path
names is left to the file system, with links and mounts and all; it depends on what is there, and
on nothing else. Any call may fail, for any reason.

A tree of names without links, in which every call that can succeed does
(`FirecrackerSdk.Tree.fileSystem`), is one such file system.
-/

namespace FirecrackerSdk

/-- **Files, directories and mounts**: the set of them in a world, the one that a path names as an
entry of its directory, and the mount on top of what it names, with the effects of the system
calls as documented. -/
structure FileSystem {W : Type} (env : NetnsEnv W) (Obj : Type) where
  objects : W → Set Obj
  isDir : Obj → Prop
  entry : Set Obj → String → Option Obj
  mountOn : Set Obj → String → Option Obj
  /-- Looking changes nothing. -/
  answer_objects : ∀ question w, objects (env.answer question w).2 = objects w
  /-- A call that fails changes nothing. -/
  error_objects : ∀ {call w error}, (env.call call w).1 = .error error →
    objects (env.call call w).2 = objects w
  /-- Entering a namespace changes nothing. -/
  unshare_objects : ∀ w, objects (env.call .unshare w).2 = objects w
  mkdir_ok : ∀ {path w}, (env.call (.mkdir path) w).1 = .ok () →
    ∃ dir ∉ objects w, objects (env.call (.mkdir path) w).2 = insert dir (objects w)
  createNew_ok : ∀ {path w}, (env.call (.createNew path) w).1 = .ok () →
    ∃ file ∉ objects w, ¬isDir file ∧
      objects (env.call (.createNew path) w).2 = insert file (objects w) ∧
      entry (insert file (objects w)) path = some file
  bindMount_ok : ∀ {target w}, (env.call (.bindMount target) w).1 = .ok () →
    ∃ mount ∉ objects w,
      objects (env.call (.bindMount target) w).2 = insert mount (objects w) ∧
      mountOn (insert mount (objects w)) target = some mount
  umount_ok : ∀ {target w}, (env.call (.umount target) w).1 = .ok () →
    ∃ mount, mountOn (objects w) target = some mount ∧
      objects (env.call (.umount target) w).2 = objects w \ {mount}
  /-- `EINVAL` and `ENOENT`: there is no mount. -/
  umount_error : ∀ {target w error}, (env.call (.umount target) w).1 = .error error →
    error.rawOsError = some 22 ∨ error.rawOsError = some 2 → mountOn (objects w) target = none
  removeFile_ok : ∀ {path w}, (env.call (.removeFile path) w).1 = .ok () →
    ∃ file, entry (objects w) path = some file ∧
      objects (env.call (.removeFile path) w).2 = objects w \ {file}
  removeFile_error : ∀ {path w error}, (env.call (.removeFile path) w).1 = .error error →
    error.kind = .notFound → entry (objects w) path = none
  removeDir_ok : ∀ {path w}, (env.call (.removeDir path) w).1 = .ok () →
    ∃ dir ∈ objects w, isDir dir ∧ entry (objects w) path = some dir ∧
      objects (env.call (.removeDir path) w).2 = objects w \ {dir}
  removeDir_error : ∀ {path w error}, (env.call (.removeDir path) w).1 = .error error →
    error.kind = .notFound → entry (objects w) path = none

namespace FileSystem

variable {W Obj : Type} {env : NetnsEnv W} (fs : FileSystem env Obj)

theorem objects_of_answer {question : NetnsQuestion} {w w' : W} {yes : Bool}
    (h : env.answer question w = (yes, w')) : fs.objects w' = fs.objects w := by
  have hsame := fs.answer_objects question w
  rw [h] at hsame
  exact hsame

theorem objects_of_error {call : NetnsCall} {w w' : W} {error : IoError}
    (h : env.call call w = (.error error, w')) : fs.objects w' = fs.objects w := by
  have hsame := fs.error_objects (congrArg Prod.fst h)
  rw [h] at hsame
  exact hsame

end FileSystem

/-! ### A tree of names -/

/-- A node of the tree, at its place below the root. -/
inductive Node where
  | dir (names : List (List Char))
  | file (names : List (List Char))
  | mount (names : List (List Char))
  deriving DecidableEq

namespace Node

/-- The place of a node. -/
def names : Node → List (List Char)
  | .dir names => names
  | .file names => names
  | .mount names => names

end Node

namespace Tree

/-- The place that a path names. -/
def place (path : String) : List (List Char) := Lexical.inside (Lexical.steps path.toList)

/-- There is a directory; the root always is. -/
def hasDir (nodes : List Node) (names : List (List Char)) : Bool :=
  names.isEmpty || nodes.contains (.dir names)

/-- There is a directory or a file. -/
def has (nodes : List Node) (names : List (List Char)) : Bool :=
  hasDir nodes names || nodes.contains (.file names)

/-- There is a node below. -/
def hasBelow (nodes : List Node) (names : List (List Char)) : Bool :=
  nodes.any fun node => names.isPrefixOf node.names && names.length < node.names.length

/-- An error with the number of the operating system. -/
def error (number : ℕ) : IoError :=
  ⟨if number = 2 then .notFound else .other number, "os error", some number⟩

/-- Add a node, if there is a directory for it and nothing at its place. -/
def add (path : String) (node : List (List Char) → Node) (nodes : List Node) :
    Except IoError Unit × List Node :=
  if path = "" ∨ hasDir nodes (place path).dropLast = false then (.error (error 2), nodes)
  else if has nodes (place path) = true then (.error (error 17), nodes)
  else (.ok (), node (place path) :: nodes)

/-- Remove a node, if nothing stands in the way; fail with a number if it is not there. -/
def remove (node : Node) (blocked : Bool) (missing : ℕ) (nodes : List Node) :
    Except IoError Unit × List Node :=
  if node ∈ nodes then
    if blocked = true then (.error (error 16), nodes) else (.ok (), nodes.filter (· ≠ node))
  else (.error (error missing), nodes)

/-- The system calls. -/
def call : NetnsCall → List Node → Except IoError Unit × List Node
  | .mkdir path, nodes => add path .dir nodes
  | .createNew path, nodes => add path .file nodes
  | .unshare, nodes => (.ok (), nodes)
  | .bindMount target, nodes =>
    if has nodes (place target) = false then (.error (error 2), nodes)
    else if .mount (place target) ∈ nodes then (.error (error 16), nodes)
    else (.ok (), .mount (place target) :: nodes)
  | .umount target, nodes => remove (.mount (place target)) false 22 nodes
  | .removeFile path, nodes =>
    remove (.file (place path)) (nodes.contains (.mount (place path)) ||
      nodes.contains (.dir (place path))) (if hasDir nodes (place path) then 21 else 2) nodes
  | .removeDir path, nodes =>
    remove (.dir (place path)) (hasBelow nodes (place path))
      (if .file (place path) ∈ nodes then 20 else 2) nodes

/-- The questions; threads start and end. -/
def answer : NetnsQuestion → List Node → Bool
  | .pathExists path, nodes => path ≠ "" && has nodes (place path)
  | .isDir path, nodes => path ≠ "" && hasDir nodes (place path)
  | .threadStarts, _ => true
  | .threadJoins, _ => true

/-- A world that is a tree. -/
def env : NetnsEnv (List Node) where
  answer question nodes := (answer question nodes, nodes)
  call := call

/-! ### The tree is a file system -/

/-- The nodes of a tree. -/
def objects (nodes : List Node) : Set Node := {node | node ∈ nodes}

theorem objects_cons (node : Node) (nodes : List Node) :
    objects (node :: nodes) = insert node (objects nodes) := by
  ext other
  simp [objects]

theorem objects_filter (node : Node) (nodes : List Node) :
    objects (nodes.filter (· ≠ node)) = objects nodes \ {node} := by
  ext other
  simp [objects]

open Classical in
/-- The directory or file that a path names. -/
noncomputable def entry (nodes : Set Node) (path : String) : Option Node :=
  if .dir (place path) ∈ nodes then some (.dir (place path))
  else if .file (place path) ∈ nodes then some (.file (place path))
  else none

open Classical in
/-- The mount on what a path names. -/
noncomputable def mountOn (nodes : Set Node) (target : String) : Option Node :=
  if .mount (place target) ∈ nodes then some (.mount (place target)) else none

theorem entry_eq_none {nodes : List Node} {path : String} (hdir : .dir (place path) ∉ nodes)
    (hfile : .file (place path) ∉ nodes) : entry (objects nodes) path = none := by
  simp [entry, objects, hdir, hfile]

theorem not_mem_of_not_has {nodes : List Node} {names : List (List Char)}
    (h : ¬has nodes names = true) : .dir names ∉ nodes ∧ .file names ∉ nodes := by
  simp only [has, hasDir, Bool.or_eq_true, List.contains_iff_mem] at h
  exact ⟨fun hmem => h (.inl (.inr hmem)), fun hmem => h (.inr hmem)⟩

theorem add_ok {path : String} {node : List (List Char) → Node} {nodes : List Node}
    (h : (add path node nodes).1 = .ok ()) :
    (.dir (place path) ∉ nodes ∧ .file (place path) ∉ nodes) ∧
      objects (add path node nodes).2 = insert (node (place path)) (objects nodes) := by
  unfold add at h ⊢
  split_ifs at h ⊢ with hdir hhas
  exact ⟨not_mem_of_not_has hhas, objects_cons _ _⟩

theorem add_error {path : String} {node : List (List Char) → Node} {nodes : List Node}
    {error : IoError} (h : (add path node nodes).1 = .error error) :
    (add path node nodes).2 = nodes := by
  unfold add at h ⊢
  split_ifs at h ⊢ <;> rfl

theorem remove_ok {node : Node} {blocked : Bool} {missing : ℕ} {nodes : List Node}
    (h : (remove node blocked missing nodes).1 = .ok ()) :
    node ∈ nodes ∧ blocked = false ∧
      objects (remove node blocked missing nodes).2 = objects nodes \ {node} := by
  unfold remove at h ⊢
  split_ifs at h ⊢ with hmem hblocked
  exact ⟨hmem, by simpa using hblocked, objects_filter node nodes⟩

theorem remove_error {node : Node} {blocked : Bool} {missing : ℕ} {nodes : List Node}
    {e : IoError} (h : (remove node blocked missing nodes).1 = .error e) :
    (remove node blocked missing nodes).2 = nodes ∧
      ((node ∉ nodes ∧ e = error missing) ∨ (blocked = true ∧ e = error 16)) := by
  unfold remove at h ⊢
  split_ifs at h ⊢ with hmem hblocked
  · exact ⟨rfl, .inr ⟨hblocked, (Except.error.inj h).symm⟩⟩
  · exact ⟨rfl, .inl ⟨hmem, (Except.error.inj h).symm⟩⟩

theorem call_error {c : NetnsCall} {nodes : List Node} {e : IoError}
    (h : (call c nodes).1 = .error e) : (call c nodes).2 = nodes := by
  cases c with
  | mkdir path => exact add_error h
  | createNew path => exact add_error h
  | unshare => rfl
  | bindMount target =>
    unfold call at h ⊢
    dsimp only at h ⊢
    split_ifs at h ⊢ <;> rfl
  | umount target => exact (remove_error h).1
  | removeFile path => exact (remove_error h).1
  | removeDir path => exact (remove_error h).1

/-- **The tree is a file system.** -/
noncomputable def fileSystem : FileSystem env Node where
  objects := objects
  isDir node := ∃ names, node = .dir names
  entry := entry
  mountOn := mountOn
  answer_objects _ _ := rfl
  error_objects h := congrArg objects (call_error h)
  unshare_objects _ := rfl
  mkdir_ok h := ⟨_, (add_ok h).1.1, (add_ok h).2⟩
  createNew_ok {path nodes} h := by
    obtain ⟨⟨hdir, hfile⟩, hadd⟩ := add_ok h
    refine ⟨.file (place path), hfile, by simp, hadd, ?_⟩
    simp [entry, objects, hdir]
  bindMount_ok {target nodes} h := by
    change (call (.bindMount target) nodes).1 = .ok () at h
    change ∃ mount ∉ objects nodes, objects (call (.bindMount target) nodes).2 = _ ∧ _
    unfold call at h ⊢
    dsimp only at h ⊢
    split_ifs at h ⊢ with hhas hmount
    exact ⟨.mount (place target), hmount, objects_cons _ _, by simp [mountOn]⟩
  umount_ok {target nodes} h := by
    obtain ⟨hmem, -, hremove⟩ := remove_ok h
    exact ⟨.mount (place target), if_pos hmem, hremove⟩
  umount_error {target nodes error} h _ := by
    obtain ⟨-, ⟨hmem, -⟩ | ⟨hblocked, -⟩⟩ := remove_error h
    · exact if_neg hmem
    · cases hblocked
  removeFile_ok {path nodes} h := by
    obtain ⟨hmem, hfree, hremove⟩ := remove_ok h
    rw [Bool.or_eq_false_iff] at hfree
    have hdir : .dir (place path) ∉ nodes := by simpa using hfree.2
    exact ⟨.file (place path), (if_neg hdir).trans (if_pos hmem), hremove⟩
  removeFile_error {path nodes error} h hkind := by
    obtain ⟨-, ⟨hfile, rfl⟩ | ⟨-, rfl⟩⟩ := remove_error h
    · by_cases hdir : hasDir nodes (place path) = true
      · rw [if_pos hdir] at hkind
        cases hkind
      · simp only [hasDir, Bool.or_eq_true, List.contains_iff_mem] at hdir
        exact entry_eq_none (fun hmem => hdir (.inr hmem)) hfile
    · cases hkind
  removeDir_ok {path nodes} h := by
    obtain ⟨hmem, -, hremove⟩ := remove_ok h
    exact ⟨.dir (place path), hmem, ⟨_, rfl⟩, if_pos hmem, hremove⟩
  removeDir_error {path nodes error} h hkind := by
    obtain ⟨-, ⟨hdir, rfl⟩ | ⟨-, rfl⟩⟩ := remove_error h
    · by_cases hfile : .file (place path) ∈ nodes
      · rw [if_pos hfile] at hkind
        cases hkind
      · exact entry_eq_none hdir hfile
    · cases hkind

end Tree

end FirecrackerSdk
