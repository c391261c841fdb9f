import FirecrackerSdk.FileTree

/-!
# Taking back a network namespace

Whether the cleanup functions of `initialize_netns` restore what was there before it, and whether
a failing call leaves anything behind.

What is there is a set of objects: files, directories and mounts, each with its place
(`FirecrackerSdk.FileSystem`). Which object a path names is up to the file system, with links and
mounts and all; it is only used that this depends on what is there, and that a call that succeeds
adds or removes the one object that its path names, as the manual pages have it.

Each step is taken back by its closure except one. `create_dir_all` may make several directories,
or none if the directory was there and could not be looked at, and the closure removes the last of
them. So the steps are taken back exactly if what was made is what the parent names
(`FirecrackerSdk.RealCni.removeDir_restores_iff`). And only when the mount fails are the closures
run; where the call fails before, after a directory was made, it stays.
-/

namespace FirecrackerSdk

namespace RealCni

variable {W Obj : Type} {env : NetnsEnv W} (fs : FileSystem env Obj)

/-! ### Restoring, and what it takes -/

/-- **The call can be taken back**: if it returns closures, running them all in the reverse order,
each with success, restores what was there; if it fails, what was there is there. -/
def Restores (path : String) (w : W) : Prop :=
  match initializeNetns env path w with
  | (.ok cleanups, w') =>
    ∀ w'', runAll env cleanups.reverse w' = (.ok (), w'') → fs.objects w'' = fs.objects w
  | (.err _, w') => fs.objects w' = fs.objects w
  | (.dropped, _) => True

/-- The paths for which `createDirs` makes a directory: the calls of `mkdir` that succeed. -/
def madeDirs (env : NetnsEnv W) : List String → W → List String
  | [], _ => []
  | path :: ancestors, w =>
    if path = "" then []
    else
      match env.call (.mkdir path) w with
      | (.ok _, _) => [path]
      | (.error error, w₁) =>
        if error.kind = .notFound then
          madeDirs env ancestors w₁ ++
            match createDirs env ancestors w₁ with
            | (.ok _, w₂) => if (env.call (.mkdir path) w₂).1 = .ok () then [path] else []
            | _ => []
        else []

/-- The paths for which `makeParent` makes a directory. -/
def parentDirsMade (env : NetnsEnv W) (parentDir : String) (w : W) : List String :=
  match env.answer (.pathExists parentDir) w with
  | (true, _) => []
  | (false, w₁) => madeDirs env (pathAncestors parentDir) w₁

/-- What was made is what is to be removed: nothing, or what the parent names. -/
def MadeIsNamed (parentDir : String) (dirCleanups : List NetnsCleanup) (before after : Set Obj) :
    Prop :=
  after \ before =
    if dirCleanups = [] then ∅ else {dir | fs.entry after parentDir = some dir}

/-- The path is not there, and has a parent. -/
def Starts (env : NetnsEnv W) (path : String) (w : W) (parentDir : String) (w₁ : W) : Prop :=
  env.answer (.pathExists path) w = (false, w₁) ∧ pathParent path = some parentDir

/-- The directory is there, or was made, and the file was created. -/
structure Creates (env : NetnsEnv W) (path : String) (w : W) (parentDir : String) (w₁ : W)
    (dirCleanups : List NetnsCleanup) (w₂ w₃ : W) : Prop where
  starts : Starts env path w parentDir w₁
  makes : makeParent env parentDir w₁ = (.ok dirCleanups, w₂)
  creates : env.call (.createNew path) w₂ = (.ok (), w₃)

/-- **What it takes for the call to leave nothing behind**, exit by exit. -/
structure LeavesNothing (path : String) (w : W) : Prop where
  /-- If making the directory fails, none above it was made. -/
  dirs : ∀ {parentDir w₁ error w₂}, Starts env path w parentDir w₁ →
    makeParent env parentDir w₁ = (.err error, w₂) → parentDirsMade env parentDir w₁ = []
  /-- If creating the file fails, no directory was made for it. -/
  file : ∀ {parentDir w₁ dirCleanups w₂ error w₃}, Starts env path w parentDir w₁ →
    makeParent env parentDir w₁ = (.ok dirCleanups, w₂) →
    env.call (.createNew path) w₂ = (.error error, w₃) → parentDirsMade env parentDir w₁ = []
  /-- Once there is a file, the thread can be joined. -/
  joined : ∀ {parentDir w₁ dirCleanups w₂ w₃},
    Creates env path w parentDir w₁ dirCleanups w₂ w₃ →
    ∀ error w₄, runThread env path w₃ ≠ (.err error, w₄)
  /-- If all succeeds, and the closures do, what was made is what the parent names. -/
  mounted : ∀ {parentDir w₁ dirCleanups w₂ w₃ w₄ w'},
    Creates env path w parentDir w₁ dirCleanups w₂ w₃ →
    runThread env path w₃ = (.ok (.ok ()), w₄) →
    runAll env (.unmount path :: .removeFile path :: dirCleanups.reverse) w₄ = (.ok (), w') →
    MadeIsNamed fs parentDir dirCleanups (fs.objects w) (fs.objects w₂)
  /-- If the mount fails, the file can be removed, and the directories that were made are what is
  removed besides: the one that the parent names, or none. -/
  rolledBack : ∀ {parentDir w₁ dirCleanups w₂ w₃ error w₄},
    Creates env path w parentDir w₁ dirCleanups w₂ w₃ →
    runThread env path w₃ = (.ok (.error error), w₄) →
    (env.call (.removeFile path) w₄).1 = .ok () ∧
      (dirCleanups = [] ∨
        ((env.call (.removeDir parentDir) (env.call (.removeFile path) w₄).2).1 = .ok () ∧
          MadeIsNamed fs parentDir dirCleanups (fs.objects w) (fs.objects w₂)) ∨
        ((env.call (.removeDir parentDir) (env.call (.removeFile path) w₄).2).1 ≠ .ok () ∧
          parentDirsMade env parentDir w₁ = []))

/-! ### Making directories -/

/-- Nothing goes away. -/
def Grows (w w' : W) : Prop := fs.objects w ⊆ fs.objects w'

instance : Std.Refl (Grows fs) := ⟨fun _ => subset_rfl⟩

instance : IsTrans W (Grows fs) := ⟨fun _ _ _ h₁ h₂ => Set.Subset.trans h₁ h₂⟩

open Prog in
theorem grows_ask (question : NetnsQuestion) : Within (Grows fs) (NetnsOp.ask env question) :=
  fun w => (fs.answer_objects question w).ge

open Prog in
theorem grows_mkdir (path : String) :
    Within (Grows fs) (NetnsOp.tryCall env (.mkdir path)) := by
  intro w
  change fs.objects w ⊆ fs.objects (env.call (.mkdir path) w).2
  cases h : (env.call (.mkdir path) w).1 with
  | ok _ =>
    obtain ⟨dir, -, hinsert⟩ := fs.mkdir_ok h
    rw [hinsert]
    exact Set.subset_insert dir _
  | error error => exact (fs.error_objects h).ge

open Prog in
theorem grows_acceptDir (path : String) (error : IoError) :
    Within (Grows fs) (acceptDir env path error) :=
  within_bind (grows_ask fs _) fun _ => within_ite (within_pure _) (within_fail _)

open Prog in
theorem grows_retry (path : String) :
    Within (Grows fs) (do
      match ← NetnsOp.tryCall env (.mkdir path) with
      | .ok _ => pure ()
      | .error error => acceptDir env path error) := by
  refine within_bind (grows_mkdir fs path) fun result => ?_
  cases result with
  | ok _ => exact within_pure _
  | error error => exact grows_acceptDir fs path error

open Prog in
theorem grows_createDirs (ancestors : List String) :
    Within (Grows fs) (createDirs env ancestors) := by
  induction ancestors with
  | nil => exact within_fail _
  | cons path ancestors ih =>
    refine within_ite (within_pure _) (within_bind (grows_mkdir fs path) fun result => ?_)
    cases result with
    | ok _ => exact within_pure _
    | error error =>
      exact within_ite (within_bind ih fun _ => grows_retry fs path)
        (grows_acceptDir fs path error)

/-- A call of `mkdir` adds a directory if it succeeds, and nothing if it fails. -/
theorem mkdir_subset_iff {w w' : W} {path : String} {result : Except IoError Unit}
    (h : env.call (.mkdir path) w = (result, w')) :
    fs.objects w' ⊆ fs.objects w ↔ result ≠ .ok () := by
  cases result with
  | ok _ =>
    obtain ⟨dir, hfresh, hinsert⟩ := fs.mkdir_ok (congrArg Prod.fst h)
    rw [h] at hinsert
    dsimp only at hinsert
    rw [hinsert, Set.insert_subset_iff]
    exact iff_of_false (fun hsub => hfresh hsub.1) (fun hne => hne rfl)
  | error error =>
    exact iff_of_true (fs.objects_of_error h).le (by simp)

theorem objects_acceptDir (path : String) (error : IoError) (w : W) :
    fs.objects (acceptDir env path error w).2 = fs.objects w := by
  unfold acceptDir
  rw [NetnsOp.ask_bind]
  cases (env.answer (.isDir path) w).1 <;> exact fs.answer_objects (.isDir path) w

/-- What follows `mkdir` in `createDirs` after the directories above are made. -/
theorem retry_subset_iff (path : String) (w : W) :
    fs.objects ((do
      match ← NetnsOp.tryCall env (.mkdir path) with
      | .ok _ => pure ()
      | .error error => acceptDir env path error) w).2 ⊆ fs.objects w ↔
      (env.call (.mkdir path) w).1 ≠ .ok () := by
  have hiff := mkdir_subset_iff fs (rfl : env.call (.mkdir path) w = (_, _))
  rw [NetnsOp.tryCall_bind, ← hiff]
  cases (env.call (.mkdir path) w).1 with
  | ok _ => rfl
  | error error =>
    dsimp only
    rw [objects_acceptDir]

/-- **`create_dir_all` leaves what was there alone exactly if no call of `mkdir` succeeds**,
whether it returns or fails. -/
theorem createDirs_subset_iff (ancestors : List String) (w : W) :
    fs.objects (createDirs env ancestors w).2 ⊆ fs.objects w ↔ madeDirs env ancestors w = [] := by
  induction ancestors generalizing w with
  | nil => exact iff_of_true subset_rfl rfl
  | cons path ancestors ih =>
    rw [createDirs, madeDirs]
    by_cases hpath : path = ""
    · rw [if_pos hpath, if_pos hpath]
      exact iff_of_true subset_rfl rfl
    · rw [if_neg hpath, if_neg hpath]
      rw [NetnsOp.tryCall_bind]
      rcases hcall : env.call (.mkdir path) w with ⟨error | _, w₁⟩
      · have hw₁ := fs.objects_of_error hcall
        dsimp only
        by_cases hkind : error.kind = .notFound
        · rw [if_pos hkind, if_pos hkind, List.append_eq_nil_iff, ← ih w₁, ← hw₁]
          have hgrows := grows_createDirs fs ancestors w₁
          rcases hdirs : createDirs env ancestors w₁ with ⟨_ | inner | _, w₂⟩
          · -- what the directories above added stays, so both steps have to add nothing
            rw [hdirs] at hgrows
            rw [Prog.bind_of_ok hdirs]
            have hstays := grows_retry fs path w₂
            have hretry := retry_subset_iff fs path w₂
            have hlast : (if (env.call (.mkdir path) w₂).1 = .ok () then [path] else []) = [] ↔
                (env.call (.mkdir path) w₂).1 ≠ .ok () := by simp
            dsimp only
            rw [hlast, ← hretry]
            constructor
            · intro hsub
              exact ⟨hstays.trans hsub, hsub.trans hgrows⟩
            · rintro ⟨hbelow, hmade⟩
              exact hmade.trans hbelow
          · rw [Prog.bind_of_err hdirs]
            simp
          · rw [Prog.bind_of_dropped hdirs]
            simp
        · rw [if_neg hkind, if_neg hkind, objects_acceptDir, hw₁]
          exact iff_of_true subset_rfl rfl
      · exact iff_of_false (fun hsub => (mkdir_subset_iff fs hcall).mp hsub rfl) (by simp)

/-- **What making the directory of a namespace amounts to**: it was there, or whatever was made is
to be removed by one closure. -/
theorem makeParent_cases (parentDir : String) (w : W) :
    fs.objects w ⊆ fs.objects (makeParent env parentDir w).2 ∧
      ∀ dirCleanups w', makeParent env parentDir w = (.ok dirCleanups, w') →
        (dirCleanups = [] ∧ fs.objects w' = fs.objects w) ∨
          dirCleanups = [.removeDir parentDir] := by
  unfold makeParent
  have hsame := fs.answer_objects (.pathExists parentDir) w
  rw [NetnsOp.ask_bind]
  cases (env.answer (.pathExists parentDir) w).1 with
  | true =>
    refine ⟨hsame.ge, fun dirCleanups w' h => .inl ?_⟩
    obtain ⟨rfl, rfl⟩ : [] = dirCleanups ∧ (env.answer (.pathExists parentDir) w).2 = w' := by
      simpa using h
    exact ⟨rfl, hsame⟩
  | false =>
    have hgrows := Prog.within_bind (grows_createDirs fs (pathAncestors parentDir))
      (fun _ => Prog.within_pure [NetnsCleanup.removeDir parentDir])
      (env.answer (.pathExists parentDir) w).2
    refine ⟨hsame.ge.trans hgrows, fun dirCleanups w' h => .inr ?_⟩
    obtain ⟨_, w₁, -, hpure⟩ := Prog.bind_eq_ok.mp h
    cases hpure
    rfl

/-- Making the directory of a namespace leaves what was there alone exactly if none is made. -/
theorem makeParent_subset_iff (parentDir : String) (w : W) :
    fs.objects (makeParent env parentDir w).2 ⊆ fs.objects w ↔
      parentDirsMade env parentDir w = [] := by
  unfold makeParent parentDirsMade
  rw [NetnsOp.ask_bind]
  rcases hexists : env.answer (.pathExists parentDir) w with ⟨_ | _, w₁⟩
  · rw [← fs.objects_of_answer hexists]
    dsimp only
    rw [if_neg Bool.false_ne_true, Prog.snd_bind_pure]
    exact createDirs_subset_iff fs _ w₁
  · exact iff_of_true (fs.objects_of_answer hexists).le rfl

/-! ### Taking steps back -/

/-- Removing one object of a larger set gives the smaller one, exactly if it is all that the
larger one has more. -/
theorem sdiff_singleton_eq_iff {before after : Set Obj} {o : Obj} (hsub : before ⊆ after)
    (hmem : o ∈ after) : after \ {o} = before ↔ after \ before = {o} := by
  constructor
  · rintro rfl
    ext x
    by_cases hx : x = o <;> simp [hx, hmem]
  · intro h
    ext x
    have hx : x ∈ after \ before ↔ x = o := by rw [h, Set.mem_singleton_iff]
    rw [Set.mem_sdiff] at hx
    constructor
    · rintro ⟨hafter, hne⟩
      by_contra hbefore
      exact hne (hx.mp ⟨hafter, hbefore⟩)
    · intro hbefore
      exact ⟨hsub hbefore, fun heq => (hx.mpr heq).2 hbefore⟩

/-- A closure that removes something returns after it has, or if it finds nothing. -/
theorem removing_eq_ok {call : NetnsCall} {w w' : W} (h : removing env call w = (.ok (), w')) :
    w' = (env.call call w).2 ∧ ((env.call call w).1 = .ok () ∨
      ∃ error, (env.call call w).1 = .error error ∧ error.kind = .notFound) := by
  unfold removing at h
  rw [NetnsOp.tryCall_bind] at h
  cases hcall : (env.call call w).1 with
  | ok _ =>
    rw [hcall] at h
    cases h
    exact ⟨rfl, .inl rfl⟩
  | error error =>
    rw [hcall] at h
    dsimp only at h
    split at h
    · rename_i hkind
      cases h
      exact ⟨rfl, .inr ⟨error, rfl, hkind⟩⟩
    · cases h

/-- In the rollback a closure that removes something makes its call, however that ends. -/
theorem attempt_removing (call : NetnsCall) (w : W) :
    ∃ result, (removing env call).attempt w = (.ok result, (env.call call w).2) := by
  have htry : NetnsOp.tryCall env call w = (.ok (env.call call w).1, (env.call call w).2) := rfl
  unfold removing
  rw [Prog.attempt_bind_of_ok htry]
  cases (env.call call w).1 with
  | ok _ => exact ⟨_, rfl⟩
  | error error =>
    dsimp only
    split
    · exact ⟨_, rfl⟩
    · exact ⟨_, rfl⟩

/-- The rollback goes on after each closure. -/
theorem rollback_cons {cleanup : NetnsCleanup} {call : NetnsCall}
    (hrun : cleanup.run env = removing env call) (rest : List NetnsCleanup) (w : W) :
    rollback env (cleanup :: rest) w = rollback env rest (env.call call w).2 := by
  obtain ⟨result, hattempt⟩ := @attempt_removing W env call w
  rw [rollback, hrun, Prog.bind_of_ok hattempt]

/-- **Unmounting takes the mount back.** -/
theorem unmount_restores {path : String} {w w' : W} {before : Set Obj} {mount : Obj}
    (hfresh : mount ∉ before) (hobjects : fs.objects w = insert mount before)
    (hmount : fs.mountOn (insert mount before) path = some mount)
    (h : NetnsCleanup.run env (.unmount path) w = (.ok (), w')) : fs.objects w' = before := by
  unfold NetnsCleanup.run at h
  obtain ⟨_, w₁, hpath, h⟩ := Prog.bind_eq_ok.mp h
  obtain rfl : w = w₁ := by
    cases hcstring : pathToCstring env.unprintable path with
    | ok _ =>
      rw [hcstring] at hpath
      cases hpath
      rfl
    | error error =>
      rw [hcstring] at hpath
      cases hpath
  rw [NetnsOp.tryCall_bind] at h
  cases hcall : (env.call (.umount path) w).1 with
  | ok _ =>
    rw [hcall] at h
    cases h
    obtain ⟨mount', hmount', hremoved⟩ := fs.umount_ok hcall
    rw [hobjects, hmount] at hmount'
    obtain rfl := Option.some.inj hmount'
    rw [hremoved, hobjects]
    exact Set.insert_sdiff_self_of_notMem hfresh
  | error error =>
    -- the closure accepts an error that says there is no mount, but there is one
    rw [hcall] at h
    dsimp only at h
    split at h
    · rename_i herror
      have hnone := fs.umount_error hcall herror
      rw [hobjects, hmount] at hnone
      cases hnone
    · cases h

/-- **Removing the file takes its creation back.** -/
theorem removeFile_restores {path : String} {w w' : W} {before : Set Obj} {file : Obj}
    (hfresh : file ∉ before) (hobjects : fs.objects w = insert file before)
    (hentry : fs.entry (insert file before) path = some file)
    (h : NetnsCleanup.run env (.removeFile path) w = (.ok (), w')) : fs.objects w' = before := by
  obtain ⟨rfl, hok | ⟨error, herror, hkind⟩⟩ := removing_eq_ok h
  · obtain ⟨file', hfile', hremoved⟩ := fs.removeFile_ok hok
    rw [hobjects, hentry] at hfile'
    obtain rfl := Option.some.inj hfile'
    rw [hremoved, hobjects]
    exact Set.insert_sdiff_self_of_notMem hfresh
  · have hnone := fs.removeFile_error herror hkind
    rw [hobjects, hentry] at hnone
    cases hnone

/-- **Removing the directory** restores what was there exactly if what was made is what its path
names. -/
theorem removeDir_call_restores_iff {path : String} {w : W} {before : Set Obj}
    (hsub : before ⊆ fs.objects w) (hok : (env.call (.removeDir path) w).1 = .ok ()) :
    fs.objects (env.call (.removeDir path) w).2 = before ↔
      fs.objects w \ before = {dir | fs.entry (fs.objects w) path = some dir} := by
  obtain ⟨dir, hmem, -, hentry, hremoved⟩ := fs.removeDir_ok hok
  rw [hremoved, hentry, sdiff_singleton_eq_iff hsub hmem]
  simp [Set.ext_iff, eq_comm]

theorem removeDir_restores_iff {path : String} {w w' : W} {before : Set Obj}
    (hsub : before ⊆ fs.objects w)
    (h : NetnsCleanup.run env (.removeDir path) w = (.ok (), w')) :
    fs.objects w' = before ↔
      fs.objects w \ before = {dir | fs.entry (fs.objects w) path = some dir} := by
  obtain ⟨rfl, hok | ⟨error, herror, hkind⟩⟩ := removing_eq_ok h
  · exact removeDir_call_restores_iff fs hsub hok
  · have hnone : {dir | fs.entry (fs.objects w) path = some dir} = ∅ := by
      simp [fs.removeDir_error herror hkind]
    rw [fs.error_objects herror, hnone, Set.sdiff_eq_empty]
    exact ⟨fun heq => heq.le, fun hle => hle.antisymm hsub⟩

/-! ### The exits of the call -/

section Exits

variable {path parentDir : String} {dirCleanups : List NetnsCleanup} {w w₁ w₂ w₃ w₄ : W}
  {error : Error}

theorem Starts.objects_eq (h : Starts env path w parentDir w₁) : fs.objects w₁ = fs.objects w :=
  fs.objects_of_answer h.1

/-- The run of the call, once it has started. -/
theorem Starts.initializeNetns_eq (h : Starts env path w parentDir w₁) :
    initializeNetns env path w = (do
      let dirCleanups ← makeParent env parentDir
      NetnsOp.call env (.createNew path)
      match ← runThread env path with
      | .error error => do
        rollback env (dirCleanups ++ [NetnsCleanup.removeFile path]).reverse
        Prog.fail error
      | .ok _ =>
        pure (dirCleanups ++ [NetnsCleanup.removeFile path] ++
          [NetnsCleanup.unmount path])) w₁ := by
  unfold initializeNetns
  rw [NetnsOp.ask_bind, h.1, h.2]
  rfl

theorem call_eq_ok {call : NetnsCall} {w w' : W} (h : env.call call w = (.ok (), w')) :
    NetnsOp.call env call w = (.ok (), w') := by
  unfold NetnsOp.call
  rw [NetnsOp.tryCall_bind, h]
  rfl

theorem call_eq_err {call : NetnsCall} {w w' : W} {error : IoError}
    (h : env.call call w = (.error error, w')) :
    NetnsOp.call env call w = (.err (.io error), w') := by
  unfold NetnsOp.call
  rw [NetnsOp.tryCall_bind, h]
  rfl

/-- What was there is still there after the directory was made. -/
theorem Starts.subset (h : Starts env path w parentDir w₁) :
    fs.objects w ⊆ fs.objects (makeParent env parentDir w₁).2 := by
  have hgrows := (makeParent_cases fs parentDir w₁).1
  rw [h.objects_eq fs] at hgrows
  exact hgrows

/-- Once the call has started, what was there is as before exactly if no directory was made. -/
theorem Starts.objects_eq_iff (h : Starts env path w parentDir w₁)
    {result : Outcome Error (List NetnsCleanup)}
    (hmake : makeParent env parentDir w₁ = (result, w₂)) :
    fs.objects w₂ = fs.objects w ↔ parentDirsMade env parentDir w₁ = [] := by
  have hsub := h.subset fs
  have hiff := makeParent_subset_iff fs parentDir w₁
  rw [hmake] at hsub hiff
  rw [h.objects_eq fs] at hiff
  rw [← hiff]
  exact ⟨fun heq => heq.le, fun hle => hle.antisymm hsub⟩

/-- Making the directory fails. -/
theorem restores_iff_of_dirs (hstart : Starts env path w parentDir w₁)
    (hmake : makeParent env parentDir w₁ = (.err error, w₂)) :
    Restores fs path w ↔ parentDirsMade env parentDir w₁ = [] := by
  rw [← hstart.objects_eq_iff fs hmake]
  unfold Restores
  rw [hstart.initializeNetns_eq, Prog.bind_of_err hmake]

/-- Creating the file fails. -/
theorem restores_iff_of_file {ioError : IoError} (hstart : Starts env path w parentDir w₁)
    (hmake : makeParent env parentDir w₁ = (.ok dirCleanups, w₂))
    (hcreate : env.call (.createNew path) w₂ = (.error ioError, w₃)) :
    Restores fs path w ↔ parentDirsMade env parentDir w₁ = [] := by
  rw [← hstart.objects_eq_iff fs hmake, ← fs.objects_of_error hcreate]
  unfold Restores
  rw [hstart.initializeNetns_eq, Prog.bind_of_ok hmake, Prog.bind_of_err (call_eq_err hcreate)]

/-- What was there before the file was created, and what the file added. -/
theorem Creates.objects (h : Creates env path w parentDir w₁ dirCleanups w₂ w₃) :
    fs.objects w ⊆ fs.objects w₂ ∧
      ((dirCleanups = [] ∧ fs.objects w₂ = fs.objects w) ∨
        dirCleanups = [.removeDir parentDir]) ∧
      ∃ file ∉ fs.objects w₂, ¬fs.isDir file ∧ fs.objects w₃ = insert file (fs.objects w₂) ∧
        fs.entry (insert file (fs.objects w₂)) path = some file := by
  obtain ⟨hstart, hmake, hcreate⟩ := h
  have hsub := hstart.subset fs
  have hcases := (makeParent_cases fs parentDir w₁).2 dirCleanups w₂ hmake
  rw [hstart.objects_eq fs] at hcases
  rw [hmake] at hsub
  have hfile := fs.createNew_ok (congrArg Prod.fst hcreate)
  rw [hcreate] at hfile
  exact ⟨hsub, hcases, hfile⟩

/-- **The body of the thread** adds the mount, or fails and changes nothing. -/
theorem mountNetns_cases (path : String) (w : W) :
    ∃ w', (mountNetns env path w = (.ok (), w') ∧
        ∃ mount ∉ fs.objects w, fs.objects w' = insert mount (fs.objects w) ∧
          fs.mountOn (insert mount (fs.objects w)) path = some mount) ∨
      ∃ error, mountNetns env path w = (.err error, w') ∧ fs.objects w' = fs.objects w := by
  unfold mountNetns
  cases pathToCstring env.unprintable path with
  | error error => exact ⟨w, .inr ⟨error, rfl, rfl⟩⟩
  | ok _ =>
    rw [Prog.bind_of_ok (Prog.ofExcept_ok _ w)]
    have hunshare := fs.unshare_objects w
    rcases hcall : env.call .unshare w with ⟨error | _, w₁⟩
    · rw [hcall] at hunshare
      rw [Prog.bind_of_err (call_eq_err hcall)]
      exact ⟨w₁, .inr ⟨_, rfl, hunshare⟩⟩
    · rw [hcall] at hunshare
      rw [Prog.bind_of_ok (call_eq_ok hcall)]
      rcases hmount : env.call (.bindMount path) w₁ with ⟨error | _, w₂⟩
      · rw [call_eq_err hmount]
        exact ⟨w₂, .inr ⟨_, rfl, (fs.objects_of_error hmount).trans hunshare⟩⟩
      · have hadded := fs.bindMount_ok (congrArg Prod.fst hmount)
        rw [hmount, hunshare] at hadded
        rw [call_eq_ok hmount]
        exact ⟨w₂, .inl ⟨rfl, hadded⟩⟩

/-- **The thread**: it does not start, is not joined, or ends as its body does. -/
theorem runThread_cases (path : String) (w : W) :
    ∃ w', runThread env path w = (.dropped, w') ∨
      (∃ error, runThread env path w = (.err error, w') ∧ fs.objects w ⊆ fs.objects w') ∨
      (runThread env path w = (.ok (.ok ()), w') ∧
        ∃ mount ∉ fs.objects w, fs.objects w' = insert mount (fs.objects w) ∧
          fs.mountOn (insert mount (fs.objects w)) path = some mount) ∨
      ∃ error, runThread env path w = (.ok (.error error), w') ∧ fs.objects w' = fs.objects w := by
  unfold runThread
  rw [NetnsOp.ask_bind]
  rcases hstart : env.answer .threadStarts w with ⟨_ | _, w₁⟩
  · exact ⟨w₁, .inl rfl⟩
  · rw [← fs.objects_of_answer hstart, if_pos rfl]
    obtain ⟨w₂, ⟨hbody, mount, hfresh, hadded, hmount⟩ | ⟨error, hbody, hsame⟩⟩ :=
      mountNetns_cases fs path w₁
    · rw [Prog.bind_of_ok (Prog.attempt_of_ok hbody), NetnsOp.ask_bind]
      rcases hjoin : env.answer .threadJoins w₂ with ⟨_ | _, w₃⟩ <;>
        have hjoins := (fs.objects_of_answer hjoin).trans hadded
      · exact ⟨w₃, .inr (.inl ⟨_, rfl, hjoins ▸ Set.subset_insert mount _⟩)⟩
      · exact ⟨w₃, .inr (.inr (.inl ⟨rfl, mount, hfresh, hjoins, hmount⟩))⟩
    · rw [Prog.bind_of_ok (Prog.attempt_of_err hbody), NetnsOp.ask_bind]
      rcases hjoin : env.answer .threadJoins w₂ with ⟨_ | _, w₃⟩ <;>
        have hjoins := (fs.objects_of_answer hjoin).trans hsame
      · exact ⟨w₃, .inr (.inl ⟨_, rfl, hjoins.ge⟩)⟩
      · exact ⟨w₃, .inr (.inr (.inr ⟨error, rfl, hjoins⟩))⟩

/-- The run of the call, once the file was created. -/
theorem Creates.initializeNetns_eq (h : Creates env path w parentDir w₁ dirCleanups w₂ w₃) :
    initializeNetns env path w = (do
      match ← runThread env path with
      | .error error => do
        rollback env (dirCleanups ++ [NetnsCleanup.removeFile path]).reverse
        Prog.fail error
      | .ok _ =>
        pure (dirCleanups ++ [NetnsCleanup.removeFile path] ++
          [NetnsCleanup.unmount path])) w₃ := by
  obtain ⟨hstart, hmake, hcreate⟩ := h
  rw [hstart.initializeNetns_eq, Prog.bind_of_ok hmake, Prog.bind_of_ok (call_eq_ok hcreate)]

/-- The thread cannot be joined: the file stays. -/
theorem not_restores_of_join (h : Creates env path w parentDir w₁ dirCleanups w₂ w₃)
    (hthread : runThread env path w₃ = (.err error, w₄))
    (hsub : fs.objects w₃ ⊆ fs.objects w₄) : ¬Restores fs path w := by
  obtain ⟨hgrows, -, file, hfresh, -, hcreated, -⟩ := h.objects fs
  unfold Restores
  rw [h.initializeNetns_eq, Prog.bind_of_err hthread]
  intro heq
  have hfile : file ∈ fs.objects w₄ := hsub (hcreated ▸ Set.mem_insert file _)
  exact hfresh (hgrows (heq ▸ hfile))

/-- The namespace is made. -/
theorem restores_iff_of_mounted (h : Creates env path w parentDir w₁ dirCleanups w₂ w₃)
    (hthread : runThread env path w₃ = (.ok (.ok ()), w₄))
    (hmount : ∃ mount ∉ fs.objects w₃, fs.objects w₄ = insert mount (fs.objects w₃) ∧
      fs.mountOn (insert mount (fs.objects w₃)) path = some mount) :
    Restores fs path w ↔
      ∀ w', runAll env (.unmount path :: .removeFile path :: dirCleanups.reverse) w₄ =
          (.ok (), w') →
        MadeIsNamed fs parentDir dirCleanups (fs.objects w) (fs.objects w₂) := by
  obtain ⟨hgrows, hcleanups, file, hfresh, -, hcreated, hentry⟩ := h.objects fs
  obtain ⟨mount, hmountFresh, hmounted, hmountOn⟩ := hmount
  have hreverse : (dirCleanups ++ [NetnsCleanup.removeFile path] ++
      [NetnsCleanup.unmount path]).reverse =
      .unmount path :: .removeFile path :: dirCleanups.reverse := by simp
  unfold Restores
  rw [h.initializeNetns_eq, Prog.bind_of_ok hthread]
  dsimp only [Prog.pure_apply]
  rw [hreverse]
  refine forall_congr' fun w' => forall_congr' fun hrun => ?_
  -- the first two closures take the mount and the file back
  obtain ⟨_, w₅, hunmount, hrun⟩ := Prog.bind_eq_ok.mp hrun
  obtain ⟨_, w₆, hremove, hrun⟩ := Prog.bind_eq_ok.mp hrun
  have hw₅ := unmount_restores fs hmountFresh hmounted hmountOn hunmount
  have hw₆ := removeFile_restores fs hfresh (hw₅.trans hcreated) hentry hremove
  unfold MadeIsNamed
  rcases hcleanups with ⟨rfl, hsame⟩ | rfl
  · cases hrun
    rw [hw₆, hsame]
    simp
  · obtain ⟨_, w₇, hdir, hrun⟩ := Prog.bind_eq_ok.mp hrun
    cases hrun
    rw [removeDir_restores_iff fs (hw₆ ▸ hgrows) hdir, hw₆]
    simp

/-- The rollback removes the file that was created, if its call succeeds. -/
theorem Creates.removeFile_call (h : Creates env path w parentDir w₁ dirCleanups w₂ w₃)
    (hsame : fs.objects w₄ = fs.objects w₃) :
    ((env.call (.removeFile path) w₄).1 = .ok () ∧
        fs.objects (env.call (.removeFile path) w₄).2 = fs.objects w₂) ∨
      ((env.call (.removeFile path) w₄).1 ≠ .ok () ∧
        ∃ file ∉ fs.objects w, ¬fs.isDir file ∧
          file ∈ fs.objects (env.call (.removeFile path) w₄).2) := by
  obtain ⟨hgrows, -, file, hfresh, hnotDir, hcreated, hentry⟩ := h.objects fs
  rw [hcreated] at hsame
  cases hcall : (env.call (.removeFile path) w₄).1 with
  | ok _ =>
    obtain ⟨file', hfile', hremoved⟩ := fs.removeFile_ok hcall
    rw [hsame, hentry] at hfile'
    obtain rfl := Option.some.inj hfile'
    rw [hsame] at hremoved
    exact .inl ⟨rfl, hremoved.trans (Set.insert_sdiff_self_of_notMem hfresh)⟩
  | error ioError =>
    refine .inr ⟨by simp, file, fun hmem => hfresh (hgrows hmem), hnotDir, ?_⟩
    rw [fs.error_objects hcall, hsame]
    exact Set.mem_insert file _

/-- The mount fails: what the rollback leaves. -/
theorem restores_iff_of_rolledBack (h : Creates env path w parentDir w₁ dirCleanups w₂ w₃)
    (hthread : runThread env path w₃ = (.ok (.error error), w₄)) {w' : W}
    (hrollback : rollback env (.removeFile path :: dirCleanups.reverse) w₄ = (.ok (), w')) :
    Restores fs path w ↔ fs.objects w' = fs.objects w := by
  have hreverse : (dirCleanups ++ [NetnsCleanup.removeFile path]).reverse =
      .removeFile path :: dirCleanups.reverse := by simp
  unfold Restores
  rw [h.initializeNetns_eq, Prog.bind_of_ok hthread]
  dsimp only
  rw [hreverse, Prog.bind_of_ok hrollback]
  rfl

/-- The mount fails. -/
theorem restores_iff_of_rollback (h : Creates env path w parentDir w₁ dirCleanups w₂ w₃)
    (hthread : runThread env path w₃ = (.ok (.error error), w₄))
    (hsame : fs.objects w₄ = fs.objects w₃) :
    Restores fs path w ↔
      (env.call (.removeFile path) w₄).1 = .ok () ∧
        (dirCleanups = [] ∨
          ((env.call (.removeDir parentDir) (env.call (.removeFile path) w₄).2).1 = .ok () ∧
            MadeIsNamed fs parentDir dirCleanups (fs.objects w) (fs.objects w₂)) ∨
          ((env.call (.removeDir parentDir) (env.call (.removeFile path) w₄).2).1 ≠ .ok () ∧
            parentDirsMade env parentDir w₁ = [])) := by
  obtain ⟨hgrows, hcleanups, -⟩ := h.objects fs
  have hfile := h.removeFile_call fs hsame
  have hfirst := @rollback_cons W env (.removeFile path) (.removeFile path) rfl
  rcases hcleanups with ⟨rfl, hnothing⟩ | rfl
  · rw [restores_iff_of_rolledBack fs h hthread (hfirst [] w₄)]
    rcases hfile with ⟨hok, hobjects⟩ | ⟨hne, file, hfresh, -, hmem⟩
    · simp [hok, hobjects, hnothing]
    · exact iff_of_false (fun heq => hfresh (heq ▸ hmem)) fun hright => hne hright.1
  · have hrollback := (hfirst [.removeDir parentDir] w₄).trans
      (@rollback_cons W env (.removeDir parentDir) (.removeDir parentDir) rfl []
        (env.call (.removeFile path) w₄).2)
    rw [restores_iff_of_rolledBack fs h hthread hrollback]
    generalize (env.call (.removeFile path) w₄).2 = w₅ at hfile ⊢
    rcases hfile with ⟨hok, hobjects⟩ | ⟨hne, file, hfresh, hnotDir, hmem⟩
    · rw [← h.starts.objects_eq_iff fs h.makes, ← hobjects]
      cases hdir : (env.call (.removeDir parentDir) w₅).1 with
      | ok _ =>
        rw [removeDir_call_restores_iff fs (hobjects ▸ hgrows) hdir]
        simp [hok, MadeIsNamed]
      | error ioError =>
        rw [fs.error_objects hdir]
        simp [hok]
    · -- the file stays, also if the directory could be removed
      refine iff_of_false (fun heq => hfresh (heq ▸ ?_)) fun hright => hne hright.1
      cases hdir : (env.call (.removeDir parentDir) w₅).1 with
      | ok _ =>
        obtain ⟨dir, -, hisDir, -, hremoved⟩ := fs.removeDir_ok hdir
        rw [hremoved]
        exact ⟨hmem, fun heq => hnotDir (heq ▸ hisDir)⟩
      | error ioError =>
        rw [fs.error_objects hdir]
        exact hmem

end Exits

/-- The thread cannot be joined: nothing is taken back. -/
theorem runThread_err {path : String} {w w' : W} {error : Error}
    (h : runThread env path w = (.err error, w')) : fs.objects w ⊆ fs.objects w' := by
  obtain ⟨w₁, hrun | ⟨error', hrun, hsub⟩ | ⟨hrun, -⟩ | ⟨error', hrun, -⟩⟩ :=
    runThread_cases fs path w <;> rw [h] at hrun <;> cases hrun
  exact hsub

theorem runThread_mounted {path : String} {w w' : W}
    (h : runThread env path w = (.ok (.ok ()), w')) :
    ∃ mount ∉ fs.objects w, fs.objects w' = insert mount (fs.objects w) ∧
      fs.mountOn (insert mount (fs.objects w)) path = some mount := by
  obtain ⟨w₁, hrun | ⟨error', hrun, -⟩ | ⟨hrun, hmount⟩ | ⟨error', hrun, -⟩⟩ :=
    runThread_cases fs path w <;> rw [h] at hrun <;> cases hrun
  exact hmount

theorem runThread_failed {path : String} {w w' : W} {error : Error}
    (h : runThread env path w = (.ok (.error error), w')) : fs.objects w' = fs.objects w := by
  obtain ⟨w₁, hrun | ⟨error', hrun, -⟩ | ⟨hrun, -⟩ | ⟨error', hrun, hsame⟩⟩ :=
    runThread_cases fs path w <;> rw [h] at hrun <;> cases hrun
  exact hsame

/-- **A namespace can be taken back exactly if nothing is left behind**: for every file system,
with any of the system calls failing. -/
theorem netns_restored_iff (path : String) (w : W) :
    Restores fs path w ↔ LeavesNothing fs path w := by
  constructor
  · intro h
    exact
      { dirs := fun hstart hmake => (restores_iff_of_dirs fs hstart hmake).mp h
        file := fun hstart hmake hcreate => (restores_iff_of_file fs hstart hmake hcreate).mp h
        joined := fun hcreates error w₄ hthread =>
          not_restores_of_join fs hcreates hthread (runThread_err fs hthread) h
        mounted := fun hcreates hthread hrun =>
          (restores_iff_of_mounted fs hcreates hthread (runThread_mounted fs hthread)).mp h _ hrun
        rolledBack := fun hcreates hthread =>
          (restores_iff_of_rollback fs hcreates hthread (runThread_failed fs hthread)).mp h }
  · intro h
    -- the exits of the setup, in the order in which it comes to them
    rcases hexists : env.answer (.pathExists path) w with ⟨_ | _, w₁⟩ <;>
      have hsame := fs.objects_of_answer hexists
    · cases hparent : pathParent path with
      | none =>
        unfold Restores initializeNetns
        rw [NetnsOp.ask_bind, hexists, hparent]
        exact hsame
      | some parentDir =>
        have hstart : Starts env path w parentDir w₁ := ⟨hexists, hparent⟩
        rcases hmake : makeParent env parentDir w₁ with ⟨dirCleanups | error | _, w₂⟩
        · rcases hcreate : env.call (.createNew path) w₂ with ⟨error | _, w₃⟩
          · exact (restores_iff_of_file fs hstart hmake hcreate).mpr (h.file hstart hmake hcreate)
          · have hcreates : Creates env path w parentDir w₁ dirCleanups w₂ w₃ :=
              ⟨hstart, hmake, hcreate⟩
            obtain ⟨w₄, hthread | ⟨error, hthread, -⟩ | ⟨hthread, hmount⟩ |
              ⟨error, hthread, hkept⟩⟩ := runThread_cases fs path w₃
            · unfold Restores
              rw [hcreates.initializeNetns_eq, Prog.bind_of_dropped hthread]
              trivial
            · exact absurd hthread (h.joined hcreates error w₄)
            · exact (restores_iff_of_mounted fs hcreates hthread hmount).mpr fun _ hrun =>
                h.mounted hcreates hthread hrun
            · exact (restores_iff_of_rollback fs hcreates hthread hkept).mpr
                (h.rolledBack hcreates hthread)
        · exact (restores_iff_of_dirs fs hstart hmake).mpr (h.dirs hstart hmake)
        · unfold Restores
          rw [hstart.initializeNetns_eq, Prog.bind_of_dropped hmake]
          trivial
    · -- the path is there: nothing is done, and there is nothing to take back
      unfold Restores initializeNetns
      rw [NetnsOp.ask_bind, hexists]
      intro w'' hrun
      cases hrun
      exact hsame

/-- What it takes for a namespace that is made to be taken back, where the closures succeed. -/
theorem restores_iff_of_runs {path : String} {w w' w'' : W} {cleanups : List NetnsCleanup}
    (hrun : initializeNetns env path w = (.ok cleanups, w'))
    (hcleanups : runAll env cleanups.reverse w' = (.ok (), w'')) :
    Restores fs path w ↔ fs.objects w'' = fs.objects w := by
  unfold Restores
  rw [hrun]
  constructor
  · intro h
    exact h w'' hcleanups
  · intro heq w₁ hw₁
    rw [hcleanups] at hw₁
    obtain rfl := (Prod.mk.inj hw₁).2
    exact heq

/-- In the tree, the closures for `/var/run/netns/vm` remove the mount, the file and one
directory. -/
theorem runAll_vm :
    runAll Tree.env
      [NetnsCleanup.removeDir "/var/run/netns", .removeFile "/var/run/netns/vm",
        .unmount "/var/run/netns/vm"].reverse
      [.mount ["var".toList, "run".toList, "netns".toList, "vm".toList],
        .file ["var".toList, "run".toList, "netns".toList, "vm".toList],
        .dir ["var".toList, "run".toList, "netns".toList], .dir ["var".toList, "run".toList],
        .dir ["var".toList]] =
      (.ok (), [.dir ["var".toList, "run".toList], .dir ["var".toList]]) := by
  decide +kernel

/-- With `/var/run` there, one directory is made for `/var/run/netns/vm`, and it is removed. -/
theorem netns_restored_run :
    Restores Tree.fileSystem "/var/run/netns/vm"
        [.dir ["var".toList, "run".toList], .dir ["var".toList]] ∧
      LeavesNothing Tree.fileSystem "/var/run/netns/vm"
        [.dir ["var".toList, "run".toList], .dir ["var".toList]] := by
  have hrun : initializeNetns Tree.env "/var/run/netns/vm"
      [.dir ["var".toList, "run".toList], .dir ["var".toList]] =
      (.ok [.removeDir "/var/run/netns", .removeFile "/var/run/netns/vm",
          .unmount "/var/run/netns/vm"],
        [.mount ["var".toList, "run".toList, "netns".toList, "vm".toList],
          .file ["var".toList, "run".toList, "netns".toList, "vm".toList],
          .dir ["var".toList, "run".toList, "netns".toList], .dir ["var".toList, "run".toList],
          .dir ["var".toList]]) := by
    decide +kernel
  rw [← netns_restored_iff, restores_iff_of_runs Tree.fileSystem hrun runAll_vm]
  exact ⟨rfl, rfl⟩

/-- With one directory there, two are made for `/var/run/netns/vm` and one of them is removed:
the namespace is made, all closures succeed, and `/var/run` stays. -/
theorem run_dir_stays : ¬Restores Tree.fileSystem "/var/run/netns/vm" [.dir ["var".toList]] := by
  have hrun : initializeNetns Tree.env "/var/run/netns/vm" [.dir ["var".toList]] =
      (.ok [.removeDir "/var/run/netns", .removeFile "/var/run/netns/vm",
          .unmount "/var/run/netns/vm"],
        [.mount ["var".toList, "run".toList, "netns".toList, "vm".toList],
          .file ["var".toList, "run".toList, "netns".toList, "vm".toList],
          .dir ["var".toList, "run".toList, "netns".toList], .dir ["var".toList, "run".toList],
          .dir ["var".toList]]) := by
    decide +kernel
  rw [restores_iff_of_runs Tree.fileSystem hrun runAll_vm]
  intro heq
  have hmem : Node.dir ["var".toList, "run".toList] ∈ Tree.objects [.dir ["var".toList]] :=
    heq.subset (List.mem_cons_self ..)
  exact absurd hmem (by simp [Tree.objects])

end RealCni

end FirecrackerSdk
