import FirecrackerSdk.Machine.Configure
import FirecrackerSdk.Lib.Lexical

/-!
# The socket of a jailed machine

With a jailer the socket has two names: the one that Firecracker gets as an argument and resolves
inside its root directory, and the one under which the client finds it from outside. `jail` makes
the second from the first by taking the slashes off its beginning and joining it to the root
directory.

Both are read as places (`FirecrackerSdk.Lib.Lexical`): `FirecrackerSdk.chrootDir` is the root
directory of the jail, and `FirecrackerSdk.SocketInJail` says that the client's name denotes what
Firecracker creates, and lies below the root directory.
`FirecrackerSdk.socket_in_jail_iff` says when this is so: if the executable has a file name, the
socket's path has no more steps to a parent than names before them, and the id is not absolute, or
climbs back over everything that it made `Path::join` forget.
-/

namespace FirecrackerSdk

open Lexical

/-! ### Joining paths -/

/-- Joining two paths is putting their steps together, unless the second is absolute. -/
theorem steps_pathJoin {base path : String} (h : isAbsolute path.toList = false) :
    steps (pathJoin base path).toList = steps base.toList ++ steps path.toList := by
  have hrelative : ¬ path.toList.head? = some '/' := by simpa [isAbsolute] using h
  rw [pathJoin, if_neg hrelative]
  split
  · rename_i hbase
    rcases Bool.or_eq_true_iff.mp hbase with hempty | hslash
    · rw [decide_eq_true_iff] at hempty
      rw [hempty, String.toList_append]
      rfl
    · -- the base ends with the slash that separates the two
      rw [decide_eq_true_iff] at hslash
      obtain ⟨first, hfirst⟩ := List.getLast?_eq_some_iff.mp hslash
      rw [String.toList_append, hfirst, List.append_assoc, List.singleton_append,
        steps_append_slash, steps_append_slash]
      simp [steps, Text.splitBy, stepOf]
  · rw [String.toList_append, String.toList_append, List.append_assoc]
    exact steps_append_slash _ _

theorem isAbsolute_pathJoin {base path : String} (h : isAbsolute path.toList = false) :
    isAbsolute (pathJoin base path).toList = isAbsolute base.toList := by
  have hrelative : ¬ path.toList.head? = some '/' := by simpa [isAbsolute] using h
  rw [pathJoin, if_neg hrelative]
  cases hbase : base.toList with
  | nil =>
    have hempty : base = "" := String.toList_eq_nil_iff.mp hbase
    rw [hempty, if_pos (by simp), String.toList_append]
    exact h
  | cons c cs =>
    split
    · rw [String.toList_append, hbase]
      rfl
    · rw [String.toList_append, String.toList_append, hbase]
      rfl

/-- **Where a joined path leads.** -/
theorem place_pathJoin (base path : String) :
    place (pathJoin base path).toList =
      if isAbsolute path.toList then place path.toList
      else resolve (place base.toList) (steps path.toList) := by
  split
  · rename_i habsolute
    have hhead : path.toList.head? = some '/' := by simpa [isAbsolute] using habsolute
    rw [pathJoin, if_pos hhead]
  · rename_i hrelative
    rw [Bool.not_eq_true] at hrelative
    rw [place, steps_pathJoin hrelative, isAbsolute_pathJoin hrelative, resolve_append]
    rfl

/-- A file name is one step. -/
theorem steps_fileName {path name : String} (h : fileName path = some name) :
    isAbsolute name.toList = false ∧ steps name.toList = [.name name.toList] := by
  unfold fileName at h
  dsimp only at h
  split at h
  · rename_i piece hlast
    split at h
    · cases h
    · rename_i hparent
      obtain rfl := Option.some.inj h
      have hmem := List.mem_filter.mp (List.mem_of_getLast? hlast)
      have hslash := Text.not_of_mem_splitBy hmem.1
      have hpiece : piece ≠ [] ∧ piece ≠ ['.'] := by simpa using hmem.2
      rw [String.toList_ofList]
      constructor
      · cases piece with
        | nil => rfl
        | cons c cs => simpa [isAbsolute] using hslash c List.mem_cons_self
      · rw [steps, Text.splitBy_eq_singleton hslash]
        simp [stepOf, hpiece.1, hpiece.2, hparent]
  · cases h

/-! ### The jail -/

/-- The directory that jails are in. -/
def chrootBase (jailerCfg : JailerConfig) : String :=
  jailerCfg.chrootBaseDir.getD defaultJailerPath

/-- The directory of the jails of an executable. -/
def execDir (jailerCfg : JailerConfig) (name : String) : Place (List Char) :=
  (place (chrootBase jailerCfg).toList).below [name.toList]

/-- The steps from there to the root directory of a jail. -/
def jailSteps (jailerCfg : JailerConfig) : List (Lexical.Step (List Char)) :=
  steps jailerCfg.id.toList ++ [.name rootfsFolderName.toList]

/-- **The root directory of a jail**: below the base directory, the file name of the executable,
the id and `root`. There is none if the executable has no file name. -/
def chrootDir (jailerCfg : JailerConfig) : Option (Place (List Char)) :=
  (fileName jailerCfg.execFile).map fun name =>
    resolve (execDir jailerCfg name) (jailSteps jailerCfg)

/-- **The client connects to what Firecracker creates**: the path of the socket denotes what the
argument of `--api-sock` denotes inside the root directory of the jail, and lies below that
directory. -/
def SocketInJail (m : Machine) : Prop :=
  ∃ jailerCfg command argument dir, m.cfg.jailerCfg = some jailerCfg ∧ m.command = some command ∧
    ["--api-sock", argument] <:+ command.args ∧ chrootDir jailerCfg = some dir ∧
    place m.cfg.socketPath.toList = dir.below (inside (steps argument.toList)) ∧
    ∃ names, names ≠ [] ∧ place m.cfg.socketPath.toList = dir.below names

/-- **A jail whose socket stays in it.** -/
structure Confined (jailerCfg : JailerConfig) (socketPath : String) : Prop where
  named : (fileName jailerCfg.execFile).isSome = true
  id : isAbsolute jailerCfg.id.toList = false ∨
    isAbsolute (chrootBase jailerCfg).toList = true ∧
      (place (chrootBase jailerCfg).toList).names.length + 1 ≤ climb (steps jailerCfg.id.toList)
  low : climb (steps socketPath.toList) = 0
  notRoot : inside (steps socketPath.toList) ≠ []

/-- The path of the socket in the jail. -/
def jailedSocketPath (cfg : Config) : String :=
  if cfg.socketPath = "" then defaultSocketPath else cfg.socketPath

/-- What jailing does to the configuration and the command. -/
theorem jail_eq_ok {machine m : Machine} {cpuset : String} {jailerCfg : JailerConfig}
    (hjailer : machine.cfg.jailerCfg = some jailerCfg) (h : jail machine cpuset = .ok m) :
    m.cfg = { machine.cfg with
      socketPath := joinChrootPath (jailerRootfs jailerCfg) (jailedSocketPath machine.cfg) } ∧
    m.command = some (jailerCommand jailerCfg machine.cfg.netNs
      (seccompArgs machine.cfg.seccomp.enabled machine.cfg.seccomp.filter ++
        ["--api-sock", jailedSocketPath machine.cfg]) cpuset) := by
  unfold jail at h
  rw [hjailer] at h
  dsimp only at h
  cases hstrategy : jailerCfg.chrootStrategy with
  | none =>
    rw [hstrategy] at h
    obtain rfl := Except.ok.inj h
    exact ⟨rfl, rfl⟩
  | some strategy =>
    rw [hstrategy] at h
    dsimp only at h
    split at h
    · cases h
    · obtain rfl := Except.ok.inj h
      exact ⟨rfl, rfl⟩

/-- The command of a jailed machine ends with the arguments for Firecracker. -/
theorem suffix_jailerCommand (jailerCfg : JailerConfig) (netns : Option String) (cpuset : String)
    (firecrackerArgs : List String) (last : List String) (hlast : last ≠ []) :
    last <:+ (jailerCommand jailerCfg netns (firecrackerArgs ++ last) cpuset).args := by
  have hne : firecrackerArgs ++ last ≠ [] := List.append_ne_nil_of_right_ne_nil _ hlast
  unfold jailerCommand
  dsimp only
  rw [if_neg hne]
  exact (List.suffix_append ("--" :: firecrackerArgs) _).trans (List.suffix_append _ _)

/-- What `Machine::new` makes of a configuration with a jailer. -/
theorem newWithClient_jailed {cfg : Config} {uuid cpuset : String} {m : Machine}
    {jailerCfg : JailerConfig} (hjailer : cfg.jailerCfg = some jailerCfg)
    (h : newWithClient cfg uuid cpuset = .ok m) :
    m.cfg.jailerCfg = some jailerCfg ∧
      m.cfg.socketPath = joinChrootPath (jailerRootfs jailerCfg) (jailedSocketPath cfg) ∧
      ∃ command, m.command = some command ∧
        ["--api-sock", jailedSocketPath cfg] <:+ command.args := by
  have hcomplete : (completeConfig cfg uuid).jailerCfg = some jailerCfg := hjailer
  unfold newWithClient at h
  dsimp only at h
  rw [hcomplete, Option.isSome_some, if_pos rfl] at h
  obtain ⟨hcfg, hcommand⟩ := jail_eq_ok hcomplete h
  have hsame : jailedSocketPath (completeConfig cfg uuid) = jailedSocketPath cfg := rfl
  rw [hsame] at hcfg hcommand
  refine ⟨?_, ?_, _, hcommand, ?_⟩
  · rw [hcfg]
    exact hjailer
  · rw [hcfg]
  · exact suffix_jailerCommand _ _ _ _ _ (List.cons_ne_nil _ _)

/-- Where the socket of a jailed machine is, if the executable has a file name. -/
theorem place_joinChrootPath {jailerCfg : JailerConfig} {name : String}
    (hname : fileName jailerCfg.execFile = some name) (socketPath : String) :
    place (joinChrootPath (jailerRootfs jailerCfg) socketPath).toList =
      resolve (resolve (if isAbsolute jailerCfg.id.toList then .root else execDir jailerCfg name)
        (jailSteps jailerCfg)) (steps socketPath.toList) := by
  have hroot : isAbsolute rootfsFolderName.toList = false ∧
      steps rootfsFolderName.toList = [.name rootfsFolderName.toList] := by decide
  obtain ⟨hrelative, hsteps⟩ := steps_fileName hname
  rw [joinChrootPath, place_pathJoin, String.toList_ofList, isAbsolute_dropWhile_slash,
    steps_dropWhile_slash, if_neg Bool.false_ne_true, jailerRootfs, hname, Option.getD_some,
    place_pathJoin, hroot.1, hroot.2, if_neg Bool.false_ne_true, place_pathJoin, place_pathJoin,
    hrelative, hsteps, if_neg Bool.false_ne_true, jailSteps, resolve_append]
  congr 1
  split
  · rename_i habsolute
    rw [place, if_pos habsolute]
  · rfl

theorem climb_jailSteps (jailerCfg : JailerConfig) :
    climb (jailSteps jailerCfg) = climb (steps jailerCfg.id.toList) := by
  rw [climb, jailSteps, resolve_append]
  rfl

theorem resolve_jailSteps_ne_nil (start : Place (List Char)) (jailerCfg : JailerConfig) :
    (resolve start (jailSteps jailerCfg)).names ≠ [] := by
  rw [jailSteps, resolve_append]
  exact List.append_ne_nil_of_right_ne_nil _ (List.cons_ne_nil _ _)

/-- Where the jails of an executable are. -/
theorem execDir_eq (jailerCfg : JailerConfig) (name : String) :
    (execDir jailerCfg name).absolute = isAbsolute (chrootBase jailerCfg).toList ∧
      (execDir jailerCfg name).names.length =
        (place (chrootBase jailerCfg).toList).names.length + 1 := by
  refine ⟨?_, ?_⟩
  · rw [execDir, Place.below, place, resolve_absolute]
    cases isAbsolute (chrootBase jailerCfg).toList <;> rfl
  · rw [execDir, Place.below, List.length_append]
    rfl

/-- **When the two names of the socket denote the same.** With an id that is not absolute, the
socket must not climb; with one that is, the id must have climbed to the root. -/
theorem place_eq_below_iff {jailerCfg : JailerConfig} {name : String}
    (hname : fileName jailerCfg.execFile = some name) (socketPath : String) :
    place (joinChrootPath (jailerRootfs jailerCfg) socketPath).toList =
        (resolve (execDir jailerCfg name) (jailSteps jailerCfg)).below
          (inside (steps socketPath.toList)) ↔
      (isAbsolute jailerCfg.id.toList = false ∨
        isAbsolute (chrootBase jailerCfg).toList = true ∧
          (place (chrootBase jailerCfg).toList).names.length + 1 ≤
            climb (steps jailerCfg.id.toList)) ∧
      climb (steps socketPath.toList) = 0 := by
  rw [place_joinChrootPath hname]
  cases habsolute : isAbsolute jailerCfg.id.toList with
  | false =>
    rw [if_neg Bool.false_ne_true, resolve_eq_below_iff (resolve_jailSteps_ne_nil _ _)]
    simp
  | true =>
    obtain ⟨hdir, hlength⟩ := execDir_eq jailerCfg name
    rw [if_pos rfl, resolve_root_eq_below_iff (resolve_jailSteps_ne_nil .root jailerCfg),
      climb_jailSteps, hdir, hlength]
    simp

/-- The last argument of a command is known. -/
theorem suffix_unique {flag argument argument' : String} {args : List String}
    (h : [flag, argument] <:+ args) (h' : [flag, argument'] <:+ args) : argument = argument' := by
  obtain ⟨before, rfl⟩ := h
  obtain ⟨before', heq⟩ := h'
  have hlast := congrArg List.getLast? heq
  simpa using hlast.symm

section Jailed

variable {cfg : Config} {uuid cpuset : String} {m : Machine} {jailerCfg : JailerConfig}

theorem confined_of_socketInJail (hjailer : cfg.jailerCfg = some jailerCfg)
    (hnew : newWithClient cfg uuid cpuset = .ok m) (h : SocketInJail m) :
    Confined jailerCfg (jailedSocketPath cfg) := by
  obtain ⟨hcfg, hsocket, command, hcommand, hargs⟩ := newWithClient_jailed hjailer hnew
  obtain ⟨jailerCfg', command', argument, dir, hcfg', hcommand', hargument, hdir, hsame, names,
    hnames, hbelow⟩ := h
  obtain rfl : jailerCfg = jailerCfg' := Option.some.inj (hcfg.symm.trans hcfg')
  obtain rfl : command = command' := Option.some.inj (hcommand.symm.trans hcommand')
  obtain rfl := suffix_unique hargs hargument
  obtain ⟨name, hname, rfl⟩ := Option.map_eq_some_iff.mp hdir
  have hplace := hsame
  rw [hsocket, place_eq_below_iff hname] at hplace
  refine ⟨by rw [hname]; rfl, hplace.1, hplace.2, fun hnil => ?_⟩
  -- it would be the root directory itself
  rw [hsame, hnil] at hbelow
  have hlength := congrArg (fun place => place.names.length) hbelow
  simp only [Place.below, List.length_append, List.length_nil] at hlength
  exact hnames (List.length_eq_zero_iff.mp (by omega))

theorem socketInJail_of_confined (hjailer : cfg.jailerCfg = some jailerCfg)
    (hnew : newWithClient cfg uuid cpuset = .ok m)
    (h : Confined jailerCfg (jailedSocketPath cfg)) : SocketInJail m := by
  obtain ⟨hcfg, hsocket, command, hcommand, hargs⟩ := newWithClient_jailed hjailer hnew
  obtain ⟨name, hname⟩ := Option.isSome_iff_exists.mp h.named
  have hsame := (place_eq_below_iff hname (jailedSocketPath cfg)).mpr ⟨h.id, h.low⟩
  rw [← hsocket] at hsame
  exact ⟨jailerCfg, command, _, _, hcfg, hcommand, hargs,
    Option.map_eq_some_iff.mpr ⟨name, hname, rfl⟩, hsame, _, h.notRoot, hsame⟩

/-- **The client's socket is Firecracker's exactly if the jail confines it.** -/
theorem socket_in_jail_iff (hjailer : cfg.jailerCfg = some jailerCfg)
    (hnew : newWithClient cfg uuid cpuset = .ok m) :
    SocketInJail m ↔ Confined jailerCfg (jailedSocketPath cfg) :=
  ⟨confined_of_socketInJail hjailer hnew, socketInJail_of_confined hjailer hnew⟩

end Jailed

/-- A configuration that the validation of the jailer accepts, with a path for the socket. -/
def jailedConfig (socketPath : String) : Config where
  socketPath := socketPath
  drives := [{ isRootDevice := some true }]
  jailerCfg := some
    { id := "vm"
      execFile := "/usr/bin/firecracker"
      uid := some 0
      gid := some 0
      numaNode := some 0
      chrootStrategy := some ⟨"/boot/vmlinux"⟩ }

/-- A socket in a subdirectory is found. -/
theorem socket_in_jail_below_run :
    ∃ m, newWithClient (jailedConfig "/run/../api.sock") "vm" "" = .ok m ∧ SocketInJail m := by
  obtain ⟨m, hm⟩ : ∃ m, newWithClient (jailedConfig "/run/../api.sock") "vm" "" = .ok m := ⟨_, rfl⟩
  refine ⟨m, hm, (socket_in_jail_iff rfl hm).mpr ⟨?_, ?_, ?_, ?_⟩⟩
  · decide +kernel
  · exact .inl (by decide +kernel)
  · decide +kernel
  · decide +kernel

/-- A socket that climbs is not: the client looks beside the root directory. -/
theorem socket_beside_jail :
    ∃ m, newWithClient (jailedConfig "../api.sock") "vm" "" = .ok m ∧
      Machine.jailerConfigValidation m.cfg = .ok () ∧
      place m.cfg.socketPath.toList = place "/srv/jailer/firecracker/vm/api.sock".toList ∧
      ¬ SocketInJail m := by
  obtain ⟨m, hm⟩ : ∃ m, newWithClient (jailedConfig "../api.sock") "vm" "" = .ok m := ⟨_, rfl⟩
  have hfacts : (newWithClient (jailedConfig "../api.sock") "vm" "").map
      (fun m => (Machine.jailerConfigValidation m.cfg, m.cfg.socketPath)) =
      .ok (.ok (), "/srv/jailer/firecracker/vm/root/../api.sock") := by decide +kernel
  rw [hm] at hfacts
  obtain ⟨hvalid, hsocket⟩ := Prod.mk.inj (Except.ok.inj hfacts)
  refine ⟨m, hm, hvalid, ?_, fun hin => ?_⟩
  · rw [hsocket]
    decide +kernel
  · have hlow := (confined_of_socketInJail rfl hm hin).low
    exact absurd hlow (by decide +kernel)

end FirecrackerSdk
