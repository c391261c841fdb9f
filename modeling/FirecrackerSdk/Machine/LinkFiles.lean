import FirecrackerSdk.Lib.Hardlink
import FirecrackerSdk.Machine.JailSocket
import FirecrackerSdk.Machine.Passive

/-!
# The files in the jail

`link_files_handler` links the files of a configuration into the root directory of the jail, under
their last components, and writes these names to the configuration. The files come from anywhere
and end up in one directory, so two of them with the same last component are one too many; the
kernel image gets the name of the one that the chroot strategy was made with.

The operation is a list of links (`FirecrackerSdk.assets`), and what it does is what they do
(`FirecrackerSdk.Machine.links_linkFiles`), for any file system whose `link(2)` is that of
`FirecrackerSdk.Lib.Hardlink`. So it goes through exactly if their targets are different.
-/

namespace FirecrackerSdk

open Hardlink

/-- **The files of a host**: the directory entry that a path leads to, and the file that an entry
holds in a world, with the effects of the system calls as documented. Directories do not change. -/
structure HostFiles {W : Type} (env : Env W) (E F : Type) [DecidableEq E] where
  entry : String → Option E
  contents : W → E → Option F
  /-- `ENOENT`: the empty path. -/
  entry_empty : entry "" = none
  hardLink_ok : ∀ {original target w}, (env.answer (.hardLink original target) w).1 = .ok () →
    link (contents w) ⟨entry original, entry target⟩ =
      some (contents (env.answer (.hardLink original target) w).2)
  chown_contents : ∀ path uid gid w,
    contents (env.answer (.chown path uid gid) w).2 = contents w
  mkfifo_ok : ∀ {path w}, (env.answer (.mkfifo path) w).1 = .ok () →
    ∃ e file, entry path = some e ∧ contents w e = none ∧
      contents (env.answer (.mkfifo path) w).2 = Function.update (contents w) e (some file)
  /-- `O_CREAT`: the file is made if it is not there. -/
  append_ok : ∀ {path w}, (env.answer (.openFile path true) w).1 = .ok () →
    (∃ e file, entry path = some e ∧ contents w e = some file ∧
      contents (env.answer (.openFile path true) w).2 = contents w) ∨
    ∃ e file, entry path = some e ∧ contents w e = none ∧
      contents (env.answer (.openFile path true) w).2 = Function.update (contents w) e (some file)
  read_contents : ∀ path w, contents (env.answer (.openFile path false) w).2 = contents w

namespace HostFiles

variable {W E F : Type} [DecidableEq E] {env : Env W} (files : HostFiles env E F)

/-- The file that a path names. -/
def named (w : W) (path : String) : Option F := fileAt (files.contents w) (files.entry path)

/-- The link of a path to another. -/
def request (original target : String) : Request E := ⟨files.entry original, files.entry target⟩

/-- **Links and changes of owner succeed** where they can. -/
structure Obliging : Prop where
  hardLink : ∀ {original target w},
    (link (files.contents w) (files.request original target)).isSome = true →
      (env.answer (.hardLink original target) w).1 = .ok ()
  chown : ∀ {path uid gid w}, (files.named w path).isSome = true →
    (env.answer (.chown path uid gid) w).1 = .ok ()

end HostFiles

/-! ### What is linked -/

/-- A file of the host, and its name in the jail. -/
structure Asset where
  hostPath : String
  name : String

/-- What is linked for a path of the configuration: nothing if it is empty. -/
def asset (fallback : String) (path : Option String) : List Asset :=
  match path.filter (· ≠ "") with
  | none => []
  | some hostPath => [⟨hostPath, (fileName hostPath).getD fallback⟩]

theorem hostPath_ne_empty {fallback : String} {path : Option String} {a : Asset}
    (h : a ∈ asset fallback path) : a.hostPath ≠ "" := by
  unfold asset at h
  split at h
  · cases h
  · rename_i hostPath hpath
    obtain rfl := List.mem_singleton.mp h
    simpa using (Option.filter_eq_some_iff.mp hpath).2

/-- **What is linked for a configuration**, in this order. -/
def assets (kernelImageFileName : String) (cfg : Config) : List Asset :=
  ⟨cfg.kernelImagePath, kernelImageFileName⟩ ::
    (asset "initrd" cfg.initrdPath ++ (cfg.drives.flatMap fun drive =>
      asset "drive" drive.pathOnHost) ++ asset "fifo" cfg.logFifo ++ asset "fifo" cfg.metricsFifo)

/-- What becomes of a path of the configuration. -/
def relinked (fallback : String) (path : Option String) : Option String :=
  match path.filter (· ≠ "") with
  | none => path
  | some hostPath => some ((fileName hostPath).getD fallback)

/-- What becomes of a drive. -/
def relinkedDrive (drive : Drive) : Drive :=
  { drive with pathOnHost := relinked "drive" drive.pathOnHost }

/-- What becomes of the configuration. -/
def relinkedConfig (kernelImageFileName : String) (cfg : Config) : Config :=
  { cfg with
    kernelImagePath := kernelImageFileName
    initrdPath := relinked "initrd" cfg.initrdPath
    drives := cfg.drives.map relinkedDrive
    logFifo := relinked "fifo" cfg.logFifo
    metricsFifo := relinked "fifo" cfg.metricsFifo }

/-- The links for a list of files. -/
def HostFiles.requests {W E F : Type} [DecidableEq E] {env : Env W} (files : HostFiles env E F)
    (rootfs : String) (assets : List Asset) : List (Request E) :=
  assets.map fun asset => files.request asset.hostPath (pathJoin rootfs asset.name)

namespace Machine

open Prog

variable {W E F : Type} [DecidableEq E] {env : Env W} (files : HostFiles env E F)

/-! ### Operations that link -/

/-- **An operation that makes links**, and does something to the machine that does not depend on
how they went. -/
structure Links {α : Type} (requests : List (Request E)) (a : α) (effect : Machine → Machine)
    (x : Op W α) : Prop where
  of_ok : ∀ {s s' : Sys W} {b}, x s = (.ok b, s') → b = a ∧ s'.machine = effect s.machine ∧
    s'.trace = s.trace ∧
    linkAll (files.contents s.world) requests = some (files.contents s'.world)
  ok : files.Obliging → ∀ {s : Sys W},
    (linkAll (files.contents s.world) requests).isSome = true → ∃ s', x s = (.ok a, s')

theorem links_pure {α : Type} (a : α) : Links files [] a id (pure a : Op W α) := by
  constructor
  · rintro s s' b ⟨⟩
    exact ⟨rfl, rfl, rfl, rfl⟩
  · intro _ s _
    exact ⟨s, rfl⟩

theorem links_update (effect : Machine → Machine) :
    Links files [] () effect (Op.update effect : Op W Unit) := by
  constructor
  · rintro s s' b ⟨⟩
    exact ⟨rfl, rfl, rfl, rfl⟩
  · intro _ s _
    exact ⟨_, rfl⟩

variable {files} in
theorem links_bind {α β : Type} {requests requests' : List (Request E)} {a : α} {b : β}
    {effect effect' : Machine → Machine} {x : Op W α} {f : α → Op W β}
    (hx : Links files requests a effect x) (hf : Links files requests' b effect' (f a)) :
    Links files (requests ++ requests') b (fun m => effect' (effect m)) (x >>= f) := by
  constructor
  · intro s s' c h
    obtain ⟨a', s₁, hfirst, hsecond⟩ := bind_eq_ok.mp h
    obtain ⟨rfl, hmachine, htrace, hlinks⟩ := hx.of_ok hfirst
    obtain ⟨rfl, hmachine', htrace', hlinks'⟩ := hf.of_ok hsecond
    refine ⟨rfl, by rw [hmachine', hmachine], htrace'.trans htrace, ?_⟩
    rw [linkAll_append, hlinks]
    exact hlinks'
  · intro hobliging s h
    rw [linkAll_append] at h
    obtain ⟨contents', hall⟩ := Option.isSome_iff_exists.mp h
    obtain ⟨contents₁, hfirst, hsecond⟩ := Option.bind_eq_some_iff.mp hall
    obtain ⟨s₁, hs₁⟩ := hx.ok hobliging (by rw [hfirst]; rfl)
    obtain ⟨-, -, -, hlinks⟩ := hx.of_ok hs₁
    have hcontents : contents₁ = files.contents s₁.world :=
      Option.some.inj (hfirst.symm.trans hlinks)
    obtain ⟨s₂, hs₂⟩ := hf.ok hobliging (by rw [← hcontents, hsecond]; rfl)
    exact ⟨s₂, bind_eq_ok.mpr ⟨a, s₁, hs₁, hs₂⟩⟩

variable {files} in
theorem Links.of_eq {α : Type} {requests requests' : List (Request E)} {a : α}
    {effect effect' : Machine → Machine} {x : Op W α} (h : Links files requests a effect x)
    (hrequests : requests = requests') (heffect : ∀ m, effect m = effect' m) :
    Links files requests' a effect' x := by
  obtain rfl : effect = effect' := funext heffect
  obtain rfl := hrequests
  exact h

theorem askIo_eq_ok {α : Type} {query : Query (Except IoError α)} {s s' : Sys W} {a : α} :
    Op.askIo env query s = (.ok a, s') ↔
      (env.answer query s.world).1 = .ok a ∧
        s' = { s with world := (env.answer query s.world).2 } := by
  unfold Op.askIo
  rw [Op.ask_bind]
  cases hanswer : (env.answer query s.world).1 with
  | ok b =>
    constructor
    · rintro ⟨⟩
      exact ⟨rfl, rfl⟩
    · rintro ⟨⟨⟩, rfl⟩
      rfl
  | error error =>
    constructor
    · rintro ⟨⟩
    · rintro ⟨⟨⟩, -⟩

theorem links_hardLink (original target : String) :
    Links files [files.request original target] () id
      (Op.askIo env (.hardLink original target)) := by
  constructor
  · intro s s' b h
    obtain ⟨hok, rfl⟩ := askIo_eq_ok.mp h
    refine ⟨rfl, rfl, rfl, ?_⟩
    rw [linkAll_singleton]
    exact files.hardLink_ok hok
  · intro hobliging s h
    rw [linkAll_singleton] at h
    exact ⟨_, askIo_eq_ok.mpr ⟨hobliging.hardLink h, rfl⟩⟩

/-- The owner of a file that was just linked can be changed. -/
theorem links_hardLink_chown (original target : String) (uid gid : ℤ) :
    Links files [files.request original target] () id (do
      Op.askIo env (.hardLink original target)
      Op.askIo env (.chown target uid gid)) := by
  have hfirst : Links files [files.request original target] () id
    (Op.askIo env (.hardLink original target)) := links_hardLink files original target
  constructor
  · intro s s' b h
    obtain ⟨_, s₁, hlink, hchown⟩ := bind_eq_ok.mp h
    obtain ⟨-, hmachine, htrace, hlinks⟩ := hfirst.of_ok hlink
    obtain ⟨-, rfl⟩ := askIo_eq_ok.mp hchown
    refine ⟨rfl, hmachine, htrace, hlinks.trans (congrArg some ?_)⟩
    exact (files.chown_contents _ _ _ _).symm
  · intro hobliging s h
    obtain ⟨s₁, hlink⟩ := hfirst.ok hobliging h
    obtain ⟨-, -, -, hlinks⟩ := hfirst.of_ok hlink
    rw [linkAll_singleton] at hlinks
    obtain ⟨file, e, -, htarget, -, hupdate⟩ := link_eq_some.mp hlinks
    have hnamed : files.named s₁.world target = some file := by
      rw [HostFiles.named, show files.entry target = some e from htarget, hupdate]
      exact Function.update_self _ _ _
    have hchown : (env.answer (.chown target uid gid) s₁.world).1 = .ok () :=
      hobliging.chown (by rw [hnamed]; rfl)
    exact ⟨_, bind_eq_ok.mpr ⟨(), s₁, hlink, askIo_eq_ok.mpr ⟨hchown, rfl⟩⟩⟩

/-! ### The parts of `link_files_handler` -/

theorem links_linkInto (rootfs fallback hostPath : String) :
    Links files [files.request hostPath (pathJoin rootfs ((fileName hostPath).getD fallback))]
      ((fileName hostPath).getD fallback) id (linkInto env rootfs fallback hostPath) :=
  links_bind (links_hardLink files _ _) (links_pure files _)

theorem links_linkInitrd (rootfs : String) (initrdPath : Option String) :
    Links files (files.requests rootfs (asset "initrd" initrdPath)) (relinked "initrd" initrdPath)
      id (linkInitrd env rootfs initrdPath) := by
  unfold linkInitrd asset relinked
  cases initrdPath.filter (· ≠ "") with
  | none => exact links_pure files _
  | some hostPath => exact links_bind (links_linkInto files _ _ _) (links_pure files _)

theorem linkInto_bind {β : Type} (rootfs fallback hostPath : String) (f : String → Op W β) :
    (linkInto env rootfs fallback hostPath >>= f) =
      (Op.askIo env (.hardLink hostPath (pathJoin rootfs ((fileName hostPath).getD fallback))) >>=
        fun _ => f ((fileName hostPath).getD fallback)) := by
  funext s
  unfold linkInto
  rw [bind_apply, bind_apply, bind_apply]
  rcases Op.askIo env _ s with ⟨a | error | _, s₁⟩ <;> rfl

theorem links_linkFifo (rootfs : String) (jailerCfg : JailerConfig) (fifoPath : Option String) :
    Links files (files.requests rootfs (asset "fifo" fifoPath)) (relinked "fifo" fifoPath) id
      (linkFifo env rootfs jailerCfg fifoPath) := by
  unfold linkFifo asset relinked
  cases fifoPath.filter (· ≠ "") with
  | none => exact links_pure files _
  | some hostPath =>
    dsimp only
    rw [linkInto_bind, ← Prog.bind_assoc]
    exact links_bind (links_hardLink_chown files _ _ _ _) (links_pure files _)

/-- Rewrite the path of the drive at a position. -/
def relinkAt (index : ℕ) (drive : Drive) (drives : List Drive) : List Drive :=
  match drive.pathOnHost.filter (· ≠ "") with
  | none => drives
  | some hostPath => drives.modify index fun drive =>
    { drive with pathOnHost := some ((fileName hostPath).getD "drive") }

/-- Rewrite the paths of drives from a position on. -/
def relinkFrom (index : ℕ) : List Drive → List Drive → List Drive
  | [], all => all
  | drive :: drives, all => relinkFrom (index + 1) drives (relinkAt index drive all)

theorem relinkAt_append (before drives : List Drive) (drive : Drive) :
    relinkAt before.length drive (before ++ drive :: drives) =
      before ++ relinkedDrive drive :: drives := by
  unfold relinkAt relinkedDrive relinked
  cases drive.pathOnHost.filter (· ≠ "") with
  | none => rfl
  | some hostPath =>
    induction before with
    | nil => rfl
    | cons first before ih => exact congrArg (first :: ·) ih

/-- The drives before a position stay, and those from there on are rewritten. -/
theorem relinkFrom_append (before drives : List Drive) :
    relinkFrom before.length drives (before ++ drives) = before ++ drives.map relinkedDrive := by
  induction drives generalizing before with
  | nil => rfl
  | cons drive drives ih =>
    have hlength : before.length + 1 = (before ++ [relinkedDrive drive]).length := by simp
    rw [relinkFrom, relinkAt_append, hlength, List.append_cons before (relinkedDrive drive) drives,
      ih, List.append_assoc]
    rfl

theorem links_linkDrives (rootfs : String) (index : ℕ) (drives : List Drive) :
    Links files (files.requests rootfs (drives.flatMap fun drive => asset "drive" drive.pathOnHost))
      () (fun m => { m with cfg := { m.cfg with drives := relinkFrom index drives m.cfg.drives } })
      (linkDrives env rootfs index drives) := by
  induction drives generalizing index with
  | nil => exact links_pure files ()
  | cons drive drives ih =>
    have hdrive : Links files (files.requests rootfs (asset "drive" drive.pathOnHost)) ()
        (fun m => { m with cfg := { m.cfg with drives := relinkAt index drive m.cfg.drives } })
        (linkDrive env rootfs index drive) := by
      unfold linkDrive asset relinkAt
      cases drive.pathOnHost.filter (· ≠ "") with
      | none => exact links_pure files ()
      | some hostPath =>
        dsimp only
        rw [linkInto_bind]
        exact (links_bind (links_hardLink files _ _) (links_update files _)).of_eq rfl
          fun _ => rfl
    rw [List.flatMap_cons, HostFiles.requests, List.map_append]
    exact (links_bind hdrive (ih (index + 1))).of_eq rfl fun _ => rfl

/-- **What `link_files_handler` does**: the links for the configuration, and the rewriting of its
paths. -/
theorem links_linkFiles (kernelImageFileName : String) {s : Sys W} {jailerCfg : JailerConfig}
    (hjailer : s.machine.cfg.jailerCfg = some jailerCfg) :
    ∃ x : Op W Unit, linkFiles env kernelImageFileName s = x s ∧
      Links files
        (files.requests (jailerRootfs jailerCfg) (assets kernelImageFileName s.machine.cfg)) ()
        (fun m => { m with cfg := { m.cfg with
          kernelImagePath := kernelImageFileName
          initrdPath := relinked "initrd" s.machine.cfg.initrdPath
          drives := relinkFrom 0 s.machine.cfg.drives m.cfg.drives
          logFifo := relinked "fifo" s.machine.cfg.logFifo
          metricsFifo := relinked "fifo" s.machine.cfg.metricsFifo } }) x := by
  refine ⟨linkFilesInto env (jailerRootfs jailerCfg) jailerCfg s.machine.cfg kernelImageFileName,
    ?_, ?_⟩
  · unfold linkFiles
    rw [Op.cfg_bind, hjailer]
  · unfold linkFilesInto assets HostFiles.requests
    refine Links.of_eq (links_bind (links_hardLink files _ _) (links_bind
      (links_linkInitrd files _ _) (links_bind (links_linkDrives files _ 0 _) (links_bind
        (links_update files _) (links_bind (links_linkFifo files _ _ _) (links_bind
          (links_update files _) (links_bind (links_linkFifo files _ _ _)
            (links_update files _)))))))) ?_ ?_
    · simp [HostFiles.requests]
    · intro m
      rfl

theorem linkFiles_of_ok {kernelImageFileName : String} {s s' : Sys W} {jailerCfg : JailerConfig}
    (hjailer : s.machine.cfg.jailerCfg = some jailerCfg)
    (h : linkFiles env kernelImageFileName s = (.ok (), s')) :
    s'.machine = { s.machine with cfg := relinkedConfig kernelImageFileName s.machine.cfg } ∧
      s'.trace = s.trace ∧
      linkAll (files.contents s.world) (files.requests (jailerRootfs jailerCfg)
        (assets kernelImageFileName s.machine.cfg)) = some (files.contents s'.world) := by
  obtain ⟨x, hx, hlinks⟩ := links_linkFiles files kernelImageFileName hjailer
  obtain ⟨-, hmachine, htrace, hall⟩ := hlinks.of_ok (hx.symm.trans h)
  refine ⟨?_, htrace, hall⟩
  have hdrives : relinkFrom 0 s.machine.cfg.drives s.machine.cfg.drives =
      s.machine.cfg.drives.map relinkedDrive := relinkFrom_append [] s.machine.cfg.drives
  rw [hmachine, hdrives]
  rfl

theorem linkFiles_ok (hobliging : files.Obliging) {kernelImageFileName : String} {s : Sys W}
    {jailerCfg : JailerConfig} (hjailer : s.machine.cfg.jailerCfg = some jailerCfg)
    (hall : (linkAll (files.contents s.world) (files.requests (jailerRootfs jailerCfg)
      (assets kernelImageFileName s.machine.cfg))).isSome = true) :
    ∃ s', linkFiles env kernelImageFileName s = (.ok (), s') := by
  obtain ⟨x, hx, hlinks⟩ := links_linkFiles files kernelImageFileName hjailer
  obtain ⟨s', hs'⟩ := hlinks.ok hobliging hall
  exact ⟨s', hx.trans hs'⟩

end Machine

/-! ### Paths inside the jail -/

section Linked

variable {W E F : Type} [DecidableEq E] {env : Env W} (files : HostFiles env E F)

/-- **A path leads into the jail**: it was empty or absent and is as before, or it names inside the
root directory the file that it named before. -/
def PathLinked (rootfs : String) (w w' : W) (before after : Option String) : Prop :=
  match before.filter (· ≠ "") with
  | none => after = before
  | some hostPath => ∃ path file, after = some path ∧ files.named w hostPath = some file ∧
      files.named w' (joinChrootPath rootfs path) = some file

/-- **All paths of a configuration lead into the jail**, and the rest of it is as before. -/
structure ConfigLinked (rootfs : String) (s s' : Sys W) : Prop where
  kernel : PathLinked files rootfs s.world s'.world (some s.machine.cfg.kernelImagePath)
    (some s'.machine.cfg.kernelImagePath)
  initrd : PathLinked files rootfs s.world s'.world s.machine.cfg.initrdPath
    s'.machine.cfg.initrdPath
  drives : List.Forall₂ (fun drive drive' =>
    PathLinked files rootfs s.world s'.world drive.pathOnHost drive'.pathOnHost ∧
      drive' = { drive with pathOnHost := drive'.pathOnHost })
    s.machine.cfg.drives s'.machine.cfg.drives
  logFifo : PathLinked files rootfs s.world s'.world s.machine.cfg.logFifo s'.machine.cfg.logFifo
  metricsFifo : PathLinked files rootfs s.world s'.world s.machine.cfg.metricsFifo
    s'.machine.cfg.metricsFifo
  rest : s'.machine = { s.machine with cfg := { s.machine.cfg with
    kernelImagePath := s'.machine.cfg.kernelImagePath
    initrdPath := s'.machine.cfg.initrdPath
    drives := s'.machine.cfg.drives
    logFifo := s'.machine.cfg.logFifo
    metricsFifo := s'.machine.cfg.metricsFifo } }

/-- **A directory that holds none of a list of names**: each of them would be an entry of its
own. -/
structure EmptyDir (dir : String) (w : W) (names : List String) : Prop where
  entry : ∀ name ∈ names, ∃ e, files.entry (pathJoin dir name) = some e ∧ files.contents w e = none
  inj : ∀ name ∈ names, ∀ name' ∈ names,
    files.entry (pathJoin dir name) = files.entry (pathJoin dir name') → name = name'

/-- The name of the kernel image in the jail, as `adapt_handlers` takes it from the strategy. -/
def NaiveChrootStrategy.kernelFileName (strategy : NaiveChrootStrategy) : String :=
  (fileName strategy.kernelImagePath).getD "vmlinux"

theorem isAbsolute_fileName {path fallback : String}
    (h : Lexical.isAbsolute fallback.toList = false) :
    Lexical.isAbsolute ((fileName path).getD fallback).toList = false := by
  cases hname : fileName path with
  | none => exact h
  | some name => exact (steps_fileName hname).1

/-- Inside the jail, a relative path is joined to the root directory. -/
theorem joinChrootPath_of_relative {rootfs path : String}
    (h : Lexical.isAbsolute path.toList = false) :
    joinChrootPath rootfs path = pathJoin rootfs path := by
  have hhead : ¬ path.toList.head? = some '/' := by simpa [Lexical.isAbsolute] using h
  have hdrop : path.toList.dropWhile (· == '/') = path.toList := by
    cases hchars : path.toList with
    | nil => rfl
    | cons c cs =>
      rw [hchars, List.head?_cons, Option.some.injEq] at hhead
      rw [List.dropWhile_cons_of_neg]
      simpa using hhead
  rw [joinChrootPath, hdrop, String.ofList_toList]

variable {files}

/-- A file that was linked is found inside the jail. -/
theorem named_of_linked {rootfs : String} {w w' : W} {all : List Asset}
    (hlinked : linkAll (files.contents w) (files.requests rootfs all) = some (files.contents w'))
    (hexist : ∀ a ∈ all, (files.named w a.hostPath).isSome = true) {a : Asset} (ha : a ∈ all)
    (hname : Lexical.isAbsolute a.name.toList = false) :
    ∃ file, files.named w a.hostPath = some file ∧
      files.named w' (joinChrootPath rootfs a.name) = some file := by
  obtain ⟨file, hfile⟩ := Option.isSome_iff_exists.mp (hexist a ha)
  refine ⟨file, hfile, ?_⟩
  rw [joinChrootPath_of_relative hname]
  exact linkAll_target hlinked (List.mem_map_of_mem ha) hfile

theorem pathLinked_of_linked {rootfs : String} {w w' : W} {all : List Asset}
    (hlinked : linkAll (files.contents w) (files.requests rootfs all) = some (files.contents w'))
    (hexist : ∀ a ∈ all, (files.named w a.hostPath).isSome = true) {fallback : String}
    (hfallback : Lexical.isAbsolute fallback.toList = false) {path : Option String}
    (hsub : ∀ a ∈ asset fallback path, a ∈ all) :
    PathLinked files rootfs w w' path (relinked fallback path) := by
  unfold PathLinked relinked
  unfold asset at hsub
  cases hpath : path.filter (· ≠ "") with
  | none => rfl
  | some hostPath =>
    rw [hpath] at hsub
    obtain ⟨file, hfile, hnamed⟩ := named_of_linked hlinked hexist
      (hsub _ List.mem_cons_self) (isAbsolute_fileName hfallback)
    exact ⟨_, file, rfl, hfile, hnamed⟩

/-- **After the links, all paths lead into the jail.** -/
theorem configLinked_of_linked {rootfs : String} {strategy : NaiveChrootStrategy} {s s' : Sys W}
    (hmachine : s'.machine =
      { s.machine with cfg := relinkedConfig strategy.kernelFileName s.machine.cfg })
    (hlinked : linkAll (files.contents s.world) (files.requests rootfs
      (assets strategy.kernelFileName s.machine.cfg)) = some (files.contents s'.world))
    (hexist : ∀ a ∈ assets strategy.kernelFileName s.machine.cfg,
      (files.named s.world a.hostPath).isSome = true)
    (hkernel : s.machine.cfg.kernelImagePath ≠ "") : ConfigLinked files rootfs s s' := by
  have hpath : ∀ fallback path, Lexical.isAbsolute fallback.toList = false →
      (∀ a ∈ asset fallback path, a ∈ assets strategy.kernelFileName s.machine.cfg) →
        PathLinked files rootfs s.world s'.world path (relinked fallback path) :=
    fun _ _ hfallback hsub => pathLinked_of_linked hlinked hexist hfallback hsub
  constructor
  · obtain ⟨file, hfile, hnamed⟩ := named_of_linked hlinked hexist List.mem_cons_self
      (@isAbsolute_fileName strategy.kernelImagePath _ rfl)
    unfold PathLinked
    rw [hmachine, Option.filter_some, if_pos (by simpa using hkernel)]
    exact ⟨_, file, rfl, hfile, hnamed⟩
  · rw [hmachine]
    refine hpath "initrd" _ rfl fun a ha => ?_
    simp [assets, ha]
  · rw [hmachine]
    refine List.forall₂_map_right_iff.mpr (List.forall₂_same.mpr fun drive hdrive => ⟨?_, rfl⟩)
    refine hpath "drive" _ rfl fun a ha => ?_
    have hmem : a ∈ s.machine.cfg.drives.flatMap fun drive => asset "drive" drive.pathOnHost :=
      List.mem_flatMap.mpr ⟨drive, hdrive, ha⟩
    simp only [assets, List.mem_cons, List.mem_append]
    exact .inr (.inl (.inl (.inr hmem)))
  · rw [hmachine]
    refine hpath "fifo" _ rfl fun a ha => ?_
    simp [assets, ha]
  · rw [hmachine]
    refine hpath "fifo" _ rfl fun a ha => ?_
    simp [assets, ha]
  · rw [hmachine]
    rfl

/-- Links into a directory that holds none of the names go through if the names are different. -/
theorem linkAll_requests_isSome_iff {dir : String} {w : W} {all : List Asset}
    (hempty : EmptyDir files dir w (all.map Asset.name))
    (hexist : ∀ a ∈ all, (files.named w a.hostPath).isSome = true) :
    (linkAll (files.contents w) (files.requests dir all)).isSome = true ↔
      (all.map Asset.name).Nodup := by
  rw [linkAll_isSome_iff]
  · have htargets : (files.requests dir all).map (·.target) =
        (all.map Asset.name).map fun name => files.entry (pathJoin dir name) := by
      simp [HostFiles.requests, HostFiles.request]
    rw [htargets]
    refine ⟨List.Nodup.of_map _, fun hnodup => hnodup.map_on fun name hname name' hname' => ?_⟩
    exact hempty.inj name hname name' hname'
  · intro request hrequest
    obtain ⟨a, ha, rfl⟩ := List.mem_map.mp hrequest
    exact hexist a ha
  · intro request hrequest
    obtain ⟨a, ha, rfl⟩ := List.mem_map.mp hrequest
    exact hempty.entry a.name (List.mem_map_of_mem ha)

end Linked

/-- **When the files of a jailed machine end up in the jail**: if there is a kernel image, and the
names are different. -/
theorem files_linked_iff {W E F : Type} [DecidableEq E] {env : Env W} (files : HostFiles env E F)
    (hobliging : files.Obliging) {strategy : NaiveChrootStrategy} {s : Sys W}
    {jailerCfg : JailerConfig} (hjailer : s.machine.cfg.jailerCfg = some jailerCfg)
    (hexist : ∀ a ∈ assets strategy.kernelFileName s.machine.cfg, a.hostPath ≠ "" →
      (files.named s.world a.hostPath).isSome = true)
    (hempty : EmptyDir files (jailerRootfs jailerCfg) s.world
      ((assets strategy.kernelFileName s.machine.cfg).map Asset.name)) :
    (∃ s', Machine.linkFiles env strategy.kernelFileName s = (.ok (), s') ∧
        ConfigLinked files (jailerRootfs jailerCfg) s s') ↔
      s.machine.cfg.kernelImagePath ≠ "" ∧
        ((assets strategy.kernelFileName s.machine.cfg).map Asset.name).Nodup := by
  have hexist' : s.machine.cfg.kernelImagePath ≠ "" →
      ∀ a ∈ assets strategy.kernelFileName s.machine.cfg,
        (files.named s.world a.hostPath).isSome = true := by
    intro hkernel a ha
    refine hexist a ha ?_
    rcases List.mem_cons.mp ha with rfl | hmem
    · exact hkernel
    · simp only [List.mem_append, List.mem_flatMap] at hmem
      obtain ((hmem | ⟨drive, -, hmem⟩) | hmem) | hmem := hmem <;> exact hostPath_ne_empty hmem
  constructor
  · rintro ⟨s', hok, -⟩
    obtain ⟨-, -, hall⟩ := Machine.linkFiles_of_ok files hjailer hok
    have hkernel : s.machine.cfg.kernelImagePath ≠ "" := by
      intro hnone
      obtain ⟨contents₁, hfirst, -⟩ := linkAll_cons_eq_some.mp hall
      obtain ⟨file, e, hfile, -⟩ := link_eq_some.mp hfirst
      change fileAt _ (files.entry s.machine.cfg.kernelImagePath) = some file at hfile
      rw [hnone, files.entry_empty] at hfile
      cases hfile
    refine ⟨hkernel, (linkAll_requests_isSome_iff hempty (hexist' hkernel)).mp ?_⟩
    rw [hall]
    rfl
  · rintro ⟨hkernel, hnodup⟩
    obtain ⟨s', hok⟩ := Machine.linkFiles_ok files hobliging hjailer
      ((linkAll_requests_isSome_iff hempty (hexist' hkernel)).mpr hnodup)
    obtain ⟨hmachine, -, hall⟩ := Machine.linkFiles_of_ok files hjailer hok
    exact ⟨s', hok, configLinked_of_linked hmachine hall (hexist' hkernel) hkernel⟩

/-! ### A host without links between directories -/

/-- The files of a host by their places, each with the path under which it was made. All
directories are there. -/
abbrev Shelf := Lexical.Place (List Char) → Option String

namespace Shelf

/-- Where a path leads. -/
def entry (path : String) : Option (Lexical.Place (List Char)) :=
  if path = "" then none else some (Lexical.place path.toList)

/-- An error of the operating system. -/
def error (number : ℕ) : IoError := ⟨.other number, "os error", some number⟩

/-- Make a file if there is none. -/
def make (path : String) (exclusive : Bool) (shelf : Shelf) : Except IoError Unit × Shelf :=
  match entry path with
  | none => (.error (error 2), shelf)
  | some e =>
    match shelf e with
    | none => (.ok (), Function.update shelf e (some path))
    | some _ => (if exclusive then .error (error 17) else .ok (), shelf)

/-- The answers of the host. -/
def answer : {α : Type} → Query α → Shelf → α × Shelf
  | _, .hardLink original target, shelf =>
    match link shelf ⟨entry original, entry target⟩ with
    | some shelf' => (.ok (), shelf')
    | none => (.error (error 17), shelf)
  | _, .mkfifo path, shelf => make path true shelf
  | _, .openFile path true, shelf => make path false shelf
  | _, query, shelf => (query.smooth, shelf)

/-- The host. -/
def env : Env Shelf where
  answer := answer

theorem make_ok {path : String} {exclusive : Bool} {shelf : Shelf}
    (h : (make path exclusive shelf).1 = .ok ()) :
    (exclusive = false ∧ ∃ e file, entry path = some e ∧ shelf e = some file ∧
      (make path exclusive shelf).2 = shelf) ∨
    ∃ e file, entry path = some e ∧ shelf e = none ∧
      (make path exclusive shelf).2 = Function.update shelf e (some file) := by
  unfold make at h ⊢
  cases hentry : entry path with
  | none =>
    rw [hentry] at h
    cases h
  | some e =>
    rw [hentry] at h
    dsimp only at h ⊢
    cases hheld : shelf e with
    | none => exact .inr ⟨e, path, rfl, hheld, rfl⟩
    | some file =>
      rw [hheld] at h
      cases exclusive with
      | false => exact .inl ⟨rfl, e, file, rfl, hheld, rfl⟩
      | true => cases h

/-- The host links as documented. -/
def hostFiles : HostFiles env (Lexical.Place (List Char)) String where
  entry := entry
  contents := id
  entry_empty := rfl
  hardLink_ok {original target shelf} h := by
    change (answer (.hardLink original target) shelf).1 = .ok () at h
    change link shelf _ = some (answer (.hardLink original target) shelf).2
    unfold answer at h ⊢
    dsimp only at h ⊢
    split at h
    · rename_i shelf' hlink
      rw [hlink]
    · cases h
  chown_contents _ _ _ _ := rfl
  mkfifo_ok h := by
    rcases make_ok h with ⟨hfalse, -⟩ | hmade
    · cases hfalse
    · exact hmade
  append_ok h := by
    rcases make_ok h with ⟨-, hthere⟩ | hmade
    · exact .inl hthere
    · exact .inr hmade
  read_contents _ _ := rfl

theorem obliging : hostFiles.Obliging where
  hardLink {original target shelf} h := by
    change (link shelf ⟨entry original, entry target⟩).isSome = true at h
    change (answer (.hardLink original target) shelf).1 = .ok ()
    obtain ⟨shelf', hlink⟩ := Option.isSome_iff_exists.mp h
    unfold answer
    dsimp only
    rw [hlink]
  chown _ := rfl

end Shelf

/-- A host with a list of files. -/
def Shelf.holding (paths : List String) : Shelf :=
  paths.foldl (fun shelf path => (Shelf.make path false shelf).2) fun _ => none

/-- Names that lead to different places, where there is nothing. -/
theorem Shelf.emptyDir {dir : String} {shelf : Shelf} {names : List String}
    (hempty : (names.all fun name => (entry (pathJoin dir name)).map shelf == some none) = true)
    (hplaces : (names.map fun name => entry (pathJoin dir name)).Nodup) :
    EmptyDir hostFiles dir shelf names where
  entry name hname := by
    obtain ⟨e, hentry, hheld⟩ :=
      Option.map_eq_some_iff.mp (beq_iff_eq.mp (List.all_eq_true.mp hempty name hname))
    exact ⟨e, hentry, hheld⟩
  inj _ hname _ hname' hsame := List.inj_on_of_nodup_map hplaces hname hname' hsame

/-- A jailed machine with drives. -/
def stockedConfig (drives : List String) : Config where
  kernelImagePath := "/images/vmlinux-6.1"
  drives := drives.map fun path => { pathOnHost := some path }
  jailerCfg := some { id := "vm", execFile := "/usr/bin/firecracker" }

/-- The machine on a host with its files. -/
def stockedSys (drives : List String) : Sys Shelf where
  machine := { cfg := stockedConfig drives, handlers := defaultHandlers }
  world := .holding ("/images/vmlinux-6.1" :: drives)

/-- The strategy for a kernel image. -/
def vmlinuxStrategy : NaiveChrootStrategy := ⟨"/images/vmlinux"⟩

theorem files_linked_two : ∃ s', Machine.linkFiles Shelf.env vmlinuxStrategy.kernelFileName
      (stockedSys ["/a/rootfs.img", "/b/data.img"]) = (.ok (), s') ∧
    ConfigLinked Shelf.hostFiles "/srv/jailer/firecracker/vm/root"
      (stockedSys ["/a/rootfs.img", "/b/data.img"]) s' := by
  have hjailer : (stockedSys ["/a/rootfs.img", "/b/data.img"]).machine.cfg.jailerCfg =
      some { id := "vm", execFile := "/usr/bin/firecracker" } := rfl
  refine (files_linked_iff Shelf.hostFiles Shelf.obliging hjailer ?_ ?_).mpr ⟨?_, ?_⟩
  · have hall : ((assets vmlinuxStrategy.kernelFileName
        (stockedConfig ["/a/rootfs.img", "/b/data.img"])).all fun a =>
          (Shelf.hostFiles.named (stockedSys ["/a/rootfs.img", "/b/data.img"]).world
            a.hostPath).isSome) = true := by
      decide +kernel
    intro a ha _
    exact List.all_eq_true.mp hall a ha
  · exact Shelf.emptyDir (by decide +kernel) (by decide +kernel)
  · change "/images/vmlinux-6.1" ≠ ""
    decide
  · decide +kernel

/-- **Two drives with the same last component**: the second finds the name taken. -/
theorem drive_names_clash :
    ((assets vmlinuxStrategy.kernelFileName
        (stockedConfig ["/a/rootfs.img", "/b/rootfs.img"])).map Asset.hostPath).Nodup ∧
      ((assets vmlinuxStrategy.kernelFileName
        (stockedConfig ["/a/rootfs.img", "/b/rootfs.img"])).all fun a =>
          (Shelf.hostFiles.named (stockedSys ["/a/rootfs.img", "/b/rootfs.img"]).world
            a.hostPath).isSome) = true ∧
      EmptyDir Shelf.hostFiles "/srv/jailer/firecracker/vm/root"
        (stockedSys ["/a/rootfs.img", "/b/rootfs.img"]).world ["vmlinux", "rootfs.img"] ∧
      (Machine.linkFiles Shelf.env vmlinuxStrategy.kernelFileName
        (stockedSys ["/a/rootfs.img", "/b/rootfs.img"])).1 = .err (.io (Shelf.error 17)) := by
  refine ⟨?_, ?_, Shelf.emptyDir ?_ ?_, ?_⟩ <;> decide +kernel

end FirecrackerSdk
