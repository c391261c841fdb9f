import FirecrackerSdk.Machine.LinkFiles
import FirecrackerSdk.Machine.MmdsIds

/-!
# The files that the VMM is told to log to

`create_log_files` makes a FIFO or opens a file, for the log and for the metrics;
`link_files_handler` links the FIFOs into the jail, if there is one; `setup_logging` and
`setup_metrics` announce a path. The three choose among the same two optional paths. The first two
take an empty path for an absent one, the third does not; and the second leaves a plain file where
it is, outside the jail.

So the announced path is that of the file if no empty path is announced, and if a plain file of a
jailed machine is found in the jail under the path that it has outside
(`FirecrackerSdk.logs_announced_iff`).
-/

namespace FirecrackerSdk

open Hardlink

variable {W E F : Type} [DecidableEq E] {env : Env W}

/-- **Paths inside a jail**: the entry that a path leads to, for a process with a root directory. A
single name leads to an entry of that directory. -/
structure RootView (files : HostFiles env E F) where
  entry : String → String → Option E
  entry_empty : ∀ root, entry root "" = none
  entry_name : ∀ {root name}, Lexical.isAbsolute name.toList = false →
    Lexical.steps name.toList = [.name name.toList] →
      entry root name = files.entry (pathJoin root name)

/-! ### The choices among the paths -/

/-- The path that `create_fifo_or_file` makes a FIFO or opens a file under. -/
def createdPath (fifoPath filePath : Option String) : Option String :=
  (fifoPath.filter (· ≠ "")).or (filePath.filter (· ≠ ""))

/-- The path that a call announces to the logger. -/
def ClientCall.loggerPath : ClientCall → Option (Option String)
  | .putLogger logger => some logger.logPath
  | _ => none

/-- The path that a call announces for the metrics. -/
def ClientCall.metricsPath : ClientCall → Option (Option String)
  | .putMetrics metrics => some metrics.metricsPath
  | _ => none

/-- `LinkFiles`, which is a handler of jailed machines. -/
def Machine.linkFilesIfJailed (env : Env W) (kernelImageFileName : String) : Op W Unit := do
  if (← Op.cfg).jailerCfg.isSome then linkFiles env kernelImageFileName else pure ()

namespace RootView

variable {files : HostFiles env E F} (view : RootView files)

/-- Where a path leads for the VMM of a configuration. -/
def seenBy (cfg : Config) (path : String) : Option E :=
  match cfg.jailerCfg with
  | none => files.entry path
  | some jailerCfg => view.entry (jailerRootfs jailerCfg) path

/-- **What is announced is what was created**: nothing if nothing was, and otherwise one path, under
which the VMM finds the file, when the worlds are those after the creation and after the links. -/
def Announced (cfg : Config) (w w' : W) (created : Option String)
    (announced : List (Option String)) : Prop :=
  match created with
  | none => announced = []
  | some hostPath => ∃ path file, announced = [some path] ∧ files.named w hostPath = some file ∧
      fileAt (files.contents w') (view.seenBy cfg path) = some file

/-- **A file of the host is visible in a jail** under the path that it has outside: it is there from
the beginning, or is among what is linked. -/
def Visible (kernelImageFileName : String) (cfg : Config) (jailerCfg : JailerConfig) (w : W)
    (path : String) : Prop :=
  ∃ contents file, linkAll (files.contents w) (files.requests (jailerRootfs jailerCfg)
      (assets kernelImageFileName cfg)) = some contents ∧ files.named w path = some file ∧
    fileAt contents (view.entry (jailerRootfs jailerCfg) path) = some file

/-- **When the right path is announced**: no empty path is, and a plain file of a jailed machine is
visible in the jail. -/
def Announceable (kernelImageFileName : String) (cfg : Config) (w : W)
    (fifoPath filePath : Option String) : Prop :=
  fifoPath.or filePath ≠ some "" ∧ ∀ jailerCfg path, cfg.jailerCfg = some jailerCfg →
    fifoPath = none → filePath = some path → view.Visible kernelImageFileName cfg jailerCfg w path

end RootView

/-! ### What is created -/

namespace Machine

open Prog

variable (files : HostFiles env E F)

/-- Files are only added. -/
def Grows (w w' : W) : Prop :=
  ∀ entry file, files.contents w entry = some file → files.contents w' entry = some file

theorem Grows.named {w w' : W} (h : Grows files w w') {path : String}
    (hpath : (files.named w path).isSome = true) : (files.named w' path).isSome = true := by
  obtain ⟨file, hfile⟩ := Option.isSome_iff_exists.mp hpath
  obtain ⟨e, hentry, hheld⟩ := Option.bind_eq_some_iff.mp hfile
  rw [HostFiles.named, hentry]
  exact Option.isSome_iff_exists.mpr ⟨file, h e file hheld⟩

/-- A file that is made where there was none. -/
theorem grows_of_update {w w' : W} {path : String} {e : E} {file : F}
    (hentry : files.entry path = some e) (hempty : files.contents w e = none)
    (h : files.contents w' = Function.update (files.contents w) e (some file)) :
    Grows files w w' ∧ (files.named w' path).isSome = true := by
  constructor
  · intro other file' hother
    have hne : other ≠ e := by
      rintro rfl
      cases hempty.symm.trans hother
    rw [h, Function.update_of_ne hne, hother]
  · have hnamed : files.named w' path = some file := by
      rw [HostFiles.named, hentry, h]
      exact Function.update_self _ _ _
    rw [hnamed]
    rfl

theorem grows_refl (w : W) : Grows files w w := fun _ _ h => h

/-- A file that is opened to be appended to is there afterwards, as everything that was there. -/
theorem grows_of_append {w : W} {path : String}
    (h : (env.answer (.openFile path true) w).1 = .ok ()) :
    Grows files w (env.answer (.openFile path true) w).2 ∧
      (files.named (env.answer (.openFile path true) w).2 path).isSome = true := by
  obtain ⟨e, file, hentry, hheld, hsame⟩ | ⟨e, file, hentry, hempty, hupdate⟩ :=
    files.append_ok h
  · refine ⟨fun other file' hother => by rw [hsame, hother], ?_⟩
    rw [HostFiles.named, hentry, hsame]
    exact Option.isSome_iff_exists.mpr ⟨file, hheld⟩
  · exact grows_of_update files hentry hempty hupdate

/-- **What `create_fifo_or_file` leaves**: the file, and everything that was there. -/
theorem createFifoOrFile_of_ok {fifoPath filePath : Option String} {s s' : Sys W}
    (h : createFifoOrFile env fifoPath filePath s = (.ok (), s')) :
    s'.machine.cfg = s.machine.cfg ∧ clientLog s'.trace = clientLog s.trace ∧
      Grows files s.world s'.world ∧
      ∀ path, createdPath fifoPath filePath = some path →
        (files.named s'.world path).isSome = true := by
  unfold createFifoOrFile at h
  unfold createdPath
  cases hfifo : fifoPath.filter (· ≠ "") with
  | some path =>
    rw [hfifo] at h
    obtain ⟨_, s₁, hnul, hrest⟩ := bind_eq_ok.mp h
    obtain ⟨_, s₂, hmade, hpush⟩ := bind_eq_ok.mp hrest
    obtain rfl : s₁ = s := by
      cases hcheck : pathCstring env.unprintable path with
      | ok a =>
        rw [hcheck] at hnul
        exact (Prod.mk.inj hnul).2.symm
      | error error =>
        rw [hcheck] at hnul
        cases hnul
    obtain ⟨hok, rfl⟩ := askIo_eq_ok.mp hmade
    obtain ⟨e, file, hentry, hempty, hupdate⟩ := files.mkfifo_ok hok
    cases hpush
    obtain ⟨hgrows, hnamed⟩ := grows_of_update files hentry hempty hupdate
    refine ⟨rfl, by simp [clientLog], hgrows, ?_⟩
    rintro _ ⟨⟩
    exact hnamed
  | none =>
    cases hfile : filePath.filter (· ≠ "") with
    | some path =>
      rw [hfifo, hfile] at h
      obtain ⟨hok, rfl⟩ := askIo_eq_ok.mp h
      obtain ⟨hgrows, hnamed⟩ := grows_of_append files hok
      refine ⟨rfl, rfl, hgrows, ?_⟩
      rintro _ ⟨⟩
      exact hnamed
    | none =>
      rw [hfifo, hfile] at h
      cases h
      refine ⟨rfl, rfl, grows_refl files _, ?_⟩
      rintro _ ⟨⟩

/-- **What `create_log_files` leaves**: the log file and the metrics file. -/
theorem createLogFiles_of_ok {s s' : Sys W} (h : createLogFiles env s = (.ok (), s')) :
    s'.machine.cfg = s.machine.cfg ∧ clientLog s'.trace = clientLog s.trace ∧
      (∀ path, createdPath s.machine.cfg.logFifo s.machine.cfg.logPath = some path →
        (files.named s'.world path).isSome = true) ∧
      ∀ path, createdPath s.machine.cfg.metricsFifo s.machine.cfg.metricsPath = some path →
        (files.named s'.world path).isSome = true := by
  unfold createLogFiles at h
  rw [Op.cfg_bind] at h
  obtain ⟨_, s₁, hmetrics, hrest⟩ := bind_eq_ok.mp h
  obtain ⟨_, s₂, hlog, hcapture⟩ := bind_eq_ok.mp hrest
  obtain ⟨hcfg₁, htrace₁, -, hnamed₁⟩ := createFifoOrFile_of_ok files hmetrics
  obtain ⟨hcfg₂, htrace₂, hgrows, hnamed₂⟩ := createFifoOrFile_of_ok files hlog
  -- the capture opens the FIFO, and leaves the files as they are
  have hsame : s'.machine = s₂.machine ∧ s'.trace = s₂.trace ∧
      files.contents s'.world = files.contents s₂.world := by
    cases hfifo : s.machine.cfg.logFifo.filter (· ≠ "") with
    | none =>
      rw [hfifo] at hcapture
      cases hcapture
      exact ⟨rfl, rfl, rfl⟩
    | some logFifo =>
      rw [hfifo] at hcapture
      cases hwriter : s.machine.cfg.fifoLogWriter with
      | false =>
        rw [hwriter] at hcapture
        cases hcapture
        exact ⟨rfl, rfl, rfl⟩
      | true =>
        rw [hwriter] at hcapture
        cases hcapture
        exact ⟨rfl, rfl, files.read_contents _ _⟩
  obtain ⟨hmachine, htrace, hcontents⟩ := hsame
  refine ⟨?_, ?_, fun path hpath => ?_, fun path hpath => ?_⟩
  · rw [hmachine, hcfg₂, hcfg₁]
  · rw [htrace, htrace₂, htrace₁]
  · rw [HostFiles.named, hcontents]
    exact hnamed₂ path hpath
  · rw [HostFiles.named, hcontents]
    exact hgrows.named files (hnamed₁ path hpath)

end Machine

/-! ### What is announced -/

namespace RootView

variable {files : HostFiles env E F} (view : RootView files)

/-- The path of a FIFO after the links, which only a jailed machine makes. -/
def fifoPathAfter (cfg : Config) (fifoPath : Option String) : Option String :=
  if cfg.jailerCfg.isSome then relinked "fifo" fifoPath else fifoPath

/-- The links of a machine, which there are if it is jailed. -/
def LinksDone (files : HostFiles env E F) (kernelImageFileName : String) (cfg : Config)
    (w w' : W) : Prop :=
  match cfg.jailerCfg with
  | none => files.contents w' = files.contents w
  | some jailerCfg => linkAll (files.contents w) (files.requests (jailerRootfs jailerCfg)
      (assets kernelImageFileName cfg)) = some (files.contents w')

/-- An empty path is never the right one. -/
theorem not_announced_empty {cfg : Config} {w w' : W} {created : Option String} :
    ¬view.Announced cfg w w' created [some ""] := by
  have hnowhere : view.seenBy cfg "" = none := by
    unfold seenBy
    cases cfg.jailerCfg with
    | none => exact files.entry_empty
    | some jailerCfg => exact view.entry_empty _
  cases created with
  | none => exact List.cons_ne_nil _ _
  | some hostPath =>
    rintro ⟨path, file, hpath, -, hfile⟩
    obtain rfl := Option.some.inj (List.cons.inj hpath).1
    rw [hnowhere] at hfile
    cases hfile

/-- The name of a FIFO in the jail leads to the FIFO. -/
theorem seen_fifo {kernelImageFileName : String} {cfg : Config} {w w' : W} {hostPath : String}
    {fifoPath : Option String} {file : F}
    (hlinks : LinksDone files kernelImageFileName cfg w w')
    (hsub : ∀ a ∈ asset "fifo" fifoPath, a ∈ assets kernelImageFileName cfg)
    (hfifo : fifoPath.filter (· ≠ "") = some hostPath)
    (hfile : files.named w hostPath = some file) :
    ∃ path, fifoPathAfter cfg fifoPath = some path ∧
      fileAt (files.contents w') (view.seenBy cfg path) = some file := by
  unfold LinksDone at hlinks
  unfold fifoPathAfter seenBy
  cases hjailer : cfg.jailerCfg with
  | none =>
    rw [hjailer] at hlinks
    obtain ⟨rfl, -⟩ := Option.filter_eq_some_iff.mp hfifo
    exact ⟨hostPath, rfl, by rw [hlinks]; exact hfile⟩
  | some jailerCfg =>
    rw [hjailer] at hlinks
    refine ⟨(fileName hostPath).getD "fifo", ?_, ?_⟩
    · rw [Option.isSome_some, if_pos rfl, relinked, hfifo]
    · have hasset : (⟨hostPath, (fileName hostPath).getD "fifo"⟩ : Asset) ∈
          assets kernelImageFileName cfg := by
        refine hsub _ ?_
        rw [asset, hfifo]
        exact List.mem_cons_self
      have hsingle : Lexical.isAbsolute ((fileName hostPath).getD "fifo").toList = false ∧
          Lexical.steps ((fileName hostPath).getD "fifo").toList =
            [.name ((fileName hostPath).getD "fifo").toList] := by
        cases hname : fileName hostPath with
        | none => exact ⟨rfl, rfl⟩
        | some name => exact steps_fileName hname
      dsimp only
      rw [view.entry_name hsingle.1 hsingle.2]
      exact linkAll_target hlinks (List.mem_map_of_mem hasset) hfile

theorem fifoPathAfter_none (cfg : Config) : fifoPathAfter cfg none = none := by
  unfold fifoPathAfter
  split <;> rfl

theorem fifoPathAfter_empty (cfg : Config) : fifoPathAfter cfg (some "") = some "" := by
  unfold fifoPathAfter
  split <;> rfl

/-- A plain file is announced under the path that it has outside. -/
theorem announced_file_iff {kernelImageFileName : String} {cfg : Config} {w w' : W} {path : String}
    {file : F} (hlinks : LinksDone files kernelImageFileName cfg w w') (hempty : path ≠ "")
    (hfile : files.named w path = some file) :
    view.Announced cfg w w' (some path) [some path] ↔
      view.Announceable kernelImageFileName cfg w none (some path) := by
  unfold LinksDone at hlinks
  constructor
  · rintro ⟨path', file', hpath', hfile', hseen⟩
    obtain rfl := Option.some.inj (List.cons.inj hpath').1
    refine ⟨fun h => hempty (Option.some.inj h), ?_⟩
    rintro jailerCfg _ hjailer - ⟨⟩
    rw [hjailer] at hlinks
    refine ⟨files.contents w', file', hlinks, hfile', ?_⟩
    unfold seenBy at hseen
    rwa [hjailer] at hseen
  · rintro ⟨-, hvisible⟩
    cases hjailer : cfg.jailerCfg with
    | none =>
      -- outside a jail nothing has happened to the file
      rw [hjailer] at hlinks
      refine ⟨path, file, rfl, hfile, ?_⟩
      unfold seenBy
      rw [hjailer, hlinks]
      exact hfile
    | some jailerCfg =>
      rw [hjailer] at hlinks
      obtain ⟨contents, file', hall, hfile', hseen⟩ := hvisible jailerCfg path hjailer rfl rfl
      obtain rfl := Option.some.inj (hlinks.symm.trans hall)
      refine ⟨path, file', rfl, hfile', ?_⟩
      unfold seenBy
      rw [hjailer]
      exact hseen

/-- **When the right path is announced**, of a FIFO and a file. -/
theorem announced_iff {kernelImageFileName : String} {cfg : Config} {w w' : W}
    {fifoPath filePath : Option String} (hlinks : LinksDone files kernelImageFileName cfg w w')
    (hsub : ∀ a ∈ asset "fifo" fifoPath, a ∈ assets kernelImageFileName cfg)
    (hcreated : ∀ path, createdPath fifoPath filePath = some path →
      (files.named w path).isSome = true) :
    view.Announced cfg w w' (createdPath fifoPath filePath)
        (((fifoPathAfter cfg fifoPath).or filePath).map some).toList ↔
      view.Announceable kernelImageFileName cfg w fifoPath filePath := by
  cases fifoPath with
  | some fifo =>
    by_cases hempty : fifo = ""
    · subst hempty
      rw [fifoPathAfter_empty]
      exact iff_of_false view.not_announced_empty fun h => h.1 rfl
    · have hfilter : (some fifo).filter (· ≠ "") = some fifo := by simpa using hempty
      have hpath : createdPath (some fifo) filePath = some fifo := by
        rw [createdPath, hfilter, Option.some_or]
      obtain ⟨file, hfile⟩ := Option.isSome_iff_exists.mp (hcreated fifo hpath)
      obtain ⟨path, hafter, hseen⟩ := view.seen_fifo hlinks hsub hfilter hfile
      rw [hpath, hafter]
      refine iff_of_true ⟨path, file, rfl, hfile, hseen⟩ ⟨?_, ?_⟩
      · rw [Option.some_or]
        exact fun h => hempty (Option.some.inj h)
      · rintro jailerCfg path' - ⟨⟩
  | none =>
    rw [fifoPathAfter_none, Option.none_or]
    cases filePath with
    | none => exact iff_of_true rfl ⟨by simp, by simp⟩
    | some path =>
      by_cases hempty : path = ""
      · subst hempty
        exact iff_of_false view.not_announced_empty fun h => h.1 rfl
      · have hpath : createdPath none (some path) = some path := by
          simpa [createdPath] using hempty
        obtain ⟨file, hfile⟩ := Option.isSome_iff_exists.mp (hcreated path hpath)
        rw [hpath]
        exact view.announced_file_iff hlinks hempty hfile

end RootView

/-! ### The three handlers -/

namespace Machine

open Prog

theorem linkFilesIfJailed_of_ok (files : HostFiles env E F) {kernelImageFileName : String}
    {s s' : Sys W} (h : linkFilesIfJailed env kernelImageFileName s = (.ok (), s')) :
    RootView.LinksDone files kernelImageFileName s.machine.cfg s.world s'.world ∧
      s'.trace = s.trace ∧
      s'.machine.cfg.logFifo = RootView.fifoPathAfter s.machine.cfg s.machine.cfg.logFifo ∧
      s'.machine.cfg.logPath = s.machine.cfg.logPath ∧
      s'.machine.cfg.metricsFifo =
        RootView.fifoPathAfter s.machine.cfg s.machine.cfg.metricsFifo ∧
      s'.machine.cfg.metricsPath = s.machine.cfg.metricsPath := by
  unfold linkFilesIfJailed at h
  rw [Op.cfg_bind] at h
  unfold RootView.LinksDone RootView.fifoPathAfter
  cases hjailer : s.machine.cfg.jailerCfg with
  | none =>
    rw [hjailer] at h
    cases h
    exact ⟨rfl, rfl, rfl, rfl, rfl, rfl⟩
  | some jailerCfg =>
    rw [hjailer] at h
    obtain ⟨hmachine, htrace, hall⟩ := linkFiles_of_ok files hjailer h
    rw [hmachine]
    exact ⟨hall, htrace, rfl, rfl, rfl, rfl⟩

/-- The calls that configure logging and metrics, all of which succeed. -/
theorem bootstrapLogging_of_ok {s s' : Sys W}
    (h : runHandler env .bootstrapLogging s = (.ok (), s')) :
    ∃ calls : List ClientCall,
      clientLog s'.trace = clientLog s.trace ++ calls.map (fun call => (call, none)) ∧
      calls.filterMap ClientCall.loggerPath =
        ((s.machine.cfg.logFifo.or s.machine.cfg.logPath).map some).toList ∧
      calls.filterMap ClientCall.metricsPath =
        ((s.machine.cfg.metricsFifo.or s.machine.cfg.metricsPath).map some).toList := by
  obtain ⟨log, hlog, hfollows⟩ := (issues_bootstrapLogging env s).of_ok h
  unfold bootstrapPlan at hfollows
  -- a path is announced exactly if it is there, the empty one too
  cases hlogger : s.machine.cfg.logFifo.or s.machine.cfg.logPath with
  | none =>
    rw [hlogger] at hfollows
    cases hmetrics : s.machine.cfg.metricsFifo.or s.machine.cfg.metricsPath with
    | none =>
      rw [hmetrics] at hfollows
      cases hfollows
      exact ⟨[], hlog, rfl, rfl⟩
    | some path =>
      rw [hmetrics] at hfollows
      cases hfollows with
      | made hrest =>
        cases hrest
        exact ⟨[_], hlog, rfl, rfl⟩
  | some path =>
    rw [hlogger] at hfollows
    cases hmetrics : s.machine.cfg.metricsFifo.or s.machine.cfg.metricsPath with
    | none =>
      rw [hmetrics] at hfollows
      cases hfollows with
      | made hrest =>
        cases hrest
        exact ⟨[_], hlog, rfl, rfl⟩
    | some path' =>
      rw [hmetrics] at hfollows
      cases hfollows with
      | made hrest =>
        cases hrest with
        | made hrest =>
          cases hrest
          exact ⟨[_, _], hlog, rfl, rfl⟩

end Machine

/-- **When the logger and the metrics are told the paths of their files**, in any run of the three
handlers that succeeds. -/
theorem logs_announced_iff (files : HostFiles env E F) (view : RootView files)
    {kernelImageFileName : String} {s s₁ s₂ s₃ : Sys W}
    (hcreate : Machine.createLogFiles env s = (.ok (), s₁))
    (hlink : Machine.linkFilesIfJailed env kernelImageFileName s₁ = (.ok (), s₂))
    (hannounce : Machine.runHandler env .bootstrapLogging s₂ = (.ok (), s₃)) :
    ∃ calls : List ClientCall,
      clientLog s₃.trace = clientLog s.trace ++ calls.map (fun call => (call, none)) ∧
      (view.Announced s.machine.cfg s₁.world s₂.world
          (createdPath s.machine.cfg.logFifo s.machine.cfg.logPath)
          (calls.filterMap ClientCall.loggerPath) ↔
        view.Announceable kernelImageFileName s.machine.cfg s₁.world s.machine.cfg.logFifo
          s.machine.cfg.logPath) ∧
      (view.Announced s.machine.cfg s₁.world s₂.world
          (createdPath s.machine.cfg.metricsFifo s.machine.cfg.metricsPath)
          (calls.filterMap ClientCall.metricsPath) ↔
        view.Announceable kernelImageFileName s.machine.cfg s₁.world s.machine.cfg.metricsFifo
          s.machine.cfg.metricsPath) := by
  obtain ⟨hcfg, htrace, hlog, hmetrics⟩ := Machine.createLogFiles_of_ok files hcreate
  obtain ⟨hlinks, htrace', hlogFifo, hlogPath, hmetricsFifo, hmetricsPath⟩ :=
    Machine.linkFilesIfJailed_of_ok files hlink
  obtain ⟨calls, hcalls, hloggers, hmetricses⟩ := Machine.bootstrapLogging_of_ok hannounce
  rw [hcfg] at hlinks hlogFifo hlogPath hmetricsFifo hmetricsPath
  refine ⟨calls, by rw [hcalls, htrace', htrace], ?_, ?_⟩
  · rw [hloggers, hlogFifo, hlogPath]
    refine view.announced_iff hlinks (fun a ha => ?_) hlog
    simp [assets, ha]
  · rw [hmetricses, hmetricsFifo, hmetricsPath]
    refine view.announced_iff hlinks (fun a ha => ?_) hmetrics
    simp [assets, ha]

/-- Paths inside a jail of the host without links. -/
def Shelf.rootView : RootView Shelf.hostFiles where
  entry root path :=
    if path = "" then none
    else some ((Lexical.place root.toList).below (Lexical.inside (Lexical.steps path.toList)))
  entry_empty _ := rfl
  entry_name {root name} hrelative hsteps := by
    have hname : name ≠ "" := by
      rintro rfl
      cases hsteps
    have hpath : pathJoin root name ≠ "" := by
      intro hempty
      have hnone := @steps_pathJoin root _ hrelative
      rw [hempty, hsteps] at hnone
      exact List.append_ne_nil_of_right_ne_nil _ (List.cons_ne_nil _ _) hnone.symm
    change _ = Shelf.entry _
    rw [if_neg hname, Shelf.entry, if_neg hpath, place_pathJoin, if_neg (by simp [hrelative]),
      hsteps]
    rfl

/-- A machine with paths for the log. -/
def loggedSys (jailed : Bool) (logFifo logPath : Option String) : Sys Shelf where
  machine :=
    { cfg :=
        { kernelImagePath := "/images/vmlinux"
          jailerCfg := if jailed then some { id := "vm", execFile := "/usr/bin/firecracker" }
            else none
          logFifo := logFifo
          logPath := logPath }
      handlers := defaultHandlers }
  world := .holding ["/images/vmlinux"]

/-- The machine after its log files are created. -/
def loggedCreated (jailed : Bool) (logFifo logPath : Option String) : Sys Shelf :=
  (Machine.createLogFiles Shelf.env (loggedSys jailed logFifo logPath)).2

/-- The machine after the links. -/
def loggedLinked (jailed : Bool) (logFifo logPath : Option String) : Sys Shelf :=
  (Machine.linkFilesIfJailed Shelf.env "vmlinux" (loggedCreated jailed logFifo logPath)).2

/-- The machine after the announcement. -/
def loggedAnnounced (jailed : Bool) (logFifo logPath : Option String) : Sys Shelf :=
  (Machine.runHandler Shelf.env .bootstrapLogging (loggedLinked jailed logFifo logPath)).2

/-- The FIFO of a jailed machine. -/
theorem logs_announced_fifo :
    ∃ calls : List ClientCall, Shelf.rootView.Announced
      (loggedSys true (some "/run/log.fifo") none).machine.cfg
      (loggedCreated true (some "/run/log.fifo") none).world
      (loggedLinked true (some "/run/log.fifo") none).world
      (createdPath (some "/run/log.fifo") none) (calls.filterMap ClientCall.loggerPath) := by
  have hcreate : Machine.createLogFiles Shelf.env (loggedSys true (some "/run/log.fifo") none) =
      (.ok (), loggedCreated true (some "/run/log.fifo") none) :=
    Prog.eq_of_fst (by decide +kernel)
  have hlink : Machine.linkFilesIfJailed Shelf.env "vmlinux"
      (loggedCreated true (some "/run/log.fifo") none) =
        (.ok (), loggedLinked true (some "/run/log.fifo") none) :=
    Prog.eq_of_fst (by decide +kernel)
  have hannounce : Machine.runHandler Shelf.env .bootstrapLogging
      (loggedLinked true (some "/run/log.fifo") none) =
        (.ok (), loggedAnnounced true (some "/run/log.fifo") none) :=
    Prog.eq_of_fst (by decide +kernel)
  obtain ⟨calls, -, hlogger, -⟩ := logs_announced_iff Shelf.hostFiles Shelf.rootView hcreate hlink
    hannounce
  refine ⟨calls, hlogger.mpr ⟨?_, ?_⟩⟩
  · decide
  · rintro jailerCfg path - ⟨⟩

/-- The three handlers. -/
def loggedRun : Op Shelf Unit := do
  Machine.createLogFiles Shelf.env
  Machine.linkFilesIfJailed Shelf.env "vmlinux"
  Machine.runHandler Shelf.env .bootstrapLogging

/-- **What is announced wrongly**: an empty path, and a plain file from inside a jail. -/
theorem announced_wrongly :
    (loggedRun (loggedSys false (some "") none)).1 = .ok () ∧
      (loggedRun (loggedSys true none (some "/var/log/fc.log"))).1 = .ok () ∧
      (clientLog (loggedAnnounced false (some "") none).trace).filterMap
        (fun entry => entry.1.loggerPath) = [some ""] ∧
      createdPath (some "") none = none ∧
      (clientLog (loggedAnnounced true none (some "/var/log/fc.log")).trace).filterMap
        (fun entry => entry.1.loggerPath) = [some "/var/log/fc.log"] ∧
      createdPath none (some "/var/log/fc.log") = some "/var/log/fc.log" ∧
      Shelf.hostFiles.named (loggedCreated true none (some "/var/log/fc.log")).world
        "/var/log/fc.log" = some "/var/log/fc.log" ∧
      fileAt (loggedLinked true none (some "/var/log/fc.log")).world
        (Shelf.rootView.entry "/srv/jailer/firecracker/vm/root" "/var/log/fc.log") = none := by
  refine ⟨?_, ?_, ?_, ?_, ?_, ?_, ?_, ?_⟩ <;> decide +kernel

end FirecrackerSdk
