import FirecrackerSdk.PluginChain

/-!
# Undoing a chain that fails halfway

`invoke_cni` runs the plugins with `DEL`, to remove what an earlier invocation may have left, and
then with `ADD`. The closure that would run them with `DEL` again is built before, but handed out
only together with a result: when the second pass fails the closure is dropped, and nothing is run
any more. So what the plugins before the failing one have added stays
(`FirecrackerSdk.bridge_stays_added`).

A failing call leaves nothing behind exactly when the first plugin added nothing: later ones are
only run after it (`FirecrackerSdk.failed_add_undone_iff`). What was run is read off the notes of an
environment that takes notes.
-/

namespace FirecrackerSdk

/-- Whether a plugin was run to add a network. -/
def PluginRun.adds (run : PluginRun) : Bool := decide (run.command = some CniCommand.add.text)

/-- Whether a plugin was run to delete one. -/
def PluginRun.deletes (run : PluginRun) : Bool := decide (run.command = some CniCommand.del.text)

/-- Whether the plugin itself ended with success, seen or not: it has done what it was told. -/
def PluginRun.exited (run : PluginRun) : Bool :=
  match run.process with
  | .ok process => process.status.success
  | .error _ => false

namespace RealCni

/-- The closures that a call hands to its caller. -/
def handedOver : Outcome Error (CniResult × List CniCleanup) → List CniCleanup
  | .ok (_, cleanups) => cleanups
  | .err _ => []
  | .dropped => []

/-- **A failing call leaves no network behind**: each plugin that has added one is run with `DEL`
afterwards, or a closure that does so has been handed out. `same` says of two positions in the list
of runs whether it is the same plugin that was run there. -/
def AddsUndone (same : ℕ → ℕ → Prop) (config : CniConfiguration)
    (outcome : Outcome Error (CniResult × List CniCleanup)) (runs : List PluginRun) : Prop :=
  (∃ error, outcome = .err error) →
    ∀ i run, runs[i]? = some run → run.adds = true → run.exited = true →
      (∃ j later, i < j ∧ runs[j]? = some later ∧ later.deletes = true ∧ same i j) ∨
        ∃ cleanup ∈ handedOver outcome, cleanup.config = config

variable {W : Type} (env : CniEnv W)

/-- **Every plugin of the list added its network**: as many were run as the configuration that is
loaded has, all succeeded, and the last output is a result. -/
def Completes (config : CniConfiguration) (w : W) (runs : List PluginRun) : Prop :=
  ∃ networkConfig w₁ plugins, loadNetworkConfig env config w = (.ok networkConfig, w₁) ∧
    RealCni.plugins networkConfig = some plugins ∧ runs.length = plugins.length ∧
    (∀ run ∈ runs, succeeds env .add run.process = true) ∧
    ∃ run value result, runs.getLast? = some run ∧ valueOf env run.process = some value ∧
      env.fromValue value = .ok result

theorem exited_of_succeeds {run : PluginRun} {command : CniCommand}
    (h : succeeds env command run.process = true) : run.exited = true := by
  have houtput : outputOf run.process ≠ none := fun hnone => by
    rw [succeeds_eq_false env hnone] at h
    cases h
  unfold PluginRun.exited
  unfold outputOf at houtput
  cases hprocess : run.process with
  | error error =>
    rw [hprocess] at houtput
    exact absurd rfl houtput
  | ok process =>
    rw [hprocess] at houtput
    dsimp only at houtput ⊢
    split at houtput
    · split at houtput
      · rename_i hsuccess
        exact hsuccess
      · exact absurd rfl houtput
    · exact absurd rfl houtput

/-! ### The two passes -/

/-- Loading a configuration runs no plugin. -/
theorem loadNetworkConfig_recording (config : CniConfiguration) (s : Watched W CniNote) :
    ∃ s₁ : Watched W CniNote, loadNetworkConfig env.recording config s =
        ((loadNetworkConfig env config s.state).1, s₁) ∧
      s₁.state = (loadNetworkConfig env config s.state).2 ∧
      pluginRuns s₁.log = pluginRuns s.log := by
  obtain ⟨loading, hload, hlooks⟩ :=
    mirrors_loadNetworkConfig env (P := CniNote.Looks) (fun _ h => h) config s.log
  refine ⟨_, hload, rfl, ?_⟩
  rw [pluginRuns_append, pluginRuns_of_looks hlooks, List.append_nil]

/-- An invocation that finds no plugins runs none. -/
theorem invokeNetworkList_not_loaded {config : CniConfiguration} {command : CniCommand}
    {s : Watched W CniNote}
    (h : ∀ networkConfig w₁ plugins,
      loadNetworkConfig env config s.state = (.ok networkConfig, w₁) →
      RealCni.plugins networkConfig ≠ some plugins) :
    pluginRuns (invokeNetworkList env.recording config command s).2.log = pluginRuns s.log ∧
      ∀ result, (invokeNetworkList env.recording config command s).1 ≠ .ok result := by
  obtain ⟨s₁, hload, -, hsame⟩ := loadNetworkConfig_recording env config s
  unfold invokeNetworkList
  rcases hplain : loadNetworkConfig env config s.state with ⟨networkConfig | error | _, w₁⟩
  · rw [hplain] at hload
    rw [Prog.bind_of_ok hload]
    cases hplugins : RealCni.plugins networkConfig with
    | some plugins => exact absurd hplugins (h networkConfig w₁ plugins hplain)
    | none => exact ⟨hsame, by simp⟩
  · rw [hplain] at hload
    rw [Prog.bind_of_err hload]
    exact ⟨hsame, by simp⟩
  · rw [hplain] at hload
    rw [Prog.bind_of_dropped hload]
    exact ⟨hsame, by simp⟩

/-- The plugins that an invocation runs, once they are known. -/
theorem invokeNetworkList_runs {config : CniConfiguration} {command : CniCommand}
    {s : Watched W CniNote} {w₁ : W} {networkConfig : JsonValue} {plugins : List JsonValue}
    (hload : loadNetworkConfig env config s.state = (.ok networkConfig, w₁))
    (hplugins : RealCni.plugins networkConfig = some plugins) :
    ∃ visits ending, pluginRuns (invokeNetworkList env.recording config command s).2.log =
        pluginRuns s.log ++ visits.map (PluginVisit.run env config command) ∧
      Chained env config command networkConfig none (command.order plugins) visits ∧
      Ended env config command (command.order plugins) visits ending
        (invokeNetworkList env.recording config command s).1 := by
  obtain ⟨s₁, hrecorded, -, hsame⟩ := loadNetworkConfig_recording env config s
  rw [hload] at hrecorded
  obtain ⟨visits, ending, hlog, hchained, hended⟩ :=
    @invokeNetworkList_ended W env config command _ _ _ _ hrecorded hplugins
  refine ⟨visits, ending, ?_, hchained, hended⟩
  rw [hlog, pluginRuns_append, pluginRuns_append, PluginVisit.pluginRuns_flatMap_notes, hsame,
    pluginRuns_of_looks (hended.looks env), List.append_nil]

/-- The plugins that an invocation runs are run for its command. -/
theorem invokeNetworkList_command (config : CniConfiguration) (command : CniCommand)
    (s : Watched W CniNote) :
    ∃ runs, pluginRuns (invokeNetworkList env.recording config command s).2.log =
        pluginRuns s.log ++ runs ∧ ∀ run ∈ runs, run.command = some command.text := by
  by_cases h : ∀ networkConfig w₁ plugins,
      loadNetworkConfig env config s.state = (.ok networkConfig, w₁) →
      RealCni.plugins networkConfig ≠ some plugins
  · exact ⟨[], by simp [(invokeNetworkList_not_loaded env h).1], by simp⟩
  · push Not at h
    obtain ⟨networkConfig, w₁, plugins, hload, hplugins⟩ := h
    obtain ⟨visits, -, hruns, -⟩ :=
      @invokeNetworkList_runs W env config command s _ _ _ hload hplugins
    refine ⟨_, hruns, fun run hmem => ?_⟩
    obtain ⟨visit, -, rfl⟩ := List.mem_map.mp hmem
    rfl

/-- If the first plugin has added nothing, no other was run. -/
theorem Chained.head_exited {config : CniConfiguration} {command : CniCommand}
    {networkConfig : JsonValue} {prev : Option JsonValue} {order : List JsonValue}
    {visits : List PluginVisit}
    (h : Chained env config command networkConfig prev order visits)
    (hhead : ∀ run, (visits.map (PluginVisit.run env config command)).head? = some run →
      run.exited = false) :
    ∀ run ∈ visits.map (PluginVisit.run env config command), run.exited = false := by
  cases visits with
  | nil => simp
  | cons first rest =>
    have hfirst := hhead _ rfl
    have hrest : rest = [] := by
      by_contra hne
      have hsuccess := (h.get env (i := 0) rfl).2 (by simpa using List.length_pos_iff.mpr hne)
      have hexited : (first.run env config command).exited = true :=
        exited_of_succeeds env hsuccess
      rw [hexited] at hfirst
      cases hfirst
    rw [hrest]
    exact List.forall_mem_singleton.mpr hfirst

/-- **The two passes of `invoke_cni`**: it ends with the first one, without a result, or goes on to
the second. -/
theorem invokeCni_cases (config : CniConfiguration) (w : W) :
    ((invokeCni env config w).2 = (invokeNetworkList env config .del w).2 ∧
        ∀ result, (invokeCni env config w).1 ≠ .ok result) ∨
      invokeCni env config w =
        (invokeNetworkList env config .add >>= handOut config)
          (invokeNetworkList env config .del w).2 := by
  unfold invokeCni
  -- an error of the first pass only counts where `force` is not set
  rcases hdel : invokeNetworkList env config .del w with ⟨result | error | _, w₁⟩
  · rw [Prog.bind_of_ok (Prog.attempt_of_ok hdel)]
    exact .inr rfl
  · rw [Prog.bind_of_ok (Prog.attempt_of_err hdel)]
    cases config.force with
    | true => exact .inr rfl
    | false => exact .inl ⟨rfl, by simp⟩
  · rw [Prog.bind_of_dropped (Prog.attempt_of_dropped hdel)]
    exact .inl ⟨rfl, by simp⟩

/-! ### Which failing calls leave nothing behind -/

/-- The plugins that were run to add a network come after those that were run to delete one. -/
theorem filter_adds {dels adds : List PluginRun}
    (hdels : ∀ run ∈ dels, run.command = some CniCommand.del.text)
    (hadds : ∀ run ∈ adds, run.command = some CniCommand.add.text) :
    (dels ++ adds).filter PluginRun.adds = adds := by
  have hnone : dels.filter PluginRun.adds = [] := by
    refine List.filter_eq_nil_iff.mpr fun run hmem => ?_
    rw [PluginRun.adds, hdels run hmem]
    decide
  have hall : adds.filter PluginRun.adds = adds := by
    refine List.filter_eq_self.mpr fun run hmem => ?_
    rw [PluginRun.adds, hadds run hmem]
    decide
  rw [List.filter_append, hnone, hall, List.nil_append]

/-- A call that runs no plugin with `ADD` has nothing to undo. -/
theorem addsUndone_of_dels {same : ℕ → ℕ → Prop} {config : CniConfiguration}
    {outcome : Outcome Error (CniResult × List CniCleanup)} {dels : List PluginRun}
    (hdels : ∀ run ∈ dels, run.command = some CniCommand.del.text) :
    AddsUndone same config outcome dels := by
  rintro - i run hrun hadds -
  rw [PluginRun.adds, hdels run (List.mem_of_getElem? hrun)] at hadds
  exact absurd hadds (by decide)

/-- When a call fails, nothing was added if the first plugin added nothing, and what it has added
stays. -/
theorem addsUndone_iff_head {same : ℕ → ℕ → Prop} {config : CniConfiguration} {error : Error}
    {dels adds : List PluginRun}
    (hdels : ∀ run ∈ dels, run.command = some CniCommand.del.text)
    (hadds : ∀ run ∈ adds, run.command = some CniCommand.add.text)
    (hhead : (∀ run, adds.head? = some run → run.exited = false) →
      ∀ run ∈ adds, run.exited = false) :
    AddsUndone same config (.err error) (dels ++ adds) ↔
      ∀ run, adds.head? = some run → run.exited = false := by
  constructor
  · intro hundone run hfirst
    obtain ⟨rest, rfl⟩ := List.head?_eq_some_iff.mp hfirst
    have hadd : run.adds = true := by
      rw [PluginRun.adds, hadds run List.mem_cons_self]
      decide
    by_contra hexited
    rcases hundone ⟨error, rfl⟩ dels.length run (by simp) hadd (by simpa using hexited) with
      ⟨j, later, hj, hlater, hdel, -⟩ | ⟨cleanup, hcleanup, -⟩
    · -- what comes later was run to add a network, too
      rw [List.getElem?_append_right hj.le] at hlater
      rw [PluginRun.deletes, hadds later (List.mem_of_getElem? hlater)] at hdel
      exact absurd hdel (by decide)
    · exact absurd hcleanup List.not_mem_nil
  · rintro hfirst - i run hrun hadd hexited
    rcases List.mem_append.mp (List.mem_of_getElem? hrun) with hmem | hmem
    · rw [PluginRun.adds, hdels run hmem] at hadd
      exact absurd hadd (by decide)
    · rw [hhead hfirst run hmem] at hexited
      cases hexited

/-- A chain of which every plugin has added its network returns the result of the last. -/
theorem Ended.ok_of_completes {config : CniConfiguration} {order : List JsonValue}
    {visits : List PluginVisit} {ending : List CniNote}
    {outcome : Outcome Error (Option CniResult)}
    (h : Ended env config .add order visits ending outcome)
    (hlength : visits.length = order.length)
    (hall : ∀ visit ∈ visits, succeeds env .add visit.process = true) {visit : PluginVisit}
    {value : JsonValue} {result : CniResult} (hlast : visits.getLast? = some visit)
    (hvalue : valueOf env visit.process = some value) (hresult : env.fromValue value = .ok result) :
    outcome = .ok (some result) := by
  cases h with
  | deleted hdel => cases hdel
  | nothing _ _ hvisits =>
    rw [hvisits] at hlast
    cases hlast
  | added _ _ _ hlast' hvalue' hresult' =>
    obtain rfl := Option.some.inj (hlast.symm.trans hlast')
    obtain rfl := Option.some.inj (hvalue.symm.trans hvalue')
    obtain rfl := Except.ok.inj (hresult.symm.trans hresult')
    rfl
  | undecodable _ _ _ hlast' hvalue' htext =>
    obtain rfl := Option.some.inj (hlast.symm.trans hlast')
    obtain rfl := Option.some.inj (hvalue.symm.trans hvalue')
    rw [hresult] at htext
    cases htext
  | failed hlast' hfail =>
    have hfalse := hfail.succeeds_eq_false env
    rw [hall _ (List.mem_of_getLast? hlast')] at hfalse
    cases hfalse
  | notStarted _ hnext _ =>
    rw [List.getElem?_eq_none hlength.ge] at hnext
    cases hnext

/-- Whether all plugins have added their networks, told by the visits. -/
theorem completes_iff {config : CniConfiguration} {w w₁ : W} {networkConfig : JsonValue}
    {plugins : List JsonValue} (hload : loadNetworkConfig env config w = (.ok networkConfig, w₁))
    (hplugins : RealCni.plugins networkConfig = some plugins) (visits : List PluginVisit) :
    Completes env config w (visits.map (PluginVisit.run env config .add)) ↔
      visits.length = plugins.length ∧
        (∀ visit ∈ visits, succeeds env .add visit.process = true) ∧
        ∃ visit value result, visits.getLast? = some visit ∧
          valueOf env visit.process = some value ∧ env.fromValue value = .ok result := by
  constructor
  · rintro ⟨networkConfig', w₁', plugins', hload', hplugins', hlength, hall, run, value, result,
      hlast, hvalue, hresult⟩
    obtain ⟨rfl, rfl⟩ : networkConfig = networkConfig' ∧ w₁ = w₁' := by
      simpa using hload.symm.trans hload'
    obtain rfl := Option.some.inj (hplugins.symm.trans hplugins')
    rw [List.getLast?_map] at hlast
    obtain ⟨visit, hvisit, rfl⟩ := Option.map_eq_some_iff.mp hlast
    exact ⟨by simpa using hlength, fun visit hmem => hall _ (List.mem_map_of_mem hmem),
      visit, value, result, hvisit, hvalue, hresult⟩
  · rintro ⟨hlength, hall, visit, value, result, hlast, hvalue, hresult⟩
    refine ⟨networkConfig, w₁, plugins, hload, hplugins, by simpa using hlength, fun run hmem => ?_,
      visit.run env config .add, value, result, ?_, hvalue, hresult⟩
    · obtain ⟨visit, hvisit, rfl⟩ := List.mem_map.mp hmem
      exact hall visit hvisit
    · rw [List.getLast?_map, hlast]
      rfl

/-- The second pass, once its plugins are known. -/
theorem addPass_undone_iff {same : ℕ → ℕ → Prop} {config : CniConfiguration}
    {s : Watched W CniNote} {w₁ : W} {networkConfig : JsonValue} {plugins : List JsonValue}
    (hload : loadNetworkConfig env config s.state = (.ok networkConfig, w₁))
    (hplugins : RealCni.plugins networkConfig = some plugins) {dels : List PluginRun}
    (hdels : ∀ run ∈ dels, run.command = some CniCommand.del.text) :
    ∃ adds, pluginRuns
        ((invokeNetworkList env.recording config .add >>= handOut config) s).2.log =
          pluginRuns s.log ++ adds ∧
      (∀ run ∈ adds, run.command = some CniCommand.add.text) ∧
      (AddsUndone same config
          ((invokeNetworkList env.recording config .add >>= handOut config) s).1 (dels ++ adds) ↔
        (∀ run, adds.head? = some run → run.exited = false) ∨
          Completes env config s.state adds) := by
  obtain ⟨visits, ending, hruns, hchained, hended⟩ :=
    @invokeNetworkList_runs W env config .add s _ _ _ hload hplugins
  have hadds : ∀ run ∈ visits.map (PluginVisit.run env config .add),
      run.command = some CniCommand.add.text := by
    intro run hmem
    obtain ⟨visit, -, rfl⟩ := List.mem_map.mp hmem
    rfl
  refine ⟨visits.map (PluginVisit.run env config .add), ?_⟩
  rw [completes_iff env hload hplugins]
  rcases hpass : invokeNetworkList env.recording config .add s with ⟨outcome, s₂⟩
  rw [hpass] at hruns hended
  -- a chain that is complete returns a result, so that a call that fails is not
  have herr : ∀ error, (∀ result, outcome ≠ .ok (some result)) →
      (AddsUndone same config (.err error)
          (dels ++ visits.map (PluginVisit.run env config .add)) ↔
        (∀ run, (visits.map (PluginVisit.run env config .add)).head? = some run →
            run.exited = false) ∨
          visits.length = plugins.length ∧
            (∀ visit ∈ visits, succeeds env .add visit.process = true) ∧
            ∃ visit value result, visits.getLast? = some visit ∧
              valueOf env visit.process = some value ∧ env.fromValue value = .ok result) := by
    intro error hno
    rw [addsUndone_iff_head hdels hadds (hchained.head_exited env), or_iff_left]
    rintro ⟨hlength, hall, visit, value, result, hlast, hvalue, hresult⟩
    exact hno result (hended.ok_of_completes env hlength hall hlast hvalue hresult)
  cases hended with
  | deleted hdel => cases hdel
  | nothing hadd horder hnil =>
    rw [Prog.bind_of_ok hpass]
    exact ⟨hruns, hadds, herr _ (by simp)⟩
  | added hadd hlength hall hlast hvalue hresult =>
    rw [Prog.bind_of_ok hpass]
    refine ⟨hruns, hadds, iff_of_true ?_ (.inr ⟨hlength, hall, _, _, _, hlast, hvalue, hresult⟩)⟩
    rintro ⟨error, herror⟩
    cases herror
  | undecodable hadd hlength hall hlast hvalue htext =>
    rw [Prog.bind_of_err hpass]
    exact ⟨hruns, hadds, herr _ (by simp)⟩
  | failed hlast hfail =>
    rw [Prog.bind_of_err hpass]
    exact ⟨hruns, hadds, herr _ (by simp)⟩
  | notStarted hall hnext hcause =>
    rw [Prog.bind_of_err hpass]
    exact ⟨hruns, hadds, herr _ (by simp)⟩

end RealCni

open RealCni in
/-- **Which calls of `invoke_cni` leave no network behind when they fail**: those in which the
first plugin adds nothing, and those in which every plugin adds its network and the last one
prints a result, which do not fail. Which runs are taken to be of the same plugin does not
matter. -/
theorem failed_add_undone_iff {W : Type} (env : CniEnv W) (same : ℕ → ℕ → Prop)
    (config : CniConfiguration) (w : W) :
    (∃ log, invokeCni env.recording config ⟨w, []⟩ =
      ((invokeCni env config w).1, ⟨(invokeCni env config w).2, log⟩)) ∧
    (AddsUndone same config (invokeCni env config w).1
        (pluginRuns (invokeCni env.recording config ⟨w, []⟩).2.log) ↔
      (∀ run, ((pluginRuns (invokeCni env.recording config ⟨w, []⟩).2.log).filter
          PluginRun.adds).head? = some run → run.exited = false) ∨
        Completes env config (invokeNetworkList env config .del w).2
          ((pluginRuns (invokeCni env.recording config ⟨w, []⟩).2.log).filter
            PluginRun.adds)) := by
  obtain ⟨log, hmirror, -⟩ := mirrors_invokeCni (w := w) env config []
  obtain ⟨dellog, hdelMirror, -⟩ := mirrors_invokeNetworkList (w := w) env config .del []
  obtain ⟨dels, hdels, hdel⟩ := invokeNetworkList_command env config .del ⟨w, []⟩
  rw [hdelMirror] at hdels
  have hnoAdds : dels.filter PluginRun.adds = [] := by
    simpa using @filter_adds dels [] hdel (by simp)
  refine ⟨⟨_, hmirror⟩, ?_⟩
  have houtcome : (invokeCni env config w).1 = (invokeCni env.recording config ⟨w, []⟩).1 := by
    rw [hmirror]
  rw [houtcome]
  generalize hs₁ : (invokeNetworkList env config .del w).2 = w₁ at *
  rcases invokeCni_cases env.recording config ⟨w, []⟩ with ⟨hstate, -⟩ | hgo
  · rw [hdelMirror] at hstate
    have hruns : pluginRuns (invokeCni env.recording config ⟨w, []⟩).2.log = dels := by
      rw [hstate]
      exact hdels
    rw [hruns, hnoAdds]
    exact iff_of_true (addsUndone_of_dels hdel) (.inl (by simp))
  · rw [hdelMirror] at hgo
    by_cases hloaded : ∀ networkConfig w₂ plugins,
        loadNetworkConfig env config w₁ = (.ok networkConfig, w₂) →
        RealCni.plugins networkConfig ≠ some plugins
    · -- without plugins the second pass runs none
      obtain ⟨hsame, hfail⟩ :=
        @invokeNetworkList_not_loaded W env config .add ⟨w₁, [] ++ dellog⟩ hloaded
      obtain ⟨hstop, -⟩ := @Prog.bind_of_not_ok _ _ _ _ _ (handOut config) _ hfail
      have hruns : pluginRuns (invokeCni env.recording config ⟨w, []⟩).2.log = dels := by
        rw [hgo, hstop, hsame]
        exact hdels
      rw [hruns, hnoAdds]
      exact iff_of_true (addsUndone_of_dels hdel) (.inl (by simp))
    · push Not at hloaded
      obtain ⟨networkConfig, w₂, plugins, hload, hplugins⟩ := hloaded
      obtain ⟨adds, hruns, hadds, hiff⟩ := @addPass_undone_iff W env same config
        ⟨w₁, [] ++ dellog⟩ w₂ networkConfig plugins hload hplugins dels hdel
      have hall : pluginRuns (invokeCni env.recording config ⟨w, []⟩).2.log = dels ++ adds := by
        rw [hgo, hruns]
        exact congrArg (· ++ adds) hdels
      rw [hall, filter_adds hdel hadds, hgo]
      exact hiff

open RealCni in
/-- **The bridge stays added**: the tuning plugin fails, the call returns its error, and the bridge
plugin, which has added its network, is not run again – nor is any other. -/
theorem bridge_stays_added :
    ¬AddsUndone (fun _ _ => True) fcnetConfig (invokeCni (fcnetWorld (.code 1)) fcnetConfig ()).1
      (pluginRuns (invokeCni (fcnetWorld (.code 1)).recording fcnetConfig ⟨(), []⟩).2.log) := by
  have hfail : (invokeCni (fcnetWorld (.code 1)) fcnetConfig ()).1 =
      .err (.process "CNI plugin \"tuning\" exited with status exit status: 1") := by
    decide +kernel
  have hruns : ((pluginRuns (invokeCni (fcnetWorld (.code 1)).recording fcnetConfig
      ⟨(), []⟩).2.log).map fun run => (run.program, run.adds, run.deletes, run.exited)) =
      [("/opt/cni/bin/tuning", false, true, true), ("/opt/cni/bin/bridge", false, true, true),
        ("/opt/cni/bin/bridge", true, false, true),
        ("/opt/cni/bin/tuning", true, false, false)] := by decide +kernel
  generalize pluginRuns (invokeCni (fcnetWorld (.code 1)).recording fcnetConfig ⟨(), []⟩).2.log =
    runs at hruns ⊢
  rw [hfail]
  obtain ⟨del₁, rest, rfl, -, hruns⟩ := List.map_eq_cons_iff.mp hruns
  obtain ⟨del₀, rest, rfl, -, hruns⟩ := List.map_eq_cons_iff.mp hruns
  obtain ⟨add₀, rest, rfl, hadd₀, hruns⟩ := List.map_eq_cons_iff.mp hruns
  obtain ⟨add₁, rest, rfl, hadd₁, hruns⟩ := List.map_eq_cons_iff.mp hruns
  obtain rfl := List.map_eq_nil_iff.mp hruns
  simp only [Prod.mk.injEq] at hadd₀ hadd₁
  intro hundone
  rcases hundone ⟨_, rfl⟩ 2 add₀ rfl hadd₀.2.1 hadd₀.2.2.2 with
    ⟨j, later, hj, hlater, hdel, -⟩ | ⟨cleanup, hcleanup, -⟩
  · -- the last run is of the tuning plugin, with `ADD`
    obtain rfl | hbeyond : j = 3 ∨ 4 ≤ j := by omega
    · obtain rfl := Option.some.inj hlater
      rw [hadd₁.2.2.1] at hdel
      cases hdel
    · rw [List.getElem?_eq_none hbeyond] at hlater
      cases hlater
  · exact absurd hcleanup List.not_mem_nil

end FirecrackerSdk
