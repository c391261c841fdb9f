import FirecrackerSdk.PluginNotes

/-!
# The chain of plugins

What `invoke_network_list` asks of the world for a list of plugins, whatever the plugins do. A
plugin is either not started (`FirecrackerSdk.RealCni.NotStarted`), or its program is found and run
once on its input (`FirecrackerSdk.PluginVisit`), and only one that succeeds
(`FirecrackerSdk.RealCni.succeeds`) lets the loop go on. By induction over the list the plugins
that are run are the first ones in the order of the command, all but the last of them succeed,
and each is handed the result of the one before it if a network is added
(`FirecrackerSdk.RealCni.runPlugins_chained`).

The statements are about the notes of an environment that takes notes, and so about every question
that is asked; that they hold of the environment it is made of is
`FirecrackerSdk.RealCni.mirrors_invokeNetworkList`.
-/

namespace FirecrackerSdk

namespace RealCni

variable {W : Type} (env : CniEnv W)

/-! ### What a process amounts to -/

/-- The output of a plugin that was started, took its input, was waited for, and exited with
success. -/
def outputOf : Except IoError PluginProcess → Option (List UInt8)
  | .error _ => none
  | .ok process =>
    match process.written, process.waited with
    | .ok _, .ok _ => if process.status.success then some process.stdout else none
    | _, _ => none

/-- The output, if it is JSON. -/
def valueOf (process : Except IoError PluginProcess) : Option JsonValue :=
  (outputOf process).bind fun output => (env.fromSlice output).toOption

/-- Whether the loop goes on after the plugin: the output is only read when a network is added. -/
def succeeds (command : CniCommand) (process : Except IoError PluginProcess) : Bool :=
  match command with
  | .add => (valueOf env process).isSome
  | .del => (outputOf process).isSome

/-- What the next plugin is handed, after one that was handed `prev`. -/
def handOn (command : CniCommand) (prev : Option JsonValue)
    (process : Except IoError PluginProcess) : Option JsonValue :=
  match command with
  | .add => valueOf env process
  | .del => prev

/-- **Why the loop ends with a plugin that was run**: `run_plugin` makes an error of what became of
it, or what it printed for the next one is not JSON. -/
inductive Fails (command : CniCommand) (pluginType : String)
    (process : Except IoError PluginProcess) : Error → Prop where
  | unsuccessful {error : Error}
      (h : pluginResult env.unprintable pluginType process = .error error) :
      Fails command pluginType process error
  | notJson {output : List UInt8} {text : String} (hadd : command = .add)
      (houtput : outputOf process = some output) (htext : env.fromSlice output = .error text) :
      Fails command pluginType process (.json text)

/-- **What `run_plugin` returns** is the output of the process, or an error if there is none. -/
theorem pluginResult_cases (unprintable : Char → Bool) (pluginType : String)
    (process : Except IoError PluginProcess) :
    (∃ output, outputOf process = some output ∧
        pluginResult unprintable pluginType process = .ok output) ∨
      (outputOf process = none ∧
        ∃ error, pluginResult unprintable pluginType process = .error error) := by
  unfold outputOf pluginResult
  rcases process with error | ⟨written, waited, status, stdout, stderr⟩
  · exact .inr ⟨rfl, _, rfl⟩
  · rcases written with error | _
    · exact .inr ⟨rfl, _, rfl⟩
    · rcases waited with error | _
      · exact .inr ⟨rfl, _, rfl⟩
      · cases hstatus : status.success with
        | true => exact .inl ⟨stdout, by simp [hstatus], by simp [hstatus]⟩
        | false => exact .inr ⟨by simp [hstatus], by simp [hstatus]⟩

/-- A plugin without an output has failed. -/
theorem succeeds_eq_false {command : CniCommand} {process : Except IoError PluginProcess}
    (h : outputOf process = none) : succeeds env command process = false := by
  unfold succeeds valueOf
  rw [h]
  cases command <;> rfl

theorem Fails.succeeds_eq_false {command : CniCommand} {pluginType : String}
    {process : Except IoError PluginProcess} {error : Error}
    (h : Fails env command pluginType process error) : succeeds env command process = false := by
  cases h with
  | unsuccessful herror =>
    rcases pluginResult_cases env.unprintable pluginType process with ⟨output, -, hok⟩ | ⟨hnone, -⟩
    · rw [hok] at herror
      cases herror
    · exact RealCni.succeeds_eq_false env hnone
  | notJson hadd houtput htext =>
    subst hadd
    dsimp only [succeeds, valueOf]
    rw [houtput, Option.bind_some, htext]
    rfl

/-! ### One plugin -/

/-- **What a plugin is given**: the fields of its own configuration, the version and the name of
the network where it has none, and what is handed on to it as `prevResult`. -/
structure PluginInput (networkConfig plugin : JsonValue) (prev : Option JsonValue)
    (input : JsonValue) : Prop where
  object : input.asObject.isSome = true
  own : ∀ key, key ≠ "prevResult" → ∀ value, plugin.get key = some value →
    input.get key = some value
  filled : ∀ key ∈ ["cniVersion", "name"], plugin.get key = none →
    input.get key = networkConfig.get key
  others : ∀ key ∉ ["cniVersion", "name", "prevResult"], plugin.get key = none →
    input.get key = none
  prevResult : input.get "prevResult" = prev.or (plugin.get "prevResult")

theorem get_fillKey (networkFields fields : List (String × JsonValue)) (key k : String) :
    SortedMap.get k (fillKey networkFields fields key) =
      if k = key then (SortedMap.get k fields).or (SortedMap.get k networkFields)
      else SortedMap.get k fields := by
  unfold fillKey
  split
  · rename_i value hfields hnetwork
    rw [SortedMap.get_insert]
    split_ifs with hk
    · rw [hk, hfields, hnetwork]
      rfl
    · rfl
  · rename_i hnone
    split_ifs with hk
    · subst hk
      cases hfields : SortedMap.get k fields with
      | some value => rfl
      | none =>
        cases hnetwork : SortedMap.get k networkFields with
        | none => rfl
        | some value => exact absurd hnetwork (hnone value hfields)
    · rfl

/-- The fields of a plugin after the loop of `plugin_input`. -/
theorem get_filled (networkFields fields : List (String × JsonValue)) (key : String) :
    SortedMap.get key (["cniVersion", "name"].foldl (fillKey networkFields) fields) =
      if key = "cniVersion" ∨ key = "name" then
        (SortedMap.get key fields).or (SortedMap.get key networkFields)
      else SortedMap.get key fields := by
  rw [List.foldl_cons, List.foldl_cons, List.foldl_nil, get_fillKey, get_fillKey]
  by_cases hversion : key = "cniVersion"
  · subst hversion
    simp
  · simp [hversion]

/-- The spec of `plugin_input`. -/
theorem pluginInput_spec {networkConfig plugin input : JsonValue} {prev : Option JsonValue}
    (h : pluginInput networkConfig plugin prev = .ok input) :
    PluginInput networkConfig plugin prev input := by
  unfold pluginInput at h
  split at h
  · cases h
  · cases h
  · rename_i networkFields fields hnetwork hplugin
    dsimp only at h
    have hnet : ∀ key, networkConfig.get key = SortedMap.get key networkFields := fun key => by
      rw [JsonValue.get, hnetwork]
      rfl
    have hplug : ∀ key, plugin.get key = SortedMap.get key fields := fun key => by
      rw [JsonValue.get, hplugin]
      rfl
    -- the keys of the input, whether there is something to hand on or not
    have hkeys : ∃ final, input = .object final ∧ ∀ key, SortedMap.get key final =
        if key = "prevResult" then prev.or (SortedMap.get key fields)
        else if key = "cniVersion" ∨ key = "name" then
          (SortedMap.get key fields).or (SortedMap.get key networkFields)
        else SortedMap.get key fields := by
      cases prev with
      | none =>
        refine ⟨_, (Except.ok.inj h).symm, fun key => ?_⟩
        rw [get_filled]
        by_cases hprev : key = "prevResult"
        · subst hprev
          simp
        · simp [hprev]
      | some value =>
        refine ⟨_, (Except.ok.inj h).symm, fun key => ?_⟩
        rw [SortedMap.get_insert, get_filled]
        rfl
    obtain ⟨final, rfl, hfinal⟩ := hkeys
    have hget : ∀ key, (JsonValue.object final).get key = SortedMap.get key final := fun _ => rfl
    constructor
    · rfl
    · intro key hkey value hvalue
      rw [hplug] at hvalue
      rw [hget, hfinal, if_neg hkey, hvalue]
      simp
    · intro key hkey hnone
      rw [hplug] at hnone
      have hkey' : key = "cniVersion" ∨ key = "name" := by simpa using hkey
      have hprev : key ≠ "prevResult" := by
        rintro rfl
        simp at hkey'
      rw [hget, hfinal, if_neg hprev, if_pos hkey', hnone, hnet]
      rfl
    · intro key hkey hnone
      rw [hplug] at hnone
      have hkey' : ¬(key = "cniVersion" ∨ key = "name") ∧ key ≠ "prevResult" := by
        simpa [and_assoc] using hkey
      rw [hget, hfinal, if_neg hkey'.2, if_neg hkey'.1, hnone]
    · rw [hget, hfinal, if_pos rfl, hplug]

/-- The files that are looked for in vain, in some directories. -/
def lookedFor (pluginType : String) (dirs : List String) : List CniNote :=
  dirs.map fun dir => .isFile (pathJoin dir pluginType) false

theorem looks_lookedFor (pluginType : String) (dirs : List String) :
    ∀ note ∈ lookedFor pluginType dirs, note.Looks := by
  intro note hnote
  obtain ⟨dir, -, rfl⟩ := List.mem_map.mp hnote
  trivial

/-- **Why a plugin is not started**, and what has been asked by then. -/
inductive NotStarted (config : CniConfiguration) (plugin : JsonValue) :
    List CniNote → Error → Prop where
  | notObject (h : plugin.asObject = none) :
      NotStarted config plugin []
        (.invalidConfig "CNI plugin configuration must be a JSON object")
  | noType (h : (plugin.get "type").bind JsonValue.asStr = none) :
      NotStarted config plugin [] (.invalidConfig "CNI plugin type is not set")
  | notFound {pluginType : String}
      (h : (plugin.get "type").bind JsonValue.asStr = some pluginType) :
      NotStarted config plugin (lookedFor pluginType config.binPath)
        (.invalidConfig ("failed to find CNI plugin binary " ++
          Text.debugStr env.unprintable pluginType ++ " in " ++
            debugList env.unprintable config.binPath))

theorem NotStarted.looks {config : CniConfiguration} {plugin : JsonValue} {ending : List CniNote}
    {error : Error} (h : NotStarted env config plugin ending error) :
    ∀ note ∈ ending, note.Looks := by
  cases h with
  | notObject _ | noType _ => simp
  | notFound _ => exact looks_lookedFor _ _

theorem pluginInput_error {networkConfig plugin : JsonValue} {prev : Option JsonValue}
    {error : Error} (hnetwork : networkConfig.asObject.isSome = true)
    (h : pluginInput networkConfig plugin prev = .error error) (config : CniConfiguration) :
    NotStarted env config plugin [] error := by
  unfold pluginInput at h
  split at h
  · rename_i hnone
    rw [hnone] at hnetwork
    cases hnetwork
  · rename_i hplugin
    obtain rfl := Except.error.inj h
    exact .notObject hplugin
  · dsimp only at h
    split at h <;> cases h

/-- Handing on a result and filling in the network do not touch the type of a plugin. -/
theorem PluginInput.get_type {networkConfig plugin input : JsonValue} {prev : Option JsonValue}
    (h : PluginInput networkConfig plugin prev input) : input.get "type" = plugin.get "type" := by
  cases htype : plugin.get "type" with
  | some value => exact h.own "type" (by decide) value htype
  | none => exact h.others "type" (by decide) htype

end RealCni

/-- **A visit to a plugin that is run**: the directories in which its program is looked for in vain,
the one in which it is found, its input, and what becomes of it. -/
structure PluginVisit where
  pluginType : String
  missing : List String
  dir : String
  input : JsonValue
  process : Except IoError PluginProcess

namespace PluginVisit

variable {W : Type} (env : CniEnv W) (config : CniConfiguration) (command : CniCommand)

/-- The program. -/
def program (visit : PluginVisit) : String := pathJoin visit.dir visit.pluginType

/-- What is run. -/
def run (visit : PluginVisit) : PluginRun where
  program := visit.program
  vars := RealCni.pluginVars config config.asCniRuntimeConf command
  input := env.toVec visit.input
  process := visit.process

/-- All that is asked of the world. -/
def notes (visit : PluginVisit) : List CniNote :=
  RealCni.lookedFor visit.pluginType visit.missing ++
    [.isFile visit.program true, .run (visit.run env config command)]

theorem pluginRuns_notes (visit : PluginVisit) :
    pluginRuns (visit.notes env config command) = [visit.run env config command] := by
  rw [notes, pluginRuns_append, pluginRuns_of_looks (RealCni.looks_lookedFor _ _)]
  rfl

theorem pluginRuns_flatMap_notes (visits : List PluginVisit) :
    pluginRuns (visits.flatMap (notes env config command)) =
      visits.map (run env config command) := by
  induction visits with
  | nil => rfl
  | cons visit visits ih =>
    rw [List.flatMap_cons, pluginRuns_append, pluginRuns_notes, ih]
    rfl

/-- **The visit is to this plugin**: the program is the first file of its type in the directories of
the configuration, and its input is its own. -/
structure Of (networkConfig plugin : JsonValue) (prev : Option JsonValue) (visit : PluginVisit) :
    Prop where
  type : (plugin.get "type").bind JsonValue.asStr = some visit.pluginType
  found : ∃ rest, config.binPath = visit.missing ++ visit.dir :: rest
  input : RealCni.PluginInput networkConfig plugin prev visit.input

end PluginVisit

namespace RealCni

variable {W : Type} (env : CniEnv W)

theorem findPluginIn_cases (pluginType : String) (binPath dirs : List String)
    (s : Watched W CniNote) :
    ∃ s', (∃ missing dir rest, dirs = missing ++ dir :: rest ∧
        s'.log = s.log ++ (lookedFor pluginType missing ++
          [.isFile (pathJoin dir pluginType) true]) ∧
        findPluginIn env.recording pluginType binPath dirs s =
          (.ok (pathJoin dir pluginType), s')) ∨
      (s'.log = s.log ++ lookedFor pluginType dirs ∧
        findPluginIn env.recording pluginType binPath dirs s =
          (.err (.invalidConfig ("failed to find CNI plugin binary " ++
            Text.debugStr env.unprintable pluginType ++ " in " ++
              debugList env.unprintable binPath)), s')) := by
  induction dirs generalizing s with
  | nil => exact ⟨s, .inr ⟨(List.append_nil _).symm, rfl⟩⟩
  | cons dir rest ih =>
    have hask : CniOp.ask env.recording (.isFile (pathJoin dir pluginType)) s =
        (.ok (env.answer (.isFile (pathJoin dir pluginType)) s.state).1,
          ⟨(env.answer (.isFile (pathJoin dir pluginType)) s.state).2,
            s.log ++ [.isFile (pathJoin dir pluginType)
              (env.answer (.isFile (pathJoin dir pluginType)) s.state).1]⟩) := rfl
    rw [findPluginIn, Prog.bind_of_ok hask]
    rcases env.answer (.isFile (pathJoin dir pluginType)) s.state with ⟨_ | _, w⟩
    · obtain ⟨s', ⟨missing, dir', rest', hrest, hlog, hrun⟩ | ⟨hlog, hrun⟩⟩ :=
        ih ⟨w, s.log ++ [.isFile (pathJoin dir pluginType) false]⟩
      · refine ⟨s', .inl ⟨dir :: missing, dir', rest', congrArg _ hrest, ?_, hrun⟩⟩
        rw [hlog, List.append_assoc]
        rfl
      · refine ⟨s', .inr ⟨?_, hrun⟩⟩
        rw [hlog, List.append_assoc]
        rfl
    · exact ⟨_, .inl ⟨[], dir, rest, rfl, rfl, rfl⟩⟩

/-- **What `run_plugin` does**: it does not start the plugin, or it finds it and runs it once on its
input. -/
theorem runPlugin_cases (config : CniConfiguration) (command : CniCommand)
    {networkConfig plugin input : JsonValue} {prev : Option JsonValue}
    (hinput : PluginInput networkConfig plugin prev input) (s : Watched W CniNote) :
    ∃ s', (∃ ending error, NotStarted env config plugin ending error ∧
        s'.log = s.log ++ ending ∧
        runPlugin env.recording config input config.asCniRuntimeConf command s =
          (.err error, s')) ∨
      ∃ visit : PluginVisit, visit.Of config networkConfig plugin prev ∧
        s'.log = s.log ++ visit.notes env config command ∧
        runPlugin env.recording config input config.asCniRuntimeConf command s =
          (.ofExcept (pluginResult env.unprintable visit.pluginType visit.process), s') := by
  unfold runPlugin
  rw [hinput.get_type]
  cases htype : (plugin.get "type").bind JsonValue.asStr with
  | none => exact ⟨s, .inl ⟨[], _, .noType htype, (List.append_nil _).symm, rfl⟩⟩
  | some pluginType =>
    dsimp only
    obtain ⟨s₁, ⟨missing, dir, rest, hdirs, hlog, hfound⟩ | ⟨hlog, hmissing⟩⟩ :=
      findPluginIn_cases env pluginType config.binPath config.binPath s
    · have hfound' : findPlugin env.recording pluginType config.binPath s =
          (.ok (pathJoin dir pluginType), s₁) := hfound
      rw [Prog.bind_of_ok hfound', Prog.bind_of_ok (x := CniOp.ask env.recording _) rfl,
        Prog.ofExcept_fst]
      refine ⟨_, .inr ⟨⟨pluginType, missing, dir, input, _⟩, ⟨htype, ⟨rest, hdirs⟩, hinput⟩, ?_,
        rfl⟩⟩
      change s₁.log ++ _ = _
      rw [hlog, List.append_assoc, List.append_assoc]
      rfl
    · have hmissing' : findPlugin env.recording pluginType config.binPath s = _ := hmissing
      rw [Prog.bind_of_err hmissing']
      exact ⟨s₁, .inl ⟨_, _, .notFound htype, hlog, rfl⟩⟩

/-! ### The loop -/

/-- **The visits follow the plugins**: each is to the next plugin in the order, with what the one
before it hands on, and all but the last succeed. -/
def Chained (config : CniConfiguration) (command : CniCommand) (networkConfig : JsonValue) :
    Option JsonValue → List JsonValue → List PluginVisit → Prop
  | _, _, [] => True
  | _, [], _ :: _ => False
  | prev, plugin :: order, visit :: visits =>
    visit.Of config networkConfig plugin prev ∧
      (visits ≠ [] → succeeds env command visit.process = true) ∧
      Chained config command networkConfig (handOn env command prev visit.process) order visits

@[simp] theorem chained_nil (config : CniConfiguration) (command : CniCommand)
    (networkConfig : JsonValue) (prev : Option JsonValue) (order : List JsonValue) :
    Chained env config command networkConfig prev order [] := by
  cases order <;> exact trivial

/-- What the loop holds after some visits. -/
def handed (command : CniCommand) (prev : Option JsonValue) (visits : List PluginVisit) :
    Option JsonValue :=
  visits.foldl (fun prev visit => handOn env command prev visit.process) prev

/-- How the loop ends, and what has been asked after the last visit: all plugins have succeeded and
the last result is returned, the last one that was run has failed, or the next one is not
started. -/
inductive Halted (config : CniConfiguration) (command : CniCommand) (prev : Option JsonValue)
    (order : List JsonValue) (visits : List PluginVisit) :
    List CniNote → Outcome Error (Option JsonValue) → Prop where
  | finished (hlength : visits.length = order.length)
      (hall : ∀ visit ∈ visits, succeeds env command visit.process = true) :
      Halted config command prev order visits [] (.ok (handed env command prev visits))
  | failed {visit : PluginVisit} {error : Error} (hlast : visits.getLast? = some visit)
      (hfail : Fails env command visit.pluginType visit.process error) :
      Halted config command prev order visits [] (.err error)
  | notStarted {plugin : JsonValue} {ending : List CniNote} {error : Error}
      (hall : ∀ visit ∈ visits, succeeds env command visit.process = true)
      (hnext : order[visits.length]? = some plugin)
      (hcause : NotStarted env config plugin ending error) :
      Halted config command prev order visits ending (.err error)

/-- One visit more at the front, to a plugin that has succeeded. -/
theorem Halted.cons {config : CniConfiguration} {command : CniCommand} {prev : Option JsonValue}
    {order : List JsonValue} {visit : PluginVisit} {visits : List PluginVisit}
    {ending : List CniNote} {outcome : Outcome Error (Option JsonValue)}
    (hvisit : succeeds env command visit.process = true)
    (h : Halted env config command (handOn env command prev visit.process) order visits ending
      outcome) (plugin : JsonValue) :
    Halted env config command prev (plugin :: order) (visit :: visits) ending outcome := by
  cases h with
  | finished hlength hall =>
    exact .finished (congrArg (· + 1) hlength) (List.forall_mem_cons.mpr ⟨hvisit, hall⟩)
  | failed hlast hfail =>
    refine .failed ?_ hfail
    rw [List.getLast?_cons, hlast]
    rfl
  | notStarted hall hnext hcause =>
    exact .notStarted (List.forall_mem_cons.mpr ⟨hvisit, hall⟩) hnext hcause

/-- **One turn of the loop**: the plugin is not started, it fails, or the loop goes on with what
it hands on. -/
theorem runPlugins_cons (config : CniConfiguration) (command : CniCommand)
    {networkConfig : JsonValue} (hnetwork : networkConfig.asObject.isSome = true)
    (prev : Option JsonValue) (plugin : JsonValue) (order : List JsonValue)
    (s : Watched W CniNote) :
    ∃ s₁, (∃ ending error, NotStarted env config plugin ending error ∧
        s₁.log = s.log ++ ending ∧
        runPlugins env.recording config command networkConfig prev (plugin :: order) s =
          (.err error, s₁)) ∨
      ∃ visit : PluginVisit, visit.Of config networkConfig plugin prev ∧
        s₁.log = s.log ++ visit.notes env config command ∧
        ((∃ error, Fails env command visit.pluginType visit.process error ∧
            runPlugins env.recording config command networkConfig prev (plugin :: order) s =
              (.err error, s₁)) ∨
          (succeeds env command visit.process = true ∧
            runPlugins env.recording config command networkConfig prev (plugin :: order) s =
              runPlugins env.recording config command networkConfig
                (handOn env command prev visit.process) order s₁)) := by
  rw [runPlugins]
  cases hinput : pluginInput networkConfig plugin prev with
  | error error =>
    rw [Prog.bind_of_err (Prog.ofExcept_error error s)]
    exact ⟨s, .inl ⟨[], error, pluginInput_error env hnetwork hinput config,
      (List.append_nil _).symm, rfl⟩⟩
  | ok input =>
    rw [Prog.bind_of_ok (Prog.ofExcept_ok input s)]
    obtain ⟨s₁, ⟨ending, error, hcause, hlog, hrun⟩ | ⟨visit, hof, hlog, hrun⟩⟩ :=
      runPlugin_cases env config command (pluginInput_spec hinput) s
    · rw [Prog.bind_of_err hrun]
      exact ⟨s₁, .inl ⟨ending, error, hcause, hlog, rfl⟩⟩
    · refine ⟨s₁, .inr ⟨visit, hof, hlog, ?_⟩⟩
      rcases pluginResult_cases env.unprintable visit.pluginType visit.process with
        ⟨output, houtput, hresult⟩ | ⟨-, error, hresult⟩
      · rw [hresult] at hrun
        rw [Prog.bind_of_ok hrun]
        cases command with
        | del => exact .inr ⟨by simp [succeeds, houtput], rfl⟩
        | add =>
          -- the output is handed on, if it is JSON
          have hparse : env.recording.fromSlice output = env.fromSlice output := rfl
          dsimp only
          rw [hparse]
          cases hjson : env.fromSlice output with
          | ok value =>
            have hvalue : valueOf env visit.process = some value := by
              rw [valueOf, houtput, Option.bind_some, hjson]
              rfl
            refine .inr ⟨by simp [succeeds, hvalue], ?_⟩
            dsimp only [handOn]
            rw [hvalue]
            rfl
          | error text => exact .inl ⟨.json text, .notJson rfl houtput hjson, rfl⟩
      · rw [hresult] at hrun
        rw [Prog.bind_of_err hrun]
        exact .inl ⟨error, .unsuccessful hresult, rfl⟩

/-- **What the loop of `invoke_network_list` asks of the world**, whatever the plugins do. -/
theorem runPlugins_chained (config : CniConfiguration) (command : CniCommand)
    {networkConfig : JsonValue} (hnetwork : networkConfig.asObject.isSome = true)
    (prev : Option JsonValue) (order : List JsonValue) (s : Watched W CniNote) :
    ∃ visits ending,
      (runPlugins env.recording config command networkConfig prev order s).2.log =
        s.log ++ visits.flatMap (PluginVisit.notes env config command) ++ ending ∧
      Chained env config command networkConfig prev order visits ∧
      Halted env config command prev order visits ending
        (runPlugins env.recording config command networkConfig prev order s).1 := by
  induction order generalizing prev s with
  | nil => exact ⟨[], [], by simp [runPlugins], trivial, .finished rfl (by simp)⟩
  | cons plugin order ih =>
    obtain ⟨s₁, ⟨ending, error, hcause, hlog, heq⟩ | ⟨visit, hof, hlog, hend⟩⟩ :=
      runPlugins_cons env config command hnetwork prev plugin order s
    · rw [heq]
      exact ⟨[], ending, by simp [hlog], trivial, .notStarted (by simp) rfl hcause⟩
    · rcases hend with ⟨error, hfail, heq⟩ | ⟨hsuccess, heq⟩
      · rw [heq]
        exact ⟨[visit], [], by simp [hlog], ⟨hof, by simp, chained_nil env _ _ _ _ _⟩,
          .failed rfl hfail⟩
      · rw [heq]
        obtain ⟨visits, ending, hlog', hchained, hhalted⟩ :=
          ih (handOn env command prev visit.process) s₁
        refine ⟨visit :: visits, ending, ?_, ⟨hof, fun _ => hsuccess, hchained⟩,
          hhalted.cons env hsuccess plugin⟩
        rw [hlog', hlog, List.flatMap_cons, List.append_assoc s.log]

/-! ### Reading the chain by positions -/

/-- What the plugin at a position is handed: the result of the one before it, if a network is
added. -/
def handedOn (command : CniCommand) (visits : List PluginVisit) : ℕ → Option JsonValue
  | 0 => none
  | i + 1 =>
    match command with
    | .add => visits[i]?.bind fun visit => valueOf env visit.process
    | .del => none

theorem handed_eq (command : CniCommand) (visits : List PluginVisit) :
    handed env command none visits = handedOn env command visits visits.length := by
  induction visits using List.reverseRecOn with
  | nil => rfl
  | append_singleton visits visit ih =>
    rw [handed] at ih ⊢
    rw [List.foldl_append, List.foldl_cons, List.foldl_nil, ih, List.length_append]
    cases command with
    | add => simp [handOn, handedOn]
    | del =>
      -- nothing is handed on, after however many visits
      cases visits with
      | nil => rfl
      | cons first rest => rfl

theorem handedOn_take {command : CniCommand} {visits : List PluginVisit} {i : ℕ}
    (h : i ≤ visits.length) :
    handedOn env command (visits.take i) (visits.take i).length =
      handedOn env command visits i := by
  rw [List.length_take_of_le h]
  cases i with
  | zero => rfl
  | succ i =>
    cases command with
    | add =>
      dsimp only [handedOn]
      rw [List.getElem?_take_of_lt (Nat.lt_succ_self i)]
    | del => rfl

theorem Chained.get {config : CniConfiguration} {command : CniCommand} {networkConfig : JsonValue}
    {prev : Option JsonValue} {order : List JsonValue} {visits : List PluginVisit}
    (h : Chained env config command networkConfig prev order visits) {i : ℕ} {visit : PluginVisit}
    (hvisit : visits[i]? = some visit) :
    (∃ plugin, order[i]? = some plugin ∧
        visit.Of config networkConfig plugin (handed env command prev (visits.take i))) ∧
      (i + 1 < visits.length → succeeds env command visit.process = true) := by
  induction visits generalizing prev order i with
  | nil => simp at hvisit
  | cons first visits ih =>
    obtain _ | ⟨plugin, order⟩ := order
    · exact absurd h (by simp [Chained])
    · obtain ⟨hof, hsuccess, hrest⟩ := h
      cases i with
      | zero =>
        obtain rfl := Option.some.inj hvisit
        refine ⟨⟨plugin, rfl, hof⟩, fun hmore => hsuccess ?_⟩
        rintro rfl
        simp at hmore
      | succ i =>
        obtain ⟨hplugin, hsuccess'⟩ := ih hrest hvisit
        refine ⟨hplugin, fun hmore => hsuccess' ?_⟩
        simpa using hmore

/-- **How an invocation ends**: plugins were deleted, there was none to add, the last result is
decoded or is no result, the last plugin that was run has failed, or the next one is not
started. -/
inductive Ended (config : CniConfiguration) (command : CniCommand) (order : List JsonValue)
    (visits : List PluginVisit) : List CniNote → Outcome Error (Option CniResult) → Prop where
  | deleted (hdel : command = .del) (hlength : visits.length = order.length)
      (hall : ∀ visit ∈ visits, succeeds env command visit.process = true) :
      Ended config command order visits [] (.ok none)
  | nothing (hadd : command = .add) (horder : order = []) (hvisits : visits = []) :
      Ended config command order visits [] (.ok none)
  | added {visit : PluginVisit} {value : JsonValue} {result : CniResult} (hadd : command = .add)
      (hlength : visits.length = order.length)
      (hall : ∀ visit ∈ visits, succeeds env command visit.process = true)
      (hlast : visits.getLast? = some visit) (hvalue : valueOf env visit.process = some value)
      (hresult : env.fromValue value = .ok result) :
      Ended config command order visits [] (.ok (some result))
  | undecodable {visit : PluginVisit} {value : JsonValue} {text : String} (hadd : command = .add)
      (hlength : visits.length = order.length)
      (hall : ∀ visit ∈ visits, succeeds env command visit.process = true)
      (hlast : visits.getLast? = some visit) (hvalue : valueOf env visit.process = some value)
      (htext : env.fromValue value = .error text) :
      Ended config command order visits [] (.err (.json text))
  | failed {visit : PluginVisit} {error : Error} (hlast : visits.getLast? = some visit)
      (hfail : Fails env command visit.pluginType visit.process error) :
      Ended config command order visits [] (.err error)
  | notStarted {plugin : JsonValue} {ending : List CniNote} {error : Error}
      (hall : ∀ visit ∈ visits, succeeds env command visit.process = true)
      (hnext : order[visits.length]? = some plugin)
      (hcause : NotStarted env config plugin ending error) :
      Ended config command order visits ending (.err error)

theorem Ended.looks {config : CniConfiguration} {command : CniCommand} {order : List JsonValue}
    {visits : List PluginVisit} {ending : List CniNote}
    {outcome : Outcome Error (Option CniResult)}
    (h : Ended env config command order visits ending outcome) : ∀ note ∈ ending, note.Looks := by
  cases h with
  | notStarted hall hnext hcause => exact hcause.looks env
  | _ => simp

/-- Decoding what the loop has returned. -/
def decodeLast : Option JsonValue → CniOp W (Option CniResult)
  | none => pure none
  | some value => do
    let result ← CniOp.ofJson (env.fromValue value)
    pure (some result)

theorem invokeNetworkList_eq {config : CniConfiguration} {command : CniCommand}
    {s s₁ : W} {networkConfig : JsonValue} {plugins : List JsonValue}
    (hload : loadNetworkConfig env config s = (.ok networkConfig, s₁))
    (hplugins : RealCni.plugins networkConfig = some plugins) :
    invokeNetworkList env config command s =
      (runPlugins env config command networkConfig none (command.order plugins) >>=
        decodeLast env) s₁ := by
  unfold invokeNetworkList
  rw [Prog.bind_of_ok hload, hplugins]
  refine Prog.bind_congr_of_ok fun value s₂ _ => ?_
  cases value <;> rfl

theorem decodeLast_cases (value : JsonValue) (s : W) :
    (∃ result, env.fromValue value = .ok result ∧
        decodeLast env (some value) s = (.ok (some result), s)) ∨
      ∃ text, env.fromValue value = .error text ∧
        decodeLast env (some value) s = (.err (.json text), s) := by
  have hdecode : decodeLast env (some value) =
      CniOp.ofJson (env.fromValue value) >>= fun result => pure (some result) := rfl
  rw [hdecode]
  cases env.fromValue value with
  | ok result => exact .inl ⟨result, rfl, rfl⟩
  | error text => exact .inr ⟨text, rfl, rfl⟩

/-- When all plugins have succeeded, it is up to the last result. -/
theorem decodeLast_ended (config : CniConfiguration) {command : CniCommand}
    {order : List JsonValue} {visits : List PluginVisit} (hlength : visits.length = order.length)
    (hall : ∀ visit ∈ visits, succeeds env command visit.process = true)
    (s : Watched W CniNote) :
    ∃ outcome, Ended env config command order visits [] outcome ∧
      decodeLast env.recording (handed env command none visits) s = (outcome, s) := by
  rw [handed_eq]
  cases command with
  | del =>
    refine ⟨.ok none, .deleted rfl hlength hall, ?_⟩
    cases visits with
    | nil => rfl
    | cons first rest => rfl
  | add =>
    -- what is handed on at the end is what the last plugin printed
    rcases List.eq_nil_or_concat' visits with rfl | ⟨init, last, rfl⟩
    · exact ⟨.ok none, .nothing rfl (List.length_eq_zero_iff.mp hlength.symm) rfl, rfl⟩
    · have hlast : (init ++ [last]).getLast? = some last := List.getLast?_concat
      obtain ⟨value, hvalue⟩ := Option.isSome_iff_exists.mp (hall last (by simp))
      have hhanded : handedOn env .add (init ++ [last]) (init ++ [last]).length = some value := by
        rw [List.length_append]
        simpa [handedOn] using hvalue
      rw [hhanded]
      rcases decodeLast_cases env.recording value s with ⟨result, hresult, heq⟩ | ⟨text, htext, heq⟩
      · exact ⟨_, .added rfl hlength hall hlast hvalue hresult, heq⟩
      · exact ⟨_, .undecodable rfl hlength hall hlast hvalue htext, heq⟩

theorem isSome_asObject_of_plugins {networkConfig : JsonValue} {plugins : List JsonValue}
    (h : RealCni.plugins networkConfig = some plugins) :
    networkConfig.asObject.isSome = true := by
  unfold RealCni.plugins JsonValue.get at h
  cases hfields : networkConfig.asObject with
  | some fields => rfl
  | none =>
    rw [hfields] at h
    cases h

/-- **What an invocation asks of the world and how it ends**, once its plugins are known. -/
theorem invokeNetworkList_ended {config : CniConfiguration} {command : CniCommand}
    {s s₁ : Watched W CniNote} {networkConfig : JsonValue} {plugins : List JsonValue}
    (hload : loadNetworkConfig env.recording config s = (.ok networkConfig, s₁))
    (hplugins : RealCni.plugins networkConfig = some plugins) :
    ∃ visits ending, (invokeNetworkList env.recording config command s).2.log =
        s₁.log ++ visits.flatMap (PluginVisit.notes env config command) ++ ending ∧
      Chained env config command networkConfig none (command.order plugins) visits ∧
      Ended env config command (command.order plugins) visits ending
        (invokeNetworkList env.recording config command s).1 := by
  obtain ⟨visits, ending, hlog, hchained, hhalted⟩ := runPlugins_chained env config command
    (isSome_asObject_of_plugins hplugins) none (command.order plugins) s₁
  rw [invokeNetworkList_eq env.recording hload hplugins]
  rcases hloop : runPlugins env.recording config command networkConfig none
    (command.order plugins) s₁ with ⟨outcome, s₂⟩
  rw [hloop] at hlog hhalted
  -- only a loop that has finished leaves something to decode
  cases hhalted with
  | finished hlength hall =>
    obtain ⟨outcome, hended, heq⟩ := decodeLast_ended env config hlength hall s₂
    rw [Prog.bind_of_ok hloop, heq]
    exact ⟨visits, [], hlog, hchained, hended⟩
  | failed hlast hfail =>
    rw [Prog.bind_of_err hloop]
    exact ⟨visits, [], hlog, hchained, .failed hlast hfail⟩
  | notStarted hall hnext hcause =>
    rw [Prog.bind_of_err hloop]
    exact ⟨visits, _, hlog, hchained, .notStarted hall hnext hcause⟩

end RealCni

open RealCni in
/-- **The plugins are run in order.** Whatever the plugins do, these are the questions that the
world is asked, after those about the configuration: for each plugin in the order of the command
where its program is, and what becomes of it when it is run for this command on its input. The input
has the fields of its own configuration, the version and the name of the network where it has none,
and, when a network is added, the result of the plugin before it. Each plugin but the last succeeds;
how the invocation ends is told by the last of them, and without a plugin there is no result. Taking
notes of the questions changes nothing. -/
theorem plugins_run_in_order {W : Type} (env : CniEnv W) (config : CniConfiguration)
    (command : CniCommand) (log : List CniNote) {w w₁ : W} {networkConfig : JsonValue}
    {plugins : List JsonValue}
    (hload : loadNetworkConfig env config w = (.ok networkConfig, w₁))
    (hplugins : RealCni.plugins networkConfig = some plugins) :
    ∃ loading visits ending,
      invokeNetworkList env.recording config command ⟨w, log⟩ =
        ((invokeNetworkList env config command w).1,
          ⟨(invokeNetworkList env config command w).2,
            log ++ loading ++ visits.flatMap (PluginVisit.notes env config command) ++ ending⟩) ∧
      (∀ note ∈ loading ++ ending, note.Looks) ∧
      (∀ i visit, visits[i]? = some visit →
        (∃ plugin, (command.order plugins)[i]? = some plugin ∧
          visit.Of config networkConfig plugin (handedOn env command visits i)) ∧
        (i + 1 < visits.length → succeeds env command visit.process = true)) ∧
      Ended env config command (command.order plugins) visits ending
        (invokeNetworkList env config command w).1 ∧
      ∀ result, command = .add → (invokeNetworkList env config command w).1 = .ok result →
        (result = none ↔ plugins = []) := by
  obtain ⟨loading, hrecorded, hlooks⟩ :=
    mirrors_loadNetworkConfig env (P := CniNote.Looks) (fun _ h => h) config log
  rw [hload] at hrecorded
  obtain ⟨visits, ending, hlog, hchained, hended⟩ :=
    @invokeNetworkList_ended W env config command _ _ _ _ hrecorded hplugins
  obtain ⟨notes, hmirror, -⟩ := mirrors_invokeNetworkList env config command log
  rw [hmirror] at hlog hended
  dsimp only at hlog hended
  refine ⟨loading, visits, ending, ?_, ?_, fun i visit hvisit => ?_, hended,
    fun result hadd hok => ?_⟩
  · rw [hmirror, hlog]
  · intro note hnote
    rcases List.mem_append.mp hnote with hnote | hnote
    · exact hlooks note hnote
    · exact hended.looks env note hnote
  · obtain ⟨⟨plugin, hplugin, hof⟩, hsuccess⟩ := hchained.get env hvisit
    have hi : i ≤ visits.length := (List.getElem?_eq_some_iff.mp hvisit).1.le
    rw [handed_eq, handedOn_take env hi] at hof
    exact ⟨⟨plugin, hplugin, hof⟩, hsuccess⟩
  · subst hadd
    rw [hok] at hended
    cases hended with
    | nothing _ horder _ => simpa [CniCommand.order] using horder
    | added _ hlength _ hlast _ _ =>
      have hne : plugins ≠ [] := by
        rintro rfl
        rw [List.length_eq_zero_iff.mp hlength] at hlast
        cases hlast
      simp [hne]
    | deleted hdel _ _ => cases hdel

/-! ### A network of two plugins -/

mutual

/-- A value as compact JSON, for texts that need no escapes. -/
def JsonValue.render : JsonValue → String
  | .null => "null"
  | .bool b => toString b
  | .number text => text
  | .string text => "\"" ++ text ++ "\""
  | .array items => "[" ++ ",".intercalate (JsonValue.renderItems items) ++ "]"
  | .object fields => "\x7b" ++ ",".intercalate (JsonValue.renderFields fields) ++ "\x7d"

/-- The items of an array. -/
def JsonValue.renderItems : List JsonValue → List String
  | [] => []
  | item :: items => item.render :: JsonValue.renderItems items

/-- The fields of an object. -/
def JsonValue.renderFields : List (String × JsonValue) → List String
  | [] => []
  | (key, value) :: fields =>
    ("\"" ++ key ++ "\":" ++ value.render) :: JsonValue.renderFields fields

end

/-- A network that a bridge and a tuning plugin make up, of which the second has a name of its
own. -/
def fcnet : JsonValue :=
  .object
    [("cniVersion", .string "0.4.0"), ("name", .string "fcnet"),
      ("plugins", .array
        [.object [("type", .string "bridge")],
          .object [("name", .string "own"), ("type", .string "tuning")]])]

/-- A configuration with the text of that network in it. -/
def fcnetConfig : CniConfiguration where
  networkConfig := some fcnet.render
  binPath := ["/opt/cni/bin"]

/-- The answers of a world in which the plugins are installed, print an empty object, and end with
success; only when a network is added the tuning plugin ends with `status`. -/
def fcnetAnswer (status : ExitStatus) : {α : Type} → CniQuery α → α
  | _, .pathExists _ => true
  | _, .isFile _ => true
  | _, .read _ => .ok []
  | _, .readDir _ => .ok []
  | _, .run program vars _ =>
    let adding := program = "/opt/cni/bin/tuning" ∧ vars.head? = some ("CNI_COMMAND", "ADD")
    .ok { status := if adding then status else .code 0, stdout := [0x7b, 0x7d] }

/-- That world. The one text that is parsed is that of the network, and all outputs are the empty
object. -/
def fcnetWorld (status : ExitStatus) : CniEnv Unit where
  answer query world := (fcnetAnswer status query, world)
  fromSlice _ := .ok (.object [])
  fromStr _ := .ok fcnet
  toVec value := value.render.toUTF8.data.toList
  fromValue _ := .ok {}

open RealCni in
/-- Adding the network runs both plugins, and deleting it runs them the other way round. -/
theorem plugins_run_in_order_fcnet :
    (invokeNetworkList (fcnetWorld (.code 0)) fcnetConfig .add ()).1 = .ok (some {}) ∧
      (∀ command, ((pluginRuns (invokeNetworkList (fcnetWorld (.code 0)).recording fcnetConfig
          command ⟨(), []⟩).2.log).map fun run => (run.program, run.command)) =
        command.order [("/opt/cni/bin/bridge", some command.text),
          ("/opt/cni/bin/tuning", some command.text)]) ∧
      ∃ (loading : List CniNote) (visits : List PluginVisit) (ending : List CniNote),
        (invokeNetworkList (fcnetWorld (.code 0)).recording fcnetConfig .add ⟨(), []⟩).2.log =
          [] ++ loading ++
            visits.flatMap (PluginVisit.notes (fcnetWorld (.code 0)) fcnetConfig .add) ++ ending ∧
        (∀ note ∈ loading ++ ending, note.Looks) ∧
        ∀ i visit, visits[i]? = some visit →
          (∃ plugin, (CniCommand.add.order
                [JsonValue.object [("type", .string "bridge")],
                  .object [("name", .string "own"), ("type", .string "tuning")]])[i]? =
              some plugin ∧
            visit.Of fcnetConfig fcnet plugin (handedOn (fcnetWorld (.code 0)) .add visits i)) ∧
          (i + 1 < visits.length →
            succeeds (fcnetWorld (.code 0)) .add visit.process = true) := by
  have hload : loadNetworkConfig (fcnetWorld (.code 0)) fcnetConfig () = (.ok fcnet, ()) := rfl
  obtain ⟨loading, visits, ending, hlog, hlooks, hvisits, -⟩ :=
    plugins_run_in_order (fcnetWorld (.code 0)) fcnetConfig .add [] hload rfl
  refine ⟨by decide +kernel, fun command => ?_, loading, visits, ending, by rw [hlog], hlooks,
    hvisits⟩
  cases command <;> decide +kernel

end FirecrackerSdk
