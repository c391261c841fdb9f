import FirecrackerSdk.Lib.Watched
import FirecrackerSdk.Plugins

/-!
# What the world is asked when plugins are run

What the operations of `FirecrackerSdk.Plugins` do to the world is the questions that they ask of
it. An environment that takes notes (`FirecrackerSdk.CniEnv.recording`) answers like the environment
it is made of and writes down every question with its answer, so that what is proved about the notes
is proved about the files that were looked at and the processes that were started.

Taking notes changes nothing: in such an environment every operation returns what it returns without
notes, and leaves the world as it is left without them
(`FirecrackerSdk.RealCni.mirrors_invokeNetworkList`, `FirecrackerSdk.RealCni.mirrors_invokeCni`).
And loading a configuration only looks at files
(`FirecrackerSdk.RealCni.mirrors_loadNetworkConfig`).
-/

namespace FirecrackerSdk

/-! ### Notes -/

/-- A plugin that was run: the program, its environment variables and its input, and what became of
it. -/
structure PluginRun where
  program : String
  vars : List (String × String)
  input : List UInt8
  process : Except IoError PluginProcess

/-- The command that the plugin was run for. -/
def PluginRun.command (run : PluginRun) : Option String := run.vars.lookup "CNI_COMMAND"

/-- A question and its answer. -/
inductive CniNote where
  | pathExists (path : String) (answer : Bool)
  | isFile (path : String) (answer : Bool)
  | read (path : String) (answer : Except IoError (List UInt8))
  | readDir (path : String) (answer : Except IoError (List (Except IoError String)))
  | run (run : PluginRun)

/-- A question, with the answer that it got. -/
def CniQuery.note : {α : Type} → CniQuery α → α → CniNote
  | _, .pathExists path, answer => .pathExists path answer
  | _, .isFile path, answer => .isFile path answer
  | _, .read path, answer => .read path answer
  | _, .readDir path, answer => .readDir path answer
  | _, .run program vars input, process => .run ⟨program, vars, input, process⟩

/-- Whether a file or a directory is looked at, and no program run. -/
def CniNote.Looks : CniNote → Prop
  | .run _ => False
  | _ => True

/-- The plugin that a note tells of. -/
def CniNote.pluginRun : CniNote → Option PluginRun
  | .run started => some started
  | _ => none

/-- The plugins that were run, in order. -/
def pluginRuns (notes : List CniNote) : List PluginRun := notes.filterMap CniNote.pluginRun

theorem pluginRuns_append (notes notes' : List CniNote) :
    pluginRuns (notes ++ notes') = pluginRuns notes ++ pluginRuns notes' :=
  List.filterMap_append

theorem pluginRuns_of_looks {notes : List CniNote} (h : ∀ note ∈ notes, note.Looks) :
    pluginRuns notes = [] := by
  rw [pluginRuns, List.filterMap_eq_nil_iff]
  intro note hnote
  have hlooks := h note hnote
  cases note with
  | run started => exact hlooks.elim
  | _ => rfl

/-- **The same environment, taking notes.** -/
def CniEnv.recording {W : Type} (env : CniEnv W) : CniEnv (Watched W CniNote) where
  answer query w :=
    ((env.answer query w.state).1,
      { state := (env.answer query w.state).2
        log := w.log ++ [query.note (env.answer query w.state).1] })
  fromSlice := env.fromSlice
  fromStr := env.fromStr
  toVec := env.toVec
  fromValue := env.fromValue
  unprintable := env.unprintable

/-! ### Taking notes changes nothing -/

namespace RealCni

open Watched

variable {W : Type} (env : CniEnv W) {P : CniNote → Prop} {w : W}

theorem mirrors_ask {α : Type} {query : CniQuery α} (h : ∀ answer, P (query.note answer)) :
    Mirrors P (CniOp.ask env.recording query) (CniOp.ask env query) w := by
  intro log
  refine ⟨[query.note (env.answer query w).1], rfl, fun note hnote => ?_⟩
  rw [List.mem_singleton.mp hnote]
  exact h _

theorem mirrors_askIo {α : Type} {query : CniQuery (Except IoError α)}
    (h : ∀ answer, P (query.note answer)) :
    Mirrors P (CniOp.askIo env.recording query) (CniOp.askIo env query) w := by
  refine mirrors_bind (mirrors_ask env h) fun answer _ _ => ?_
  cases answer with
  | ok a => exact mirrors_pure a
  | error error => exact mirrors_fail _

theorem mirrors_ofJson {α : Type} (result : Except String α) :
    Mirrors P (CniOp.ofJson result : CniOp (Watched W CniNote) α) (CniOp.ofJson result) w := by
  cases result with
  | ok a => exact mirrors_pure a
  | error text => exact mirrors_fail _

section Looks

variable (hlooks : ∀ note : CniNote, note.Looks → P note)

include hlooks

theorem mirrors_findByName (networkName : String) (entries : List (Except IoError String)) :
    Mirrors P (findByName env.recording networkName entries) (findByName env networkName entries)
      w := by
  induction entries generalizing w with
  | nil => exact mirrors_pure _
  | cons entry rest ih =>
    cases entry with
    | error error => exact mirrors_fail _
    | ok path =>
      refine mirrors_bind (mirrors_ask env fun _ => hlooks _ trivial) fun isFile _ _ => ?_
      refine mirrors_ite (fun _ => ?_) fun _ => ih
      refine mirrors_bind (mirrors_askIo env fun _ => hlooks _ trivial) fun content _ _ => ?_
      have hsame : env.recording.fromSlice content = env.fromSlice content := rfl
      rw [hsame]
      cases env.fromSlice content with
      | error text => exact ih
      | ok parsed => exact mirrors_ite (fun _ => mirrors_pure _) fun _ => ih

theorem mirrors_findCandidate (candidates : List String) :
    Mirrors P (findCandidate env.recording candidates) (findCandidate env candidates) w := by
  induction candidates generalizing w with
  | nil => exact mirrors_pure _
  | cons candidate rest ih =>
    refine mirrors_bind (mirrors_ask env fun _ => hlooks _ trivial) fun found _ _ => ?_
    exact mirrors_ite (fun _ => mirrors_pure _) fun _ => ih

theorem mirrors_loadNetworkConfigFromDir (config : CniConfiguration) :
    Mirrors P (loadNetworkConfigFromDir env.recording config)
      (loadNetworkConfigFromDir env config) w := by
  unfold loadNetworkConfigFromDir
  rcases config.confDir with _ | confDir
  · exact mirrors_fail _
  rcases config.networkName with _ | networkName
  · exact mirrors_fail _
  refine mirrors_bind (mirrors_findCandidate env hlooks _) fun candidate _ _ => ?_
  cases candidate with
  | some candidate =>
    refine mirrors_bind (mirrors_askIo env fun _ => hlooks _ trivial) fun content _ _ => ?_
    exact mirrors_ofJson _
  | none =>
    refine mirrors_bind (mirrors_askIo env fun _ => hlooks _ trivial) fun entries _ _ => ?_
    refine mirrors_bind (mirrors_findByName env hlooks _ _) fun parsed _ _ => ?_
    cases parsed with
    | some parsed => exact mirrors_pure _
    | none => exact mirrors_fail _

/-- **Loading a configuration only looks at files.** -/
theorem mirrors_loadNetworkConfig (config : CniConfiguration) :
    Mirrors P (loadNetworkConfig env.recording config) (loadNetworkConfig env config) w := by
  unfold loadNetworkConfig
  cases config.networkConfig with
  | some rawConfig =>
    exact mirrors_bind (mirrors_ofJson _) fun parsed _ _ => mirrors_ofExcept _
  | none =>
    exact mirrors_bind (mirrors_loadNetworkConfigFromDir env hlooks config) fun parsed _ _ =>
      mirrors_ofExcept _

theorem mirrors_findPluginIn (pluginType : String) (binPath dirs : List String) :
    Mirrors P (findPluginIn env.recording pluginType binPath dirs)
      (findPluginIn env pluginType binPath dirs) w := by
  induction dirs generalizing w with
  | nil => exact mirrors_fail _
  | cons dir rest ih =>
    refine mirrors_bind (mirrors_ask env fun _ => hlooks _ trivial) fun found _ _ => ?_
    exact mirrors_ite (fun _ => mirrors_pure _) fun _ => ih

end Looks

/-- No note is excluded. -/
abbrev AnyNote : CniNote → Prop := fun _ => True

theorem mirrors_runPlugin (config : CniConfiguration) (input : JsonValue)
    (runtimeConf : CniRuntimeConf) (command : CniCommand) :
    Mirrors AnyNote (runPlugin env.recording config input runtimeConf command)
      (runPlugin env config input runtimeConf command) w := by
  unfold runPlugin
  rcases (input.get "type").bind JsonValue.asStr with _ | pluginType
  · exact mirrors_fail _
  · refine mirrors_bind (mirrors_findPluginIn env (fun _ _ => trivial) _ _ _)
      fun program _ _ => ?_
    refine mirrors_bind (mirrors_ask env fun _ => trivial) fun process _ _ => ?_
    exact mirrors_ofExcept _

theorem mirrors_runPlugins (config : CniConfiguration) (command : CniCommand)
    (networkConfig : JsonValue) (prevResult : Option JsonValue) (order : List JsonValue) :
    Mirrors AnyNote (runPlugins env.recording config command networkConfig prevResult order)
      (runPlugins env config command networkConfig prevResult order) w := by
  induction order generalizing prevResult w with
  | nil => exact mirrors_pure _
  | cons plugin rest ih =>
    refine mirrors_bind (mirrors_ofExcept _) fun input _ _ => ?_
    refine mirrors_bind (mirrors_runPlugin env _ _ _ _) fun output _ _ => ?_
    cases command with
    | add => exact mirrors_bind (mirrors_ofJson _) fun result _ _ => ih _
    | del => exact ih _

/-- **`invoke_network_list` does what it does without notes.** -/
theorem mirrors_invokeNetworkList (config : CniConfiguration) (command : CniCommand) :
    Mirrors AnyNote (invokeNetworkList env.recording config command)
      (invokeNetworkList env config command) w := by
  refine mirrors_bind (mirrors_loadNetworkConfig env (fun _ _ => trivial) config)
    fun networkConfig _ _ => ?_
  rcases plugins networkConfig with _ | plugins
  · exact mirrors_fail _
  · refine mirrors_bind (mirrors_runPlugins env _ _ _ _ _) fun prevResult _ _ => ?_
    cases prevResult with
    | none => exact mirrors_pure _
    | some value => exact mirrors_bind (mirrors_ofJson _) fun result _ _ => mirrors_pure _

/-- What is returned after the second pass of `invoke_cni`. -/
def handOut (config : CniConfiguration) :
    Option CniResult → CniOp W (CniResult × List CniCleanup)
  | some result => pure (result, [⟨config⟩])
  | none => Prog.fail (.process "CNI ADD did not return a result payload")

/-- **And so does `invoke_cni`.** -/
theorem mirrors_invokeCni (config : CniConfiguration) :
    Mirrors AnyNote (invokeCni env.recording config) (invokeCni env config) w := by
  refine mirrors_bind (mirrors_attempt (mirrors_invokeNetworkList env config .del))
    fun deleteResult _ _ => ?_
  have hadd : ∀ w, Mirrors AnyNote (invokeNetworkList env.recording config .add >>= handOut config)
      (invokeNetworkList env config .add >>= handOut config) w := fun w => by
    refine mirrors_bind (mirrors_invokeNetworkList env config .add) fun result _ _ => ?_
    cases result with
    | some result => exact mirrors_pure _
    | none => exact mirrors_fail _
  rcases deleteResult with error | result
  · cases config.force with
    | true => exact hadd _
    | false => exact mirrors_fail _
  · exact hadd _

end RealCni

end FirecrackerSdk
