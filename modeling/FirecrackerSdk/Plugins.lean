import Mathlib.Data.String.Basic
import FirecrackerSdk.Lib.Prog
import FirecrackerSdk.Lib.SortedMap
import FirecrackerSdk.Config

/-!
# Running CNI plugins

`RealCniNetworkOperations` of `network.rs`, as far as it runs plugins: the network configuration is
loaded from a text or a directory and brought into the form of a list of plugins, and the plugins
are run one after the other, each with its own configuration on its standard input and, when
networks are added, with the result of the one before it.

Files and processes are questions to a world (`FirecrackerSdk.CniQuery`), about whose answers
nothing is assumed. A started plugin is answered with all that is to be known about it
(`FirecrackerSdk.PluginProcess`): whether its input could be written and its end be awaited, and
how it ended, which the crate sees only if both are so. Reading and writing JSON is `serde_json`'s,
and a part of the environment.
-/

namespace FirecrackerSdk

/-! ### JSON values -/

/-- `serde_json::Value`. A number is its text, an object the sorted map of its fields. -/
inductive JsonValue where
  | null
  | bool (b : Bool)
  | number (text : String)
  | string (text : String)
  | array (items : List JsonValue)
  | object (fields : List (String × JsonValue))

namespace JsonValue

/-- `Value::as_object`. -/
def asObject : JsonValue → Option (List (String × JsonValue))
  | .object fields => some fields
  | _ => none

/-- `Value::as_array`. -/
def asArray : JsonValue → Option (List JsonValue)
  | .array items => some items
  | _ => none

/-- `Value::as_str`. -/
def asStr : JsonValue → Option String
  | .string text => some text
  | _ => none

/-- `Value::get` with a key: only an object has fields. -/
def get (value : JsonValue) (key : String) : Option JsonValue :=
  value.asObject.bind (SortedMap.get key)

end JsonValue

/-! ### The world -/

/-- `CNI_COMMAND`: the two commands that the crate gives. -/
inductive CniCommand where
  | add
  | del
  deriving DecidableEq

/-- The text of a command. -/
def CniCommand.text : CniCommand → String
  | .add => "ADD"
  | .del => "DEL"

/-- The order in which a command goes through the plugins. -/
def CniCommand.order {α : Type} : CniCommand → List α → List α
  | .add, plugins => plugins
  | .del, plugins => plugins.reverse

/-- A plugin that was started: the results of writing to its standard input and of waiting for it,
and how it ended, whether that was seen or not. -/
structure PluginProcess where
  written : Except IoError Unit := .ok ()
  waited : Except IoError Unit := .ok ()
  status : ExitStatus
  stdout : List UInt8 := []
  stderr : List UInt8 := []

/-- The questions that the operations ask of the world. -/
inductive CniQuery : Type → Type where
  /-- `Path::exists`. -/
  | pathExists (path : String) : CniQuery Bool
  /-- `Path::is_file`. -/
  | isFile (path : String) : CniQuery Bool
  /-- `fs::read`. -/
  | read (path : String) : CniQuery (Except IoError (List UInt8))
  /-- `fs::read_dir`: the paths of the entries. -/
  | readDir (path : String) : CniQuery (Except IoError (List (Except IoError String)))
  /-- `Command::spawn` with some environment variables, and what becomes of the process that is
  given this input. -/
  | run (program : String) (vars : List (String × String)) (input : List UInt8) :
      CniQuery (Except IoError PluginProcess)

/-- An answer to every question, which may depend on the world and may change it, the functions of
`serde_json`, of which an error is what it displays, and the characters that the format `{:?}`
escapes. -/
structure CniEnv (W : Type) where
  answer : {α : Type} → CniQuery α → W → α × W
  /-- `serde_json::from_slice`. -/
  fromSlice : List UInt8 → Except String JsonValue
  /-- `serde_json::from_str`. -/
  fromStr : String → Except String JsonValue
  /-- `serde_json::to_vec`, which does not fail on a `Value`. -/
  toVec : JsonValue → List UInt8
  /-- `serde_json::from_value`. -/
  fromValue : JsonValue → Except String CniResult
  unprintable : Char → Bool := fun _ => false

/-- An operation of `RealCniNetworkOperations`. -/
abbrev CniOp (W α : Type) : Type := Prog W Error α

namespace CniOp

variable {W : Type} (env : CniEnv W)

/-- Ask the world. -/
def ask {α : Type} (query : CniQuery α) : CniOp W α := fun w =>
  (.ok (env.answer query w).1, (env.answer query w).2)

/-- Ask the world for something that can fail, and fail with it. -/
def askIo {α : Type} (query : CniQuery (Except IoError α)) : CniOp W α := do
  match ← ask env query with
  | .ok a => pure a
  | .error error => Prog.fail (.io error)

/-- A result of `serde_json`. -/
def ofJson {α : Type} : Except String α → CniOp W α
  | .ok a => pure a
  | .error text => Prog.fail (.json text)

end CniOp

/-- `CniRuntimeConf`. -/
structure CniRuntimeConf where
  containerId : Option String
  netNs : Option String
  ifName : Option String
  args : List (String × String)

/-- `CniConfiguration::as_cni_runtime_conf`. -/
def CniConfiguration.asCniRuntimeConf (config : CniConfiguration) : CniRuntimeConf where
  containerId := config.containerId
  netNs := config.netNsPath
  ifName := config.ifName
  args := config.args

namespace RealCni

variable {W : Type} (env : CniEnv W)

/-! ### The network configuration -/

/-- The configuration with that name among the files of a directory. One that does not parse is
passed over; one that cannot be read is an error. -/
def findByName (networkName : String) :
    List (Except IoError String) → CniOp W (Option JsonValue)
  | [] => pure none
  | .error error :: _ => Prog.fail (.io error)
  | .ok path :: rest => do
    if ← CniOp.ask env (.isFile path) then
      let content ← CniOp.askIo env (.read path)
      match env.fromSlice content with
      | .error _ => findByName networkName rest
      | .ok parsed =>
        if (parsed.get "name").bind JsonValue.asStr = some networkName then pure (some parsed)
        else findByName networkName rest
    else findByName networkName rest

/-- The first of the candidate files that exists. -/
def findCandidate : List String → CniOp W (Option String)
  | [] => pure none
  | candidate :: rest => do
    if ← CniOp.ask env (.pathExists candidate) then pure (some candidate) else findCandidate rest

/-- `load_network_config_from_dir`. -/
def loadNetworkConfigFromDir (config : CniConfiguration) : CniOp W JsonValue := do
  match config.confDir, config.networkName with
  | none, _ => Prog.fail (.invalidConfig "missing CNI conf dir")
  | some _, none => Prog.fail (.invalidConfig "missing CNI network name")
  | some confDir, some networkName =>
    let candidates := ["conflist", "conf", "json"].map fun extension =>
      pathJoin confDir (networkName ++ "." ++ extension)
    match ← findCandidate env candidates with
    | some candidate =>
      let content ← CniOp.askIo env (.read candidate)
      CniOp.ofJson (env.fromSlice content)
    | none =>
      let entries ← CniOp.askIo env (.readDir confDir)
      match ← findByName env networkName entries with
      | some parsed => pure parsed
      | none =>
        Prog.fail (.invalidConfig ("failed to load CNI configuration for network " ++
          Text.debugStr env.unprintable networkName ++ " from " ++
            Text.debugStr env.unprintable confDir))

/-- `normalize_network_config`: a list of plugins stays as it is, a single plugin becomes a list
of one. -/
def normalizeNetworkConfig (config : JsonValue) (defaultName : Option String) :
    Except Error JsonValue :=
  if ((config.get "plugins").bind JsonValue.asArray).isSome then .ok config
  else if (config.get "type").isSome then
    let cniVersion := (config.get "cniVersion").getD (.string "0.3.1")
    match ((config.get "name").bind JsonValue.asStr).or defaultName with
    | none =>
      .error (.invalidConfig "single-plugin CNI configuration must include a network name")
    | some name =>
      .ok (.object
        [("cniVersion", cniVersion), ("name", .string name), ("plugins", .array [config])])
  else .error (.invalidConfig "invalid CNI network configuration")

/-- `load_network_config`. -/
def loadNetworkConfig (config : CniConfiguration) : CniOp W JsonValue := do
  let parsed ← match config.networkConfig with
    | some rawConfig => CniOp.ofJson (env.fromStr rawConfig)
    | none => loadNetworkConfigFromDir env config
  Prog.ofExcept (normalizeNetworkConfig parsed config.networkName)

/-! ### One plugin -/

/-- One turn of the loop of `plugin_input` over the keys `cniVersion` and `name`. -/
def fillKey (networkFields fields : List (String × JsonValue)) (key : String) :
    List (String × JsonValue) :=
  match SortedMap.get key fields, SortedMap.get key networkFields with
  | none, some value => SortedMap.insert key value fields
  | _, _ => fields

/-- `plugin_input`. -/
def pluginInput (networkConfig plugin : JsonValue) (prevResult : Option JsonValue) :
    Except Error JsonValue :=
  match networkConfig.asObject, plugin.asObject with
  | none, _ => .error (.invalidConfig "CNI network configuration must be a JSON object")
  | some _, none => .error (.invalidConfig "CNI plugin configuration must be a JSON object")
  | some networkFields, some fields =>
    let filled := ["cniVersion", "name"].foldl (fillKey networkFields) fields
    match prevResult with
    | some prevResult => .ok (.object (SortedMap.insert "prevResult" prevResult filled))
    | none => .ok (.object filled)

/-- A list of texts as the format `{:?}` shows it. -/
def debugList (unprintable : Char → Bool) (texts : List String) : String :=
  "[" ++ ", ".intercalate (texts.map (Text.debugStr unprintable)) ++ "]"

/-- `find_plugin`, for the directories that are left. -/
def findPluginIn (pluginType : String) (binPath : List String) : List String → CniOp W String
  | [] =>
    Prog.fail (.invalidConfig ("failed to find CNI plugin binary " ++
      Text.debugStr env.unprintable pluginType ++ " in " ++ debugList env.unprintable binPath))
  | dir :: rest => do
    let candidate := pathJoin dir pluginType
    if ← CniOp.ask env (.isFile candidate) then pure candidate
    else findPluginIn pluginType binPath rest

/-- `find_plugin`. -/
def findPlugin (pluginType : String) (binPath : List String) : CniOp W String :=
  findPluginIn env pluginType binPath binPath

/-- `format_cni_args`. -/
def formatCniArgs (args : List (String × String)) : String :=
  ";".intercalate (args.map fun arg => arg.1 ++ "=" ++ arg.2)

/-- The environment variables of a plugin. -/
def pluginVars (config : CniConfiguration) (runtimeConf : CniRuntimeConf) (command : CniCommand) :
    List (String × String) :=
  [("CNI_COMMAND", command.text),
    ("CNI_CONTAINERID", runtimeConf.containerId.getD ""),
    ("CNI_NETNS", runtimeConf.netNs.getD ""),
    ("CNI_IFNAME", runtimeConf.ifName.getD ""),
    ("CNI_PATH", ":".intercalate config.binPath),
    ("CNI_ARGS", formatCniArgs runtimeConf.args),
    ("CNI_CACHE_DIR", config.cacheDir.getD "")]

/-- What `run_plugin` makes of a plugin that it has tried to start: its output, or the first thing
that went wrong. -/
def pluginResult (unprintable : Char → Bool) (pluginType : String) :
    Except IoError PluginProcess → Except Error (List UInt8)
  | .error error => .error (.process error.text)
  | .ok process =>
    match process.written, process.waited with
    | .error error, _ => .error (.io error)
    | .ok _, .error error => .error (.io error)
    | .ok _, .ok _ =>
      if process.status.success then .ok process.stdout
      else
        let stderr := Text.trim (Text.fromUtf8Lossy process.stderr)
        .error (.process (if stderr = [] then
            "CNI plugin " ++ Text.debugStr unprintable pluginType ++ " exited with status " ++
              process.status.display
          else
            "CNI plugin " ++ Text.debugStr unprintable pluginType ++ " failed: " ++
              String.ofList stderr))

/-- `run_plugin`. -/
def runPlugin (config : CniConfiguration) (input : JsonValue) (runtimeConf : CniRuntimeConf)
    (command : CniCommand) : CniOp W (List UInt8) := do
  match (input.get "type").bind JsonValue.asStr with
  | none => Prog.fail (.invalidConfig "CNI plugin type is not set")
  | some pluginType =>
    let program ← findPlugin env pluginType config.binPath
    let process ← CniOp.ask env
      (.run program (pluginVars config runtimeConf command) (env.toVec input))
    Prog.ofExcept (pluginResult env.unprintable pluginType process)

/-! ### The list of plugins -/

/-- The loop of `invoke_network_list`, over the plugins that are left. -/
def runPlugins (config : CniConfiguration) (command : CniCommand) (networkConfig : JsonValue) :
    Option JsonValue → List JsonValue → CniOp W (Option JsonValue)
  | prevResult, [] => pure prevResult
  | prevResult, plugin :: rest => do
    let input ← Prog.ofExcept (pluginInput networkConfig plugin prevResult)
    let output ← runPlugin env config input config.asCniRuntimeConf command
    match command with
    | .add => do
      let result ← CniOp.ofJson (env.fromSlice output)
      runPlugins config .add networkConfig (some result) rest
    | .del => runPlugins config .del networkConfig prevResult rest

/-- The plugins of a network configuration. -/
def plugins (networkConfig : JsonValue) : Option (List JsonValue) :=
  (networkConfig.get "plugins").bind JsonValue.asArray

/-- `invoke_network_list`. -/
def invokeNetworkList (config : CniConfiguration) (command : CniCommand) :
    CniOp W (Option CniResult) := do
  let networkConfig ← loadNetworkConfig env config
  match plugins networkConfig with
  | none => Prog.fail (.invalidConfig "CNI network configuration must contain plugins")
  | some plugins =>
    let prevResult ← runPlugins env config command networkConfig none
      (command.order plugins)
    match prevResult with
    | none => pure none
    | some value => do
      let result ← CniOp.ofJson (env.fromValue value)
      pure (some result)

/-- The closures that `invoke_cni` hands out: the plugins of this configuration are run with
`DEL`. -/
structure CniCleanup where
  config : CniConfiguration
  deriving DecidableEq

/-- Run such a closure. -/
def CniCleanup.run (cleanup : CniCleanup) : CniOp W Unit := do
  let _ ← invokeNetworkList env cleanup.config .del

/-- `invoke_cni`. -/
def invokeCni (config : CniConfiguration) : CniOp W (CniResult × List CniCleanup) := do
  let deleteResult ← (invokeNetworkList env config .del).attempt
  match deleteResult, config.force with
  | .error error, false =>
    Prog.fail (.process ("failed to delete pre-existing CNI network: " ++ error.display))
  | _, _ =>
    match ← invokeNetworkList env config .add with
    | some result => pure (result, [⟨config⟩])
    | none => Prog.fail (.process "CNI ADD did not return a result payload")

end RealCni

end FirecrackerSdk
