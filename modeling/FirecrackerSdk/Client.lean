import FirecrackerSdk.Lib.Utf8
import FirecrackerSdk.Replies
import FirecrackerSdk.Wire

/-!
# The client

`Client` of `client/firecracker_client.rs`: a request has a method, a path and perhaps a model as
its body, and the type of what it returns (`FirecrackerSdk.ClientRequest`). It is sent by the
transport, and what comes back is decoded, or dropped by the requests that return nothing
(`FirecrackerSdk.Client.call`).

On the other side is a server that reads one request by the rules of HTTP and replies
(`FirecrackerSdk.served`). The bytes in between do not show:

* `FirecrackerSdk.Client.call_eq_reply`: a call returns what the reply to its method, path and body
  says, whatever the reads are;
* `FirecrackerSdk.ClientRequest.written_injective`: no two calls are written alike, so that a server
  can tell the call with all its models from the bytes.

Texts of JSON are `serde_json`'s (`FirecrackerSdk.SerdeJson`). Time-outs do not fire here.
-/

namespace FirecrackerSdk

open UnixSocketTransport

/-! ### The requests -/

/-- The requests of a `Client`, by the type of what they return. `get_instance_info`,
`describe_balloon_config` and `describe_balloon_stats` are other names of requests that are here. -/
inductive ClientRequest : Type → Type where
  | getFirecrackerVersion : ClientRequest FirecrackerVersion
  | putLogger (logger : Logger) : ClientRequest Unit
  | putMetrics (metrics : Metrics) : ClientRequest Unit
  | putMachineConfiguration (config : MachineConfiguration) : ClientRequest Unit
  | patchMachineConfiguration (config : MachineConfiguration) : ClientRequest Unit
  | getMachineConfiguration : ClientRequest MachineConfiguration
  | putGuestBootSource (bootSource : BootSource) : ClientRequest Unit
  | putCpuConfiguration (config : JsonValue) : ClientRequest Unit
  | putEntropyDevice (device : EntropyDevice) : ClientRequest Unit
  | putGuestDriveById (driveId : String) (drive : Drive) : ClientRequest Unit
  | patchGuestDriveById (driveId : String) (drive : PartialDrive) : ClientRequest Unit
  | putGuestNetworkInterfaceById (ifaceId : String) (iface : NetworkInterfaceModel) :
      ClientRequest Unit
  | patchGuestNetworkInterfaceById (ifaceId : String) (iface : PartialNetworkInterface) :
      ClientRequest Unit
  | putGuestVsock (vsock : VsockModel) : ClientRequest Unit
  | patchVm (vm : Vm) : ClientRequest Unit
  | createSnapshot (snapshot : SnapshotCreateParams) : ClientRequest Unit
  | loadSnapshot (snapshot : SnapshotLoadParams) : ClientRequest Unit
  | createSyncAction (action : InstanceActionInfo) : ClientRequest Unit
  | putMmds (metadata : JsonValue) : ClientRequest Unit
  | getMmds : ClientRequest JsonValue
  | patchMmds (metadata : JsonValue) : ClientRequest Unit
  | putMmdsConfig (config : MmdsConfig) : ClientRequest Unit
  | describeInstance : ClientRequest InstanceInfo
  | putBalloon (balloon : Balloon) : ClientRequest Unit
  | getBalloonConfig : ClientRequest Balloon
  | patchBalloon (balloonUpdate : BalloonUpdate) : ClientRequest Unit
  | getBalloonStats : ClientRequest BalloonStats
  | patchBalloonStatsInterval (balloonStatsUpdate : BalloonStatsUpdate) : ClientRequest Unit
  | getExportVmConfig : ClientRequest FullVmConfiguration

/-- What is made of the body of a response: nothing, a model, or a `Value`. -/
inductive Returned : Type → Type 1 where
  | nothing : Returned Unit
  | model {α : Type} (codec : Codec α) : Returned α
  | value : Returned JsonValue

namespace Returned

variable {α : Type}

/-- The value of what is returned. -/
def toValue : Returned α → α → Option JsonValue
  | .nothing, _ => none
  | .model codec, a => some (codec.toValue a)
  | .value, metadata => some metadata

/-- What can be returned. -/
def Valid : Returned α → α → Prop
  | .nothing, _ => True
  | .model codec, a => codec.Valid a
  | .value, metadata => metadata.normalize = metadata

end Returned

namespace ClientRequest

variable {α β : Type}

/-- The method of a request. -/
def method : ClientRequest α → String
  | getFirecrackerVersion => "GET"
  | putLogger _ => "PUT"
  | putMetrics _ => "PUT"
  | putMachineConfiguration _ => "PUT"
  | patchMachineConfiguration _ => "PATCH"
  | getMachineConfiguration => "GET"
  | putGuestBootSource _ => "PUT"
  | putCpuConfiguration _ => "PUT"
  | putEntropyDevice _ => "PUT"
  | putGuestDriveById _ _ => "PUT"
  | patchGuestDriveById _ _ => "PATCH"
  | putGuestNetworkInterfaceById _ _ => "PUT"
  | patchGuestNetworkInterfaceById _ _ => "PATCH"
  | putGuestVsock _ => "PUT"
  | patchVm _ => "PATCH"
  | createSnapshot _ => "PUT"
  | loadSnapshot _ => "PUT"
  | createSyncAction _ => "PUT"
  | putMmds _ => "PUT"
  | getMmds => "GET"
  | patchMmds _ => "PATCH"
  | putMmdsConfig _ => "PUT"
  | describeInstance => "GET"
  | putBalloon _ => "PUT"
  | getBalloonConfig => "GET"
  | patchBalloon _ => "PATCH"
  | getBalloonStats => "GET"
  | patchBalloonStatsInterval _ => "PATCH"
  | getExportVmConfig => "GET"

/-- The path of a request. -/
def path : ClientRequest α → String
  | getFirecrackerVersion => "/version"
  | putLogger _ => "/logger"
  | putMetrics _ => "/metrics"
  | putMachineConfiguration _ => "/machine-config"
  | patchMachineConfiguration _ => "/machine-config"
  | getMachineConfiguration => "/machine-config"
  | putGuestBootSource _ => "/boot-source"
  | putCpuConfiguration _ => "/cpu-config"
  | putEntropyDevice _ => "/entropy"
  | putGuestDriveById driveId _ => ByIdRequest.putGuestDriveById.path driveId
  | patchGuestDriveById driveId _ => ByIdRequest.patchGuestDriveById.path driveId
  | putGuestNetworkInterfaceById ifaceId _ => ByIdRequest.putGuestNetworkInterfaceById.path ifaceId
  | patchGuestNetworkInterfaceById ifaceId _ =>
    ByIdRequest.patchGuestNetworkInterfaceById.path ifaceId
  | putGuestVsock _ => "/vsock"
  | patchVm _ => "/vm"
  | createSnapshot _ => "/snapshot/create"
  | loadSnapshot _ => "/snapshot/load"
  | createSyncAction _ => "/actions"
  | putMmds _ => "/mmds"
  | getMmds => "/mmds"
  | patchMmds _ => "/mmds"
  | putMmdsConfig _ => "/mmds/config"
  | describeInstance => "/"
  | putBalloon _ => "/balloon"
  | getBalloonConfig => "/balloon"
  | patchBalloon _ => "/balloon"
  | getBalloonStats => "/balloon/statistics"
  | patchBalloonStatsInterval _ => "/balloon/statistics"
  | getExportVmConfig => "/vm/config"

/-- The body of a request. -/
def body : ClientRequest α → Option JsonValue
  | getFirecrackerVersion => none
  | putLogger logger => some (Logger.codec.toValue logger)
  | putMetrics metrics => some (Metrics.codec.toValue metrics)
  | putMachineConfiguration config => some (MachineConfiguration.codec.toValue config)
  | patchMachineConfiguration config => some (MachineConfiguration.codec.toValue config)
  | getMachineConfiguration => none
  | putGuestBootSource bootSource => some (BootSource.codec.toValue bootSource)
  | putCpuConfiguration config => some config
  | putEntropyDevice device => some (EntropyDevice.codec.toValue device)
  | putGuestDriveById _ drive => some (Drive.codec.toValue drive)
  | patchGuestDriveById _ drive => some (PartialDrive.codec.toValue drive)
  | putGuestNetworkInterfaceById _ iface => some (NetworkInterfaceModel.codec.toValue iface)
  | patchGuestNetworkInterfaceById _ iface => some (PartialNetworkInterface.codec.toValue iface)
  | putGuestVsock vsock => some (VsockModel.codec.toValue vsock)
  | patchVm vm => some (Vm.codec.toValue vm)
  | createSnapshot snapshot => some (SnapshotCreateParams.codec.toValue snapshot)
  | loadSnapshot snapshot => some (SnapshotLoadParams.codec.toValue snapshot)
  | createSyncAction action => some (InstanceActionInfo.codec.toValue action)
  | putMmds metadata => some metadata
  | getMmds => none
  | patchMmds metadata => some metadata
  | putMmdsConfig config => some (MmdsConfig.codec.toValue config)
  | describeInstance => none
  | putBalloon balloon => some (Balloon.codec.toValue balloon)
  | getBalloonConfig => none
  | patchBalloon balloonUpdate => some (BalloonUpdate.codec.toValue balloonUpdate)
  | getBalloonStats => none
  | patchBalloonStatsInterval balloonStatsUpdate =>
    some (BalloonStatsUpdate.codec.toValue balloonStatsUpdate)
  | getExportVmConfig => none

/-- What a request makes of the response. -/
def returned : ClientRequest α → Returned α
  | getFirecrackerVersion => .model FirecrackerVersion.codec
  | putLogger _ => .nothing
  | putMetrics _ => .nothing
  | putMachineConfiguration _ => .nothing
  | patchMachineConfiguration _ => .nothing
  | getMachineConfiguration => .model MachineConfiguration.codec
  | putGuestBootSource _ => .nothing
  | putCpuConfiguration _ => .nothing
  | putEntropyDevice _ => .nothing
  | putGuestDriveById _ _ => .nothing
  | patchGuestDriveById _ _ => .nothing
  | putGuestNetworkInterfaceById _ _ => .nothing
  | patchGuestNetworkInterfaceById _ _ => .nothing
  | putGuestVsock _ => .nothing
  | patchVm _ => .nothing
  | createSnapshot _ => .nothing
  | loadSnapshot _ => .nothing
  | createSyncAction _ => .nothing
  | putMmds _ => .nothing
  | getMmds => .value
  | patchMmds _ => .nothing
  | putMmdsConfig _ => .nothing
  | describeInstance => .model InstanceInfo.codec
  | putBalloon _ => .nothing
  | getBalloonConfig => .model Balloon.codec
  | patchBalloon _ => .nothing
  | getBalloonStats => .model BalloonStats.codec
  | patchBalloonStatsInterval _ => .nothing
  | getExportVmConfig => .model FullVmConfiguration.codec

/-- The ids in the path of a request. -/
def ids : ClientRequest α → List String
  | putGuestDriveById driveId _ => [driveId]
  | patchGuestDriveById driveId _ => [driveId]
  | putGuestNetworkInterfaceById ifaceId _ => [ifaceId]
  | patchGuestNetworkInterfaceById ifaceId _ => [ifaceId]
  | _ => []

/-- The models in a request are such as there can be: a number is an `i64`, a `Value` is kept as it
is read. -/
def Valid : ClientRequest α → Prop
  | putLogger logger => Logger.codec.Valid logger
  | putMetrics metrics => Metrics.codec.Valid metrics
  | putMachineConfiguration config => MachineConfiguration.codec.Valid config
  | patchMachineConfiguration config => MachineConfiguration.codec.Valid config
  | putGuestBootSource bootSource => BootSource.codec.Valid bootSource
  | putCpuConfiguration config => config.normalize = config
  | putEntropyDevice device => EntropyDevice.codec.Valid device
  | putGuestDriveById _ drive => Drive.codec.Valid drive
  | patchGuestDriveById _ drive => PartialDrive.codec.Valid drive
  | putGuestNetworkInterfaceById _ iface => NetworkInterfaceModel.codec.Valid iface
  | patchGuestNetworkInterfaceById _ iface => PartialNetworkInterface.codec.Valid iface
  | putGuestVsock vsock => VsockModel.codec.Valid vsock
  | patchVm vm => Vm.codec.Valid vm
  | createSnapshot snapshot => SnapshotCreateParams.codec.Valid snapshot
  | loadSnapshot snapshot => SnapshotLoadParams.codec.Valid snapshot
  | createSyncAction action => InstanceActionInfo.codec.Valid action
  | putMmds metadata => metadata.normalize = metadata
  | patchMmds metadata => metadata.normalize = metadata
  | putMmdsConfig config => MmdsConfig.codec.Valid config
  | putBalloon balloon => Balloon.codec.Valid balloon
  | patchBalloon balloonUpdate => BalloonUpdate.codec.Valid balloonUpdate
  | patchBalloonStatsInterval balloonStatsUpdate =>
    BalloonStatsUpdate.codec.Valid balloonStatsUpdate
  | _ => True

end ClientRequest

/-! ### A call -/

/-- `serde_json`, as far as the client uses it. -/
structure SerdeJson where
  /-- `to_vec`, which does not fail on a model. -/
  toVec : JsonValue → List UInt8
  /-- The value that a text is, with the entries of its objects as they stand in it. -/
  fromSlice : List UInt8 → Option JsonValue
  /-- What the error displays if a text is not read as what is wanted of it. -/
  errorText : {α : Type} → (JsonValue → Option α) → List UInt8 → String

namespace SerdeJson

variable (json : SerdeJson) {α : Type}

/-- `serde_json::from_slice`. -/
def decode (fromValue : JsonValue → Option α) (bytes : List UInt8) : Except Error α :=
  match (json.fromSlice bytes).bind fromValue with
  | some a => .ok a
  | none => .error (.json (json.errorText fromValue bytes))

/-- What a call returns, given the body of the response. -/
def answer : Returned α → List UInt8 → Except Error α
  | .nothing, _ => .ok ()
  | .model codec, bytes => json.decode codec.fromValue bytes
  | .value, bytes => json.decode (some ·.normalize) bytes

/-- A value whose text is read as it. -/
def Reads (value : JsonValue) : Prop := json.fromSlice (json.toVec value) = some value

end SerdeJson

namespace Client

variable (json : SerdeJson) {α : Type}

/-- A method of `Client`. -/
def call (stream : UnixStream) (request : ClientRequest α) : Outcome Error α :=
  match rawRequestWithTimeouts stream request.method request.path (request.body.map json.toVec) with
  | .ok bytes => .ofExcept (json.answer request.returned bytes)
  | .err e => .err e
  | .dropped => .dropped

end Client

/-! ### What is written -/

namespace UnixSocketTransport

/-- Method and path stand at the beginning of the head, and what follows does not depend on
them. -/
theorem exists_asBytes_requestHead (n : ℕ) : ∃ tail, ∀ method path : String,
    asBytes (requestHead method path n) = asBytes method ++ 32 :: (asBytes path ++ tail) := by
  have hspace : asBytes " " = [32] := by decide
  refine ⟨asBytes " HTTP/1.1\r\nHost: localhost\r\nUser-Agent: firecracker-rs-sdk\r\n" ++
    (asBytes "Accept: application/json\r\nConnection: close\r\nContent-Length: " ++
    (asBytes (toString n) ++ (asBytes "\r\n" ++
    (asBytes (if n = 0 then "" else "Content-Type: application/json\r\n") ++ asBytes "\r\n")))),
    fun method path => ?_⟩
  simp only [requestHead, asBytes_append, hspace, List.append_assoc, List.cons_append,
    List.nil_append]

/-- **What is written is a message**, whatever the method and the path are. -/
theorem flatten_requestWrites_eq (method path : String) (body : List UInt8) :
    (requestWrites method path (some body)).flatten =
      Http1.message (Http1.requestLine (asBytes method) (asBytes path)) (fieldLines body.length)
        body := by
  obtain ⟨tail, htail⟩ := exists_asBytes_requestHead body.length
  -- what follows the path is known from any request
  have hknown := written_eq .putGuestDriveById "" body
  have hempty : asBytes "" = [] := by decide
  rw [ByIdRequest.written, flatten_requestWrites, htail, ByIdRequest.path, asBytes_append, hempty,
    List.append_nil, Http1.message, Http1.requestLine] at hknown
  have htail' : tail ++ body = 32 :: Http1.version ++ (Http1.crlf ++
      ((fieldLines body.length).flatMap (· ++ Http1.crlf) ++ (Http1.crlf ++ body))) := by
    simpa using hknown
  rw [flatten_requestWrites, htail, Http1.message, Http1.requestLine]
  simp only [List.append_assoc, List.cons_append] at htail' ⊢
  rw [htail']

/-- **A request parses as what it was made of**, if there is no space and no end of line in the
path. -/
theorem parse_requestWrites {method path : String}
    (hmethod : 13 ∉ asBytes method ∧ 32 ∉ asBytes method) (hspace : 32 ∉ asBytes path)
    (hline : Http1.OneLine (asBytes path)) (body : List UInt8) :
    Http1.parse (requestWrites method path (some body)).flatten =
      some (⟨asBytes method, asBytes path, fieldPairs body.length, body⟩, []) := by
  have hrequestLine : Http1.OneLine (Http1.requestLine (asBytes method) (asBytes path)) := by
    have hbegin : 13 ∉ asBytes method ++ [32] := by
      rw [List.mem_append, not_or]
      exact ⟨hmethod.1, by decide⟩
    have hend : Http1.OneLine (asBytes path ++ 32 :: Http1.version) :=
      hline.append_right (by decide)
    have happend := hend.append_left hbegin
    rwa [List.append_assoc] at happend
  have hparse := Http1.parse_message hrequestLine
    (Http1.parseRequestLine_eq_some_iff.mpr ⟨rfl, hmethod.2, hspace⟩)
    (fieldLines_oneLine body.length) (mapM_parseField_fieldLines body.length)
    (contentLength_fieldPairs body.length) []
  rw [List.append_nil] at hparse
  rw [flatten_requestWrites_eq, hparse]

end UnixSocketTransport

namespace ClientRequest

variable (json : SerdeJson) {α β : Type}

/-- The bytes of the body of a request. -/
def bodyBytes (request : ClientRequest α) : List UInt8 := (request.body.map json.toVec).getD []

/-- All that is written for a request. -/
def written (request : ClientRequest α) : List UInt8 :=
  (requestWrites request.method request.path (request.body.map json.toVec)).flatten

/-- The request as a server has to see it. -/
def seen (request : ClientRequest α) : Http1.Request where
  method := asBytes request.method
  target := asBytes request.path
  fields := fieldPairs (request.bodyBytes json).length
  body := request.bodyBytes json

theorem method_plain (request : ClientRequest α) :
    13 ∉ asBytes request.method ∧ 32 ∉ asBytes request.method := by
  cases request <;> rw [method] <;> decide +kernel

theorem byId_plain (request : ByIdRequest) {id : String} (hid : PlainId id) :
    32 ∉ asBytes (request.path id) ∧ Http1.OneLine (asBytes (request.path id)) := by
  obtain ⟨hreturn, hspace⟩ := collection_bytes request
  rw [ByIdRequest.path, asBytes_append, List.mem_append, not_or]
  exact ⟨⟨hspace, hid.2.2.1⟩, hid.2.2.2.append_left hreturn⟩

/-- The paths without an id in them. -/
def fixedPaths : List String :=
  ["/", "/actions", "/balloon", "/balloon/statistics", "/boot-source", "/cpu-config", "/entropy",
    "/logger", "/machine-config", "/metrics", "/mmds", "/mmds/config", "/snapshot/create",
    "/snapshot/load", "/version", "/vm", "/vm/config", "/vsock"]

theorem fixedPaths_plain :
    ∀ path ∈ fixedPaths, 32 ∉ asBytes path ∧ Http1.OneLine (asBytes path) := by
  decide +kernel

theorem path_mem_fixedPaths (request : ClientRequest α) (hids : request.ids = []) :
    request.path ∈ fixedPaths := by
  cases request with
  | putGuestDriveById | patchGuestDriveById => cases hids
  | putGuestNetworkInterfaceById | patchGuestNetworkInterfaceById => cases hids
  | _ => simp [path, fixedPaths]

/-- The path of a request is one part of the first line, if its ids are plain. -/
theorem path_plain (request : ClientRequest α) (hids : ∀ id ∈ request.ids, PlainId id) :
    32 ∉ asBytes request.path ∧ Http1.OneLine (asBytes request.path) := by
  cases request with
  | putGuestDriveById driveId _ => exact byId_plain _ (hids driveId (List.mem_singleton_self _))
  | patchGuestDriveById driveId _ => exact byId_plain _ (hids driveId (List.mem_singleton_self _))
  | putGuestNetworkInterfaceById ifaceId _ =>
    exact byId_plain _ (hids ifaceId (List.mem_singleton_self _))
  | patchGuestNetworkInterfaceById ifaceId _ =>
    exact byId_plain _ (hids ifaceId (List.mem_singleton_self _))
  | _ => exact fixedPaths_plain _ (path_mem_fixedPaths _ rfl)

/-- **A server sees the request that was made.** -/
theorem parse_written (request : ClientRequest α) (hids : ∀ id ∈ request.ids, PlainId id) :
    Http1.parse (request.written json) = some (request.seen json, []) := by
  obtain ⟨hspace, hline⟩ := request.path_plain hids
  exact parse_requestWrites request.method_plain hspace hline (request.bodyBytes json)

end ClientRequest

/-! ### A call and its server -/

/-- A connection to a server that reads one request and replies, and may send more after that. -/
def served (serve : Http1.Request → Reply) (written more : List UInt8) (sizes : ℕ → ℕ) :
    UnixStream where
  response :=
    match Http1.parse written with
    | some (request, []) => (serve request).encode ++ more
    | _ => []
  sizes := sizes

/-- **A call returns what the reply to its request says**, whatever the server is, whatever it sends
after the reply and however the reads split it. -/
theorem Client.call_eq_reply (json : SerdeJson) {α : Type} (request : ClientRequest α)
    (hids : ∀ id ∈ request.ids, PlainId id) (serve : Http1.Request → Reply)
    (hserve : (serve (request.seen json)).WellFormed) (more : List UInt8) (sizes : ℕ → ℕ) :
    Client.call json (served serve (request.written json) more sizes) request =
      .ofExcept ((serve (request.seen json)).result.bind (json.answer request.returned)) := by
  have hresponse : (served serve (request.written json) more sizes).response =
      (serve (request.seen json)).encode ++ more := by
    rw [served, request.parse_written json hids]
  have hraw : rawRequestWithTimeouts (served serve (request.written json) more sizes)
      request.method request.path (request.body.map json.toVec) =
      .ofExcept (serve (request.seen json)).result := by
    have hread := readResponse_eq request.method
      (served serve (request.written json) more sizes).source
      (by rw [UnixStream.source, hresponse]; exact hserve.contentLength_le more)
    have hsend : sendRequest (served serve (request.written json) more sizes) request.method
        request.path (request.body.map json.toVec) = .ok () := by
      rw [sendRequest]
      dsimp only
      split <;> rfl
    rw [rawRequestWithTimeouts, hsend]
    dsimp only
    rw [hread, UnixStream.source, hresponse, hserve.responseResult_encode]
  rw [Client.call, hraw]
  cases (serve (request.seen json)).result <;> rfl

/-! ### A server that knows the paths -/

/-- What comes after the path of a collection. -/
def idIn (collection path : String) : Option String :=
  if collection.toList <+: path.toList then
    some (String.ofList (path.toList.drop collection.toList.length))
  else none

theorem idIn_append (collection id : String) : idIn collection (collection ++ id) = some id := by
  rw [idIn, String.toList_append, if_pos (List.prefix_append _ _), List.drop_left,
    String.ofList_toList]

/-- The request with a model that is read from the body. -/
def withBody {α : Type} (value : Option JsonValue) (fromValue : JsonValue → Option α)
    (request : α → ClientRequest Unit) : Option (Sigma ClientRequest) :=
  (value.bind fromValue).map fun a => ⟨Unit, request a⟩

/-- The request for a drive or an interface. -/
def routeById (method : String) (value : Option JsonValue) :
    Option String → Option String → Option (Sigma ClientRequest)
  | some driveId, _ =>
    match method with
    | "PUT" => withBody value Drive.codec.fromValue (.putGuestDriveById driveId)
    | "PATCH" => withBody value PartialDrive.codec.fromValue (.patchGuestDriveById driveId)
    | _ => none
  | none, some ifaceId =>
    match method with
    | "PUT" =>
      withBody value NetworkInterfaceModel.codec.fromValue (.putGuestNetworkInterfaceById ifaceId)
    | "PATCH" =>
      withBody value PartialNetworkInterface.codec.fromValue
        (.patchGuestNetworkInterfaceById ifaceId)
    | _ => none
  | none, none => none

/-- The request for a path without an id. -/
def routeFixed (method path : String) (value : Option JsonValue) : Option (Sigma ClientRequest) :=
  match method, path with
  | "GET", "/" => some ⟨_, .describeInstance⟩
  | "PUT", "/actions" => withBody value InstanceActionInfo.codec.fromValue .createSyncAction
  | "GET", "/balloon" => some ⟨_, .getBalloonConfig⟩
  | "PUT", "/balloon" => withBody value Balloon.codec.fromValue .putBalloon
  | "PATCH", "/balloon" => withBody value BalloonUpdate.codec.fromValue .patchBalloon
  | "GET", "/balloon/statistics" => some ⟨_, .getBalloonStats⟩
  | "PATCH", "/balloon/statistics" =>
    withBody value BalloonStatsUpdate.codec.fromValue .patchBalloonStatsInterval
  | "PUT", "/boot-source" => withBody value BootSource.codec.fromValue .putGuestBootSource
  | "PUT", "/cpu-config" => withBody value (some ·.normalize) .putCpuConfiguration
  | "PUT", "/logger" => withBody value Logger.codec.fromValue .putLogger
  | "GET", "/machine-config" => some ⟨_, .getMachineConfiguration⟩
  | "PUT", "/machine-config" =>
    withBody value MachineConfiguration.codec.fromValue .putMachineConfiguration
  | "PATCH", "/machine-config" =>
    withBody value MachineConfiguration.codec.fromValue .patchMachineConfiguration
  | "PUT", "/metrics" => withBody value Metrics.codec.fromValue .putMetrics
  | "PUT", "/mmds" => withBody value (some ·.normalize) .putMmds
  | "PATCH", "/mmds" => withBody value (some ·.normalize) .patchMmds
  | "GET", "/mmds" => some ⟨_, .getMmds⟩
  | "PUT", "/mmds/config" => withBody value MmdsConfig.codec.fromValue .putMmdsConfig
  | "PUT", "/entropy" => withBody value EntropyDevice.codec.fromValue .putEntropyDevice
  | "PUT", "/snapshot/create" =>
    withBody value SnapshotCreateParams.codec.fromValue .createSnapshot
  | "PUT", "/snapshot/load" => withBody value SnapshotLoadParams.codec.fromValue .loadSnapshot
  | "GET", "/version" => some ⟨_, .getFirecrackerVersion⟩
  | "PATCH", "/vm" => withBody value Vm.codec.fromValue .patchVm
  | "GET", "/vm/config" => some ⟨_, .getExportVmConfig⟩
  | "PUT", "/vsock" => withBody value VsockModel.codec.fromValue .putGuestVsock
  | _, _ => none

/-- **The request that a server takes a method, a path and a body for**, by the paths and operations
of `client/swagger.yaml`. -/
def route (method path : String) (value : Option JsonValue) : Option (Sigma ClientRequest) :=
  (routeById method value (idIn "/drives/" path) (idIn "/network-interfaces/" path)).or
    (routeFixed method path value)

theorem withBody_eq {α : Type} (codec : Codec α) {a : α} (h : codec.Valid a)
    {value : Option JsonValue} (hvalue : value = some (codec.toValue a))
    (request : α → ClientRequest Unit) :
    withBody value codec.fromValue request = some ⟨Unit, request a⟩ := by
  rw [hvalue, withBody, Option.bind_some, codec.fromValue_toValue a h]
  rfl

theorem withBody_normalize {metadata : JsonValue} (h : metadata.normalize = metadata)
    {value : Option JsonValue} (hvalue : value = some metadata)
    (request : JsonValue → ClientRequest Unit) :
    withBody value (some ·.normalize) request = some ⟨Unit, request metadata⟩ := by
  rw [hvalue, withBody, Option.bind_some, h]
  rfl

theorem idIn_fixedPaths : ∀ path ∈ ClientRequest.fixedPaths,
    idIn "/drives/" path = none ∧ idIn "/network-interfaces/" path = none := by
  decide +kernel

theorem idIn_drives (ifaceId : String) :
    idIn "/drives/" ("/network-interfaces/" ++ ifaceId) = none := by
  rw [idIn, String.toList_append, if_neg]
  rintro ⟨t, ht⟩
  exact absurd (List.cons.inj (List.cons.inj ht).2).1 (by decide)

/-- A path without an id is no path of a drive or an interface. -/
theorem route_of_fixed {method path : String} {value : Option JsonValue}
    {request : Option (Sigma ClientRequest)} (hpath : path ∈ ClientRequest.fixedPaths)
    (h : routeFixed method path value = request) : route method path value = request := by
  obtain ⟨hdrive, hiface⟩ := idIn_fixedPaths path hpath
  rw [route, hdrive, hiface, h]
  rfl

namespace ClientRequest

variable (json : SerdeJson) {α β : Type}

/-- A request without an id is found by its path. -/
theorem routeFixed_eq (request : ClientRequest α) (hids : request.ids = [])
    (hvalid : request.Valid) {value : Option JsonValue}
    (hvalue : ∀ v ∈ request.body, value = some v) :
    routeFixed request.method request.path value = some ⟨α, request⟩ := by
  cases request with
  | putLogger => exact withBody_eq Logger.codec hvalid (hvalue _ rfl) .putLogger
  | putMetrics => exact withBody_eq Metrics.codec hvalid (hvalue _ rfl) .putMetrics
  | putMachineConfiguration =>
    exact withBody_eq MachineConfiguration.codec hvalid (hvalue _ rfl) .putMachineConfiguration
  | patchMachineConfiguration =>
    exact withBody_eq MachineConfiguration.codec hvalid (hvalue _ rfl) .patchMachineConfiguration
  | putGuestBootSource =>
    exact withBody_eq BootSource.codec hvalid (hvalue _ rfl) .putGuestBootSource
  | putCpuConfiguration => exact withBody_normalize hvalid (hvalue _ rfl) .putCpuConfiguration
  | putEntropyDevice =>
    exact withBody_eq EntropyDevice.codec hvalid (hvalue _ rfl) .putEntropyDevice
  | putGuestDriveById | patchGuestDriveById => cases hids
  | putGuestNetworkInterfaceById | patchGuestNetworkInterfaceById => cases hids
  | putGuestVsock => exact withBody_eq VsockModel.codec hvalid (hvalue _ rfl) .putGuestVsock
  | patchVm => exact withBody_eq Vm.codec hvalid (hvalue _ rfl) .patchVm
  | createSnapshot =>
    exact withBody_eq SnapshotCreateParams.codec hvalid (hvalue _ rfl) .createSnapshot
  | loadSnapshot => exact withBody_eq SnapshotLoadParams.codec hvalid (hvalue _ rfl) .loadSnapshot
  | createSyncAction =>
    exact withBody_eq InstanceActionInfo.codec hvalid (hvalue _ rfl) .createSyncAction
  | putMmds => exact withBody_normalize hvalid (hvalue _ rfl) .putMmds
  | patchMmds => exact withBody_normalize hvalid (hvalue _ rfl) .patchMmds
  | putMmdsConfig => exact withBody_eq MmdsConfig.codec hvalid (hvalue _ rfl) .putMmdsConfig
  | putBalloon => exact withBody_eq Balloon.codec hvalid (hvalue _ rfl) .putBalloon
  | patchBalloon => exact withBody_eq BalloonUpdate.codec hvalid (hvalue _ rfl) .patchBalloon
  | patchBalloonStatsInterval =>
    exact withBody_eq BalloonStatsUpdate.codec hvalid (hvalue _ rfl) .patchBalloonStatsInterval
  | _ => rfl

/-- **Every request is found by its method, its path and its body.** -/
theorem route_eq (request : ClientRequest α) (hvalid : request.Valid) {value : Option JsonValue}
    (hvalue : ∀ v ∈ request.body, value = some v) :
    route request.method request.path value = some ⟨α, request⟩ := by
  have hdrive := idIn_append "/drives/"
  have hiface := idIn_append "/network-interfaces/"
  cases request with
  | putGuestDriveById driveId drive =>
    show (routeById "PUT" _ (idIn "/drives/" ("/drives/" ++ driveId)) _).or _ = _
    rw [hdrive]
    exact congrArg (Option.or · _)
      (withBody_eq Drive.codec hvalid (hvalue _ rfl) (.putGuestDriveById driveId))
  | patchGuestDriveById driveId drive =>
    show (routeById "PATCH" _ (idIn "/drives/" ("/drives/" ++ driveId)) _).or _ = _
    rw [hdrive]
    exact congrArg (Option.or · _)
      (withBody_eq PartialDrive.codec hvalid (hvalue _ rfl) (.patchGuestDriveById driveId))
  | putGuestNetworkInterfaceById ifaceId iface =>
    show (routeById "PUT" _ (idIn "/drives/" ("/network-interfaces/" ++ ifaceId))
      (idIn "/network-interfaces/" ("/network-interfaces/" ++ ifaceId))).or _ = _
    rw [hiface, idIn_drives]
    exact congrArg (Option.or · _) (withBody_eq NetworkInterfaceModel.codec hvalid (hvalue _ rfl)
      (.putGuestNetworkInterfaceById ifaceId))
  | patchGuestNetworkInterfaceById ifaceId iface =>
    show (routeById "PATCH" _ (idIn "/drives/" ("/network-interfaces/" ++ ifaceId))
      (idIn "/network-interfaces/" ("/network-interfaces/" ++ ifaceId))).or _ = _
    rw [hiface, idIn_drives]
    exact congrArg (Option.or · _) (withBody_eq PartialNetworkInterface.codec hvalid (hvalue _ rfl)
      (.patchGuestNetworkInterfaceById ifaceId))
  | _ => exact route_of_fixed (path_mem_fixedPaths _ rfl) (routeFixed_eq _ rfl hvalid hvalue)

/-- The request that a server takes what it has seen for. -/
def recover (request : Http1.Request) : Option (Sigma ClientRequest) :=
  (Utf8.decode request.method).bind fun method =>
    (Utf8.decode request.target).bind fun path => route method path (json.fromSlice request.body)

theorem decode_asBytes (text : String) : Utf8.decode (asBytes text) = some text := by
  rw [Utf8.decode_eq_some_iff, ← Utf8.toByteArray_data, String.utf8Encode_toList]
  rfl

/-- **A server takes what it sees for the call that was made**, with all the models in it. -/
theorem recover_seen (request : ClientRequest α) (hvalid : request.Valid)
    (hreads : ∀ value ∈ request.body, json.Reads value) :
    recover json (request.seen json) = some ⟨α, request⟩ := by
  have hvalue : ∀ value ∈ request.body,
      json.fromSlice (request.bodyBytes json) = some value := by
    intro value hbody
    have hbytes : request.bodyBytes json = json.toVec value := by
      rw [bodyBytes, Option.mem_def.mp hbody]
      rfl
    rw [hbytes]
    exact hreads value hbody
  rw [recover, seen, decode_asBytes, decode_asBytes]
  exact request.route_eq hvalid hvalue

/-- **No two calls are written alike**: the bytes tell the method, the path and every model in a
call. -/
theorem written_injective {request : ClientRequest α} {request' : ClientRequest β}
    (hids : ∀ id ∈ request.ids, PlainId id) (hids' : ∀ id ∈ request'.ids, PlainId id)
    (hvalid : request.Valid) (hvalid' : request'.Valid)
    (hreads : ∀ value ∈ request.body, json.Reads value)
    (hreads' : ∀ value ∈ request'.body, json.Reads value)
    (h : request.written json = request'.written json) :
    (⟨α, request⟩ : Sigma ClientRequest) = ⟨β, request'⟩ := by
  have hparse := request.parse_written json hids
  rw [h, request'.parse_written json hids'] at hparse
  have hseen : request'.seen json = request.seen json :=
    (Prod.mk.inj (Option.some.inj hparse)).1
  have hrecover := request.recover_seen json hvalid hreads
  rw [← hseen, request'.recover_seen json hvalid' hreads'] at hrecover
  exact (Option.some.inj hrecover).symm

end ClientRequest

/-- A `serde_json` that knows three objects. -/
def sampleJson : SerdeJson where
  toVec
    | .object [(name, .string text)] =>
      asBytes ("\x7b\"" ++ name ++ "\":\"" ++ text ++ "\"\x7d")
    | _ => []
  fromSlice bytes :=
    if bytes = asBytes "\x7b\"state\":\"Paused\"\x7d" then
      some (.object [("state", .string "Paused")])
    else if bytes = asBytes "\x7b\"state\":\"Resumed\"\x7d" then
      some (.object [("state", .string "Resumed")])
    else if bytes = asBytes "\x7b\"firecracker_version\":\"1.4.1\"\x7d" then
      some (.object [("firecracker_version", .string "1.4.1")])
    else none
  errorText _ _ := "expected value at line 1 column 1"

theorem written_injective_states :
    ClientRequest.written sampleJson (.patchVm ⟨some "Paused"⟩) ≠
      ClientRequest.written sampleJson (.patchVm ⟨some "Resumed"⟩) := by
  have hvalid : ∀ vm, (ClientRequest.patchVm vm).Valid := by
    intro vm field hfield
    obtain rfl := List.mem_singleton.mp hfield
    exact fun _ _ => trivial
  have hids : ∀ vm, ∀ id ∈ (ClientRequest.patchVm vm).ids, PlainId id :=
    fun _ _ h => absurd h List.not_mem_nil
  intro h
  have heq := ClientRequest.written_injective sampleJson (hids _) (hids _) (hvalid _) (hvalid _)
    (fun value hvalue => by obtain rfl := Option.some.inj hvalue; rfl)
    (fun value hvalue => by obtain rfl := Option.some.inj hvalue; rfl) h
  have hvm := eq_of_heq (Sigma.mk.inj heq).2
  exact absurd (ClientRequest.patchVm.inj hvm) (by decide)

/-! ### A remote call is a local one -/

/-- A refusal of a server: a status that is no success, and a text. -/
structure Refusal where
  status : ℕ
  body : List UInt8
  refused : ¬(200 ≤ status ∧ status < 300)

/-- **A reply that carries a result**: what was returned, as a text, or the refusal. -/
def Reply.Carries (json : SerdeJson) {α : Type} (returned : Returned α) (reply : Reply) :
    Except Refusal α → Prop
  | .ok a => reply.WellFormed ∧ (200 ≤ reply.status ∧ reply.status < 300) ∧
      reply.body.getD [] = ((returned.toValue a).map json.toVec).getD []
  | .error refusal => reply.WellFormed ∧ reply.status = refusal.status ∧
      reply.body.getD [] = refusal.body

/-- What a call returns, given the result at the server. -/
def Client.outcome {α : Type} : Except Refusal α → Outcome Error α
  | .ok a => .ok a
  | .error refusal =>
    .err (.api refusal.status (String.ofList (Text.fromUtf8Lossy refusal.body)))

/-- What was returned is read back. -/
theorem SerdeJson.answer_toValue (json : SerdeJson) {α : Type} {returned : Returned α} {a : α}
    (hvalid : returned.Valid a) (hreads : ∀ value ∈ returned.toValue a, json.Reads value) :
    json.answer returned (((returned.toValue a).map json.toVec).getD []) = .ok a := by
  cases returned with
  | nothing => rfl
  | model codec =>
    have hread : json.fromSlice (json.toVec (codec.toValue a)) = some (codec.toValue a) :=
      hreads _ rfl
    show json.decode codec.fromValue (json.toVec (codec.toValue a)) = _
    rw [SerdeJson.decode, hread, Option.bind_some, codec.fromValue_toValue a hvalid]
  | value =>
    have hread : json.fromSlice (json.toVec a) = some a := hreads _ rfl
    have hnormal : a.normalize = a := hvalid
    show json.decode (some ·.normalize) (json.toVec a) = _
    rw [SerdeJson.decode, hread, Option.bind_some, hnormal]

/-- **A remote call is a local one**: the client returns the result that the server has for this
call, or its refusal, with every model as it was at the other side. -/
theorem Client.call_transparent (json : SerdeJson) {serve : Http1.Request → Reply} {α : Type}
    {request : ClientRequest α} {result : Except Refusal α}
    (hcarries : (serve (request.seen json)).Carries json request.returned result)
    (hids : ∀ id ∈ request.ids, PlainId id)
    (hreturned : ∀ {a}, result = .ok a → request.returned.Valid a ∧
      ∀ value ∈ request.returned.toValue a, json.Reads value)
    (more : List UInt8) (sizes : ℕ → ℕ) :
    Client.call json (served serve (request.written json) more sizes) request =
      Client.outcome result := by
  cases result with
  | ok a =>
    obtain ⟨hwf, hstatus, hbody⟩ := hcarries
    obtain ⟨hvalid, hreads⟩ := hreturned rfl
    rw [Client.call_eq_reply json request hids serve hwf more sizes, Reply.result, if_pos hstatus,
      hbody, Except.bind, json.answer_toValue hvalid hreads]
    rfl
  | error refusal =>
    obtain ⟨hwf, hstatus, hbody⟩ := hcarries
    have hrefused : ¬(200 ≤ (serve (request.seen json)).status ∧
        (serve (request.seen json)).status < 300) := by
      rw [hstatus]
      exact refusal.refused
    rw [Client.call_eq_reply json request hids serve hwf more sizes, Reply.result, if_neg hrefused,
      hbody, hstatus]
    rfl

end FirecrackerSdk
