import FirecrackerSdk.Machine.Configure
import FirecrackerSdk.Session

/-!
# A machine and the server that it talks to

The lifecycle of a machine is modelled in an environment that answers its client calls, and the
client in terms of the bytes that it writes and reads. Here the two meet: an environment whose
client calls are answered over the network (`FirecrackerSdk.Env.overWire`), by a server with a state
of its own (`FirecrackerSdk.Server`), each call on the next connection.

A call whose ids are plain and whose model is valid can as well be made at the server
(`FirecrackerSdk.Env.overWire_eq_atServer`). So whatever calls a user makes of a machine, in
whatever order and with whatever results, the machine is in the end as if it had been at the server,
and so is the server (`FirecrackerSdk.machine_on_network`). What has been proved of a machine in
every environment is thereby said of a machine on the network.
-/

namespace FirecrackerSdk

open UnixSocketTransport

/-- What a machine on the network deals with: the server, and the rest of the world. -/
structure Online (W σ : Type) where
  rest : W
  server : σ
  /-- The number of the next connection. -/
  connection : ℕ := 0

/-- The request that a call of `ClientOps` makes, if it returns nothing. Metadata are kept as they
are written. -/
def ClientCall.request (json : SerdeJson) : ClientCall → Option (ClientRequest Unit)
  | getMachineConfiguration => none
  | putLogger logger => some (.putLogger logger)
  | putMetrics metrics => some (.putMetrics metrics)
  | putMachineConfiguration config => some (.putMachineConfiguration config)
  | putGuestBootSource bootSource => some (.putGuestBootSource bootSource)
  | putGuestDriveById driveId drive => some (.putGuestDriveById driveId drive)
  | putGuestNetworkInterfaceById ifaceId iface =>
    some (.putGuestNetworkInterfaceById ifaceId iface)
  | putGuestVsock vsock => some (.putGuestVsock vsock)
  | putMmds metadata => (json.fromSlice (asBytes metadata)).map .putMmds
  | putMmdsConfig config => some (.putMmdsConfig config)
  | loadSnapshot snapshot => some (.loadSnapshot snapshot)
  | createSyncAction action => some (.createSyncAction action)

variable {W σ α : Type} {json : SerdeJson}

namespace Online

/-- What a call returns to the machine. A client that panics on what it reads, which does not happen
to a call that arrives as it was made, is taken for one that fails. -/
def returned : Outcome Error α → Except Error α
  | .ok a => .ok a
  | .err error => .error error
  | .dropped => .error (.process "the client panicked")

/-- **A call over the network**, on the next connection. -/
def overWire (server : Server json σ) (network : Network) (request : ClientRequest α)
    (w : Online W σ) : Except Error α × Online W σ :=
  (returned (Client.call json
      (served (fun seen => (server.serve seen w.server).1) (request.written json)
        (network.more w.connection) (network.sizes w.connection)) request),
    { w with
      server := server.after (request.written json) w.server
      connection := w.connection + 1 })

/-- **A call at the server.** -/
def handled (server : Server json σ) (request : ClientRequest α) (w : Online W σ) :
    Except Error α × Online W σ :=
  (returned (Client.outcome (server.handle request w.server).1),
    { w with
      server := (server.handle request w.server).2
      connection := w.connection + 1 })

/-- A call that can be made at the server is, and any other goes over the network. -/
noncomputable def atServer (server : Server json σ) (network : Network)
    (request : ClientRequest α) (w : Online W σ) : Except Error α × Online W σ :=
  open Classical in
  if request.Sound json then handled server request w else overWire server network request w

theorem overWire_eq_atServer (server : Server json σ) (network : Network)
    (request : ClientRequest α) (w : Online W σ) :
    overWire server network request w = atServer server network request w := by
  unfold atServer
  split
  · rename_i hsound
    rw [overWire, Session.call_served server hsound, Session.after_written server hsound]
    rfl
  · rfl

end Online

/-! ### Environments -/

/-- An environment whose client calls are answered in some way, and everything else as before. -/
def Env.connected (env : Env W)
    (exchange : {α : Type} → ClientRequest α → Online W σ → Except Error α × Online W σ)
    (json : SerdeJson) : Env (Online W σ) where
  answer query w :=
    let others {β : Type} (query : Query β) : β × Online W σ :=
      ((env.answer query w.rest).1, { w with rest := (env.answer query w.rest).2 })
    match query with
    | .client call =>
      match call.request json with
      | some request => exchange request w
      | none => others (.client call)
    | .getMachineConfiguration => exchange .getMachineConfiguration w
    | query => others query
  unprintable := env.unprintable

/-- **The environment on the network.** -/
def Env.overWire (env : Env W) (server : Server json σ) (network : Network) : Env (Online W σ) :=
  env.connected (Online.overWire server network) json

/-- **The environment at the server.** -/
noncomputable def Env.atServer (env : Env W) (server : Server json σ) (network : Network) :
    Env (Online W σ) :=
  env.connected (Online.atServer server network) json

theorem Env.overWire_eq_atServer (env : Env W) (server : Server json σ) (network : Network) :
    env.overWire server network = env.atServer server network := by
  unfold Env.overWire Env.atServer
  congr 1
  funext α request w
  exact Online.overWire_eq_atServer server network request w

/-- What is said of every environment is said of the two alike. -/
theorem runCalls_overWire (env : Env W) (server : Server json σ) (network : Network)
    (calls : List Call) (s : Sys (Online W σ)) :
    runCalls (env.overWire server network) calls s =
      runCalls (env.atServer server network) calls s := by
  rw [env.overWire_eq_atServer]

/-- **A machine on the network is a machine at the server.** A client call whose ids are plain and
whose model is valid, and every question for the machine configuration, is answered with what the
server does with it, and leaves the server in that state. Hence, in whatever order its lifecycle is
gone through and however the calls end, a machine has the same fields and the same trace as at the
server, and the server and the rest of the world are in the same state. -/
theorem machine_on_network (env : Env W) (server : Server json σ) (network : Network) :
    (∀ (call : ClientCall) (request : ClientRequest Unit) (w : Online W σ),
      call.request json = some request → request.Sound json →
        (env.overWire server network).answer (.client call) w =
          Online.handled server request w) ∧
    (∀ w : Online W σ, (env.overWire server network).answer .getMachineConfiguration w =
      Online.handled server .getMachineConfiguration w) ∧
    ∀ (calls : List Call) (s : Sys (Online W σ)),
      runCalls (env.overWire server network) calls s =
        runCalls (env.atServer server network) calls s := by
  refine ⟨fun call request w hrequest hsound => ?_, fun w => ?_,
    runCalls_overWire env server network⟩
  · have hanswer : (env.overWire server network).answer (.client call) w =
        Online.overWire server network request w := by
      show (match call.request json with
        | some request => Online.overWire server network request w
        | none => _) = _
      rw [hrequest]
    rw [hanswer, Online.overWire_eq_atServer, Online.atServer, if_pos hsound]
  · have hsound : ClientRequest.getMachineConfiguration.Sound json :=
      ⟨fun _ h => absurd h List.not_mem_nil, trivial, nofun⟩
    have hanswer : (env.overWire server network).answer .getMachineConfiguration w =
        Online.overWire server network .getMachineConfiguration w := rfl
    rw [hanswer, Online.overWire_eq_atServer, Online.atServer, if_pos hsound]

/-- Metadata are put on a server that does not know them. -/
theorem machine_on_network_metadata :
    ((Env.answering Query.smooth).overWire Session.sampleServer
        ⟨fun _ => [13, 10], fun n _ => n + 1⟩).answer
          (.client (.putMmds "\x7b\"state\":\"Paused\"\x7d")) ⟨(), 0, 0⟩ =
      (.error (.api 404 ""), ⟨(), 1, 1⟩) := by
  have hrequest : (ClientCall.putMmds "\x7b\"state\":\"Paused\"\x7d").request sampleJson =
      some (.putMmds (.object [("state", .string "Paused")])) := rfl
  have hsound :
      (ClientRequest.putMmds (.object [("state", .string "Paused")])).Sound sampleJson := by
    refine ⟨fun _ h => absurd h List.not_mem_nil, rfl, fun value hvalue => ?_⟩
    obtain rfl := Option.some.inj hvalue
    rfl
  exact (machine_on_network (Env.answering Query.smooth) Session.sampleServer
    ⟨fun _ => [13, 10], fun n _ => n + 1⟩).1 _ _ ⟨(), 0, 0⟩ hrequest hsound

end FirecrackerSdk
