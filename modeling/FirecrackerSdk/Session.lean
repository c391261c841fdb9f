import FirecrackerSdk.Client

/-!
# Sessions with a server

A program that uses a client makes one call after the other, and which call it makes next depends on
what came back. Every call has a connection of its own: what the server sends after its reply, and
how the reads split what it sends, differ from one to the next. The server has a state, which the
calls change.

Such a program, run over the network, does what it does when it is run at the server, with the same
results and the same state in the end (`FirecrackerSdk.Session.overWire_eq`).
-/

namespace FirecrackerSdk

open UnixSocketTransport

/-- **A program that uses a client**: it is done, or it makes a call and goes on with the result. -/
inductive Session (β : Type) : Type 1 where
  | done (result : β)
  | call {α : Type} (request : ClientRequest α) (next : Outcome Error α → Session β)

/-- **A server** with a state: what it does with a call, and how it replies to what it sees. Its
replies carry its results, and its results can be written as texts. -/
structure Server (json : SerdeJson) (σ : Type) where
  handle : {α : Type} → ClientRequest α → σ → Except Refusal α × σ
  serve : Http1.Request → σ → Reply × σ
  carries : ∀ {α : Type} {request : ClientRequest α} {seen : Http1.Request},
    ClientRequest.recover json seen = some ⟨α, request⟩ → ∀ s,
      (serve seen s).1.Carries json request.returned (handle request s).1
  keeps : ∀ {α : Type} {request : ClientRequest α} {seen : Http1.Request},
    ClientRequest.recover json seen = some ⟨α, request⟩ → ∀ s,
      (serve seen s).2 = (handle request s).2
  returns : ∀ {α : Type} {request : ClientRequest α} {s : σ} {a : α},
    (handle request s).1 = .ok a → request.returned.Valid a ∧
      ∀ value ∈ request.returned.toValue a, json.Reads value

/-- What the network adds to each connection: the bytes after the reply, and the sizes of the
reads. -/
structure Network where
  more : ℕ → List UInt8
  sizes : ℕ → ℕ → ℕ

variable {json : SerdeJson} {σ α β : Type}

/-- The state of a server that has read what was written. -/
def Server.after (server : Server json σ) (written : List UInt8) (s : σ) : σ :=
  match Http1.parse written with
  | some (seen, []) => (server.serve seen s).2
  | _ => s

/-- A request that arrives as it was made. -/
def ClientRequest.Sound (json : SerdeJson) (request : ClientRequest α) : Prop :=
  (∀ id ∈ request.ids, PlainId id) ∧ request.Valid ∧ ∀ value ∈ request.body, json.Reads value

namespace Session

/-- **A session over the network**, from the connection with this number on. -/
def overWire (server : Server json σ) (network : Network) : Session β → ℕ → σ → β × σ
  | done b, _, s => (b, s)
  | call request next, n, s =>
    (next (Client.call json (served (fun seen => (server.serve seen s).1) (request.written json)
      (network.more n) (network.sizes n)) request)).overWire server network (n + 1)
      (server.after (request.written json) s)

/-- **A session at the server.** -/
def atServer (server : Server json σ) : Session β → σ → β × σ
  | done b, s => (b, s)
  | call request next, s =>
    (next (Client.outcome (server.handle request s).1)).atServer server (server.handle request s).2

/-- All the requests that a session can make arrive as they were made. -/
def Sound (json : SerdeJson) : Session β → Prop
  | done _ => True
  | call request next => request.Sound json ∧ ∀ result, (next result).Sound json

/-- The server does with the bytes of a request what it does with the request. -/
theorem after_written (server : Server json σ) {request : ClientRequest α}
    (h : request.Sound json) (s : σ) :
    server.after (request.written json) s = (server.handle request s).2 := by
  obtain ⟨hids, hvalid, hreads⟩ := h
  rw [Server.after, request.parse_written json hids]
  exact server.keeps (request.recover_seen json hvalid hreads) s

/-- One call. -/
theorem call_served (server : Server json σ) {request : ClientRequest α}
    (h : request.Sound json) (s : σ) (more : List UInt8) (sizes : ℕ → ℕ) :
    Client.call json (served (fun seen => (server.serve seen s).1) (request.written json) more
      sizes) request = Client.outcome (server.handle request s).1 := by
  obtain ⟨hids, hvalid, hreads⟩ := h
  exact Client.call_transparent json
    (server.carries (request.recover_seen json hvalid hreads) s) hids server.returns more sizes

/-- **A session over the network is the session at the server**: it has the same result, and leaves
the server in the same state, whatever the network adds to its connections. -/
theorem overWire_eq (server : Server json σ) (network : Network) (session : Session β)
    (h : session.Sound json) (n : ℕ) (s : σ) :
    session.overWire server network n s = session.atServer server s := by
  induction session generalizing n s with
  | done b => rfl
  | call request next ih =>
    obtain ⟨hrequest, hnext⟩ := h
    rw [overWire, call_served server hrequest, after_written server hrequest, ih _ (hnext _)]
    rfl

/-- A session that asks for the version, and then pauses the machine. -/
def sampleSession : Session (Outcome Error FirecrackerVersion × Outcome Error Unit) :=
  call .getFirecrackerVersion fun version =>
    call (.patchVm ⟨some "Paused"⟩) fun paused => done (version, paused)

/-- A server that knows its version only, and counts the calls. -/
def sampleServer : Server sampleJson ℕ where
  handle request count :=
    (match request with
      | .getFirecrackerVersion => .ok ⟨"1.4.1"⟩
      | _ => .error ⟨404, [], by decide⟩, count + 1)
  serve seen count :=
    (match ClientRequest.recover sampleJson seen with
      | some ⟨_, .getFirecrackerVersion⟩ =>
        { status := 200, body := some (asBytes "\x7b\"firecracker_version\":\"1.4.1\"\x7d") }
      | _ => { status := 404, body := some [] }, count + 1)
  carries {α request seen} hrecover count := by
    have hwf : ∀ (status : ℕ) (body : List UInt8), 100 ≤ status ∧ status < 1000 →
        body.length ≤ isizeMax → ({ status := status, body := some body } : Reply).WellFormed := by
      intro status body hstatus hlength
      refine ⟨hstatus, nofun, nofun, nofun, ?_, nofun⟩
      rintro _ ⟨⟩
      exact hlength
    rw [hrecover]
    cases request with
    | getFirecrackerVersion =>
      have hstatus : 200 ≤ 200 ∧ 200 < 300 := by decide
      exact ⟨hwf 200 _ (by decide) (by decide +kernel), hstatus, rfl⟩
    | _ => exact ⟨hwf 404 [] (by decide) (by decide), rfl, rfl⟩
  keeps _ _ := rfl
  returns {α request s a} h := by
    cases request with
    | getFirecrackerVersion =>
      obtain rfl := Except.ok.inj h
      refine ⟨fun field hfield => ?_, ?_⟩
      · obtain rfl := List.mem_singleton.mp hfield
        trivial
      · rintro _ ⟨⟩
        rfl
    | _ => cases h

theorem overWire_eq_sample :
    sampleSession.overWire sampleServer ⟨fun _ => [13, 10], fun n _ => n + 1⟩ 0 0 =
      ((.ok ⟨"1.4.1"⟩, .err (.api 404 "")), 2) := by
  refine overWire_eq sampleServer _ sampleSession ⟨⟨nofun, trivial, nofun⟩, fun _ => ⟨⟨?_, ?_, ?_⟩,
    fun _ => trivial⟩⟩ 0 0
  · exact fun _ h => absurd h List.not_mem_nil
  · intro field hfield
    obtain rfl := List.mem_singleton.mp hfield
    exact fun _ _ => trivial
  · intro value hvalue
    obtain rfl := Option.some.inj hvalue
    rfl

end Session

end FirecrackerSdk
