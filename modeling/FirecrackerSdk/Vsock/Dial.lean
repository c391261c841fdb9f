import Mathlib.Algebra.Order.Ring.Int
import FirecrackerSdk.Lib.Prog
import FirecrackerSdk.Lib.Text
import FirecrackerSdk.Lib.Utf8

/-!
# Dialing a vsock

`try_connect` connects to the socket of a vsock device, writes `CONNECT` with the port, and reads
one line of acknowledgement byte by byte, so that what comes after the line stays on the stream.
What goes wrong with the message is wrapped in a `ConnectMessageError`, what goes wrong with the
acknowledgement in an `AckError`, and either in an `io::Error`. `is_temporary_net_error` looks
through the outer error for an `AckError`, and so for nothing else inside.

`FirecrackerSdk.Vsock.ack_read_iff` says what the dialing makes of every stream of bytes.
-/

namespace FirecrackerSdk

namespace Vsock

/-! ### Errors -/

/-- `io::ErrorKind`: the kinds that the code names, and the others. -/
inductive NetErrorKind where
  | notFound
  | connectionRefused
  | connectionReset
  | connectionAborted
  | addrNotAvailable
  | interrupted
  | wouldBlock
  | timedOut
  | invalidData
  | unexpectedEof
  | writeZero
  | other
  | code (number : ℕ)
  deriving DecidableEq

mutual

/-- `io::Error`: one of the operating system, or one with an error inside. -/
inductive NetError where
  | os (kind : NetErrorKind) (text : String)
  | custom (kind : NetErrorKind) (inner : StdError)

/-- `dyn StdError`, for the errors that occur. -/
inductive StdError where
  | io (error : NetError)
  /-- `AckError`. -/
  | ack (cause : NetError)
  /-- `ConnectMessageError`. -/
  | connectMessage (cause : NetError)
  | text (text : String)

end

mutual

/-- What an `io::Error` displays. -/
def NetError.display : NetError → String
  | .os _ text => text
  | .custom _ inner => inner.display

/-- What an error displays. -/
def StdError.display : StdError → String
  | .io error => error.display
  | .ack cause => "vsock ack message failure: " ++ cause.display
  | .connectMessage cause => "vsock connect message failure: " ++ cause.display
  | .text text => text

end

namespace NetError

/-- `io::Error::kind`. -/
def kind : NetError → NetErrorKind
  | .os kind _ => kind
  | .custom kind _ => kind

/-- `io::Error::get_ref`. -/
def getRef : NetError → Option StdError
  | .os _ _ => none
  | .custom _ inner => some inner

/-- `io::Error::new` with a text. -/
def new (kind : NetErrorKind) (text : String) : NetError := .custom kind (.text text)

/-- `io::Error::other`. -/
def otherError (inner : StdError) : NetError := .custom .other inner

end NetError

/-- `downcast_ref::<AckError>().is_some()`. -/
def StdError.isAck : StdError → Bool
  | .ack _ => true
  | _ => false

/-- The kinds of error that may go away. -/
def NetErrorKind.isTemporary : NetErrorKind → Bool
  | .timedOut | .wouldBlock | .interrupted | .connectionAborted | .connectionRefused
  | .connectionReset | .notFound | .addrNotAvailable => true
  | _ => false

/-- `is_temporary_net_error`. -/
def isTemporaryNetError : StdError → Bool
  | .ack _ => true
  | .io error =>
    if error.kind.isTemporary then true
    else
      match error.getRef with
      | some inner => inner.isAck
      | none => false
  | _ => false

/-! ### The configuration -/

/-- A `Duration` as the format `{:?}` shows it: the decimals of a unit, without zeros at the end. -/
def showDecimal (whole part digits : ℕ) (unit : String) : String :=
  let decimals := (toString part).toList
  let padded := List.replicate (digits - decimals.length) '0' ++ decimals
  let trimmed := (padded.reverse.dropWhile (· == '0')).reverse
  toString whole ++ (if trimmed = [] then "" else "." ++ String.ofList trimmed) ++ unit

/-- `Duration` as the format `{:?}` shows it, from its nanoseconds. -/
def debugDuration (nanos : ℕ) : String :=
  if 10 ^ 9 ≤ nanos then showDecimal (nanos / 10 ^ 9) (nanos % 10 ^ 9) 9 "s"
  else if 10 ^ 6 ≤ nanos then showDecimal (nanos / 10 ^ 6) (nanos % 10 ^ 6) 6 "ms"
  else if 10 ^ 3 ≤ nanos then showDecimal (nanos / 10 ^ 3) (nanos % 10 ^ 3) 3 "µs"
  else showDecimal nanos 0 0 "ns"

/-- `DialConfig`, in nanoseconds. -/
structure DialConfig where
  dialTimeout : ℕ := 100 * 10 ^ 6
  retryTimeout : ℕ := 20 * 10 ^ 9
  retryInterval : ℕ := 100 * 10 ^ 6
  connectMsgTimeout : ℕ := 100 * 10 ^ 6
  ackMsgTimeout : ℕ := 10 ^ 9

/-! ### One attempt -/

/-- **What an attempt to connect meets**: the results of its system calls. A read gives the next
byte, or fails; after the last one the stream is at its end. An error shows a text in the format
`{:?}`, which escapes some characters. -/
structure Peer where
  connect : Except NetError Unit
  setWriteTimeout : ℕ → Except NetError Unit
  write : List UInt8 → Except NetError ℕ
  setReadTimeout : ℕ → Except NetError Unit
  incoming : List (Except NetError UInt8)
  unprintable : Char → Bool := fun _ => false

/-- `UnixStream`: what can still be read from it. -/
structure UnixStream where
  unread : List (Except NetError UInt8)

/-- `connect_message`. -/
def connectMessage (port : ℕ) : String := "CONNECT " ++ toString port ++ "\n"

/-- What goes on while a connection is made: the state is the bytes that were written to it. -/
abbrev DialOp (α : Type) : Type := Prog (List UInt8) NetError α

/-- `Write::write`, which may take fewer bytes than it is given. -/
def streamWrite (peer : Peer) (bytes : List UInt8) : DialOp ℕ := fun written =>
  match peer.write bytes with
  | .ok taken => (.ok taken, written ++ bytes.take taken)
  | .error error => (.err error, written)

/-- `try_conn_write`. Whether the timeout can be taken back does not matter. -/
def tryConnWrite (peer : Peer) (expectedWrite : List UInt8) (timeout : ℕ) : DialOp Unit := do
  Prog.ofExcept (peer.setWriteTimeout timeout)
  let bytesWritten ← streamWrite peer expectedWrite
  if bytesWritten ≠ expectedWrite.length then
    Prog.fail (.new .writeZero ("incomplete write, expected " ++ toString expectedWrite.length ++
      " bytes but wrote " ++ toString bytesWritten))
  else pure ()

/-- Where the first malformed sequence of bytes begins, and how long it is. -/
def malformedAt : ℕ → ℕ → List UInt8 → Option (ℕ × ℕ)
  | _, _, [] => none
  | 0, _, _ :: _ => none
  | fuel + 1, index, b :: rest =>
    let decoded := Text.decodeOne b rest
    let length := 1 + rest.length - decoded.2.length
    if decoded.1.isSome then malformedAt fuel (index + length) decoded.2
    else some (index, length)

/-- What a `FromUtf8Error` displays, for bytes that do not end in the middle of a character. -/
def utf8ErrorText (bytes : List UInt8) : String :=
  match malformedAt bytes.length 0 bytes with
  | some (index, length) =>
    "invalid utf-8 sequence of " ++ toString length ++ " bytes from index " ++ toString index
  | none => ""

/-- The loop of `try_conn_read_until`: the text up to the byte `stop`, and what is left. -/
def readUntil (stop : UInt8) : List UInt8 → List (Except NetError UInt8) →
    Except NetError (String × List (Except NetError UInt8))
  | _, [] => .error (.new .unexpectedEof "unexpected EOF while waiting for vsock ack")
  | _, .error error :: _ => .error error
  | buf, .ok byte :: incoming =>
    if byte = stop then
      match Utf8.decode (buf ++ [byte]) with
      | some line => .ok (line, incoming)
      | none => .error (.new .invalidData (utf8ErrorText (buf ++ [byte])))
    else readUntil stop (buf ++ [byte]) incoming

/-- `try_conn_read_until`. -/
def tryConnReadUntil (peer : Peer) (stop : UInt8) (timeout : ℕ) :
    Except NetError (String × List (Except NetError UInt8)) := do
  peer.setReadTimeout timeout
  readUntil stop [] peer.incoming

/-- The byte that ends a line. -/
def newline : UInt8 := 10

/-- `try_connect`. -/
def tryConnect (peer : Peer) (port : ℕ) (config : DialConfig) : DialOp UnixStream := do
  Prog.ofExcept peer.connect
  let message := connectMessage port
  match ← (tryConnWrite peer (Utf8.bytes message.toList) config.connectMsgTimeout).attempt with
  | .error error =>
    Prog.fail (.otherError (.connectMessage (.new error.kind ("failed to write " ++
      Text.debugStr peer.unprintable message ++ " within " ++
      debugDuration config.connectMsgTimeout ++ ": " ++ error.display))))
  | .ok () =>
    match tryConnReadUntil peer newline config.ackMsgTimeout with
    | .error error =>
      Prog.fail (.otherError (.ack (.new error.kind ("failed to read \"OK <port>\" within " ++
        debugDuration config.ackMsgTimeout ++ ": " ++ error.display))))
    | .ok (line, unread) =>
      if "OK ".toList.isPrefixOf line.toList then pure ⟨unread⟩
      else
        Prog.fail (.otherError (.ack (.new .invalidData
          ("expected to read \"OK <port>\", but instead read " ++
            Text.debugStr peer.unprintable line))))

/-! ### The message -/

theorem ofExcept_ok_bind {α β : Type} (a : α) (f : α → DialOp β) (written : List UInt8) :
    (Prog.ofExcept (.ok a) >>= f) written = f a written := rfl

/-- **Nothing goes wrong on the wire**, and the peer sends these bytes before it closes. -/
structure Smooth (peer : Peer) (port : ℕ) (config : DialConfig) (bytes : List UInt8) : Prop where
  connect : peer.connect = .ok ()
  setWriteTimeout : peer.setWriteTimeout config.connectMsgTimeout = .ok ()
  write : peer.write (Utf8.bytes (connectMessage port).toList) =
    .ok (Utf8.bytes (connectMessage port).toList).length
  setReadTimeout : peer.setReadTimeout config.ackMsgTimeout = .ok ()
  incoming : peer.incoming = bytes.map .ok

/-- What is written: the whole message. -/
theorem tryConnWrite_of_ok {peer : Peer} {port : ℕ} {config : DialConfig}
    (htimeout : peer.setWriteTimeout config.connectMsgTimeout = .ok ())
    (hok : peer.write (Utf8.bytes (connectMessage port).toList) =
      .ok (Utf8.bytes (connectMessage port).toList).length) :
    (tryConnWrite peer (Utf8.bytes (connectMessage port).toList) config.connectMsgTimeout).attempt
      [] = (.ok (.ok ()), Utf8.bytes (connectMessage port).toList) := by
  have hwrite : streamWrite peer (Utf8.bytes (connectMessage port).toList) [] =
      (.ok (Utf8.bytes (connectMessage port).toList).length,
        Utf8.bytes (connectMessage port).toList) := by
    unfold streamWrite
    rw [hok]
    simp
  unfold tryConnWrite
  rw [htimeout, Prog.attempt_apply, ofExcept_ok_bind, Prog.bind_of_ok hwrite,
    if_neg (not_not.mpr rfl)]
  rfl

/-- The write of a message fails or falls short. -/
def WriteFails (peer : Peer) (port : ℕ) (config : DialConfig) : Prop :=
  peer.setWriteTimeout config.connectMsgTimeout ≠ .ok () ∨
    peer.write (Utf8.bytes (connectMessage port).toList) ≠
      .ok (Utf8.bytes (connectMessage port).toList).length

theorem tryConnWrite_of_writeFails {peer : Peer} {port : ℕ} {config : DialConfig}
    (h : WriteFails peer port config) :
    ∃ error written, (tryConnWrite peer (Utf8.bytes (connectMessage port).toList)
      config.connectMsgTimeout).attempt [] = (.ok (.error error), written) := by
  rw [Prog.attempt_apply]
  unfold tryConnWrite
  cases htimeout : peer.setWriteTimeout config.connectMsgTimeout with
  | error error => exact ⟨error, [], rfl⟩
  | ok _ =>
    rw [ofExcept_ok_bind]
    cases hwrite : peer.write (Utf8.bytes (connectMessage port).toList) with
    | error error =>
      have hfailed : streamWrite peer (Utf8.bytes (connectMessage port).toList) [] =
          (.err error, []) := by
        unfold streamWrite
        rw [hwrite]
      rw [Prog.bind_of_err hfailed]
      exact ⟨error, [], rfl⟩
    | ok taken =>
      have hshort : taken ≠ (Utf8.bytes (connectMessage port).toList).length := by
        rcases h with h | h
        · exact absurd htimeout h
        · rintro rfl
          exact h hwrite
      have htaken : streamWrite peer (Utf8.bytes (connectMessage port).toList) [] =
          (.ok taken, (Utf8.bytes (connectMessage port).toList).take taken) := by
        unfold streamWrite
        rw [hwrite]
        rfl
      rw [Prog.bind_of_ok htaken, if_pos hshort]
      exact ⟨_, _, rfl⟩

/-! ### The acknowledgement -/

/-- **An acknowledgement**: a line of text that begins with `OK ` and a space. -/
def Acknowledges (bytes : List UInt8) : Prop :=
  ∃ line rest text, bytes = line ++ newline :: rest ∧ newline ∉ line ∧ Utf8.bytes text = line ∧
    "OK ".toList <+: text

theorem takeWhile_line {line rest : List UInt8} (hline : newline ∉ line) :
    (line ++ newline :: rest).takeWhile (· ≠ newline) = line := by
  rw [List.takeWhile_append_of_pos, List.takeWhile_cons_of_neg (by simp), List.append_nil]
  intro byte hbyte
  rw [decide_eq_true_iff]
  rintro rfl
  exact hline hbyte

/-- The loop reads up to the first `stop` and no further. -/
theorem readUntil_append {stop : UInt8} (buf line rest : List UInt8) (hline : stop ∉ line) :
    readUntil stop buf ((line ++ stop :: rest).map .ok) =
      match Utf8.decode (buf ++ line ++ [stop]) with
      | some text => .ok (text, rest.map .ok)
      | none => .error (.new .invalidData (utf8ErrorText (buf ++ line ++ [stop]))) := by
  induction line generalizing buf with
  | nil =>
    rw [List.nil_append, List.map_cons, readUntil, if_pos rfl, List.append_nil]
  | cons byte line ih =>
    have hbyte : byte ≠ stop := fun h => hline (h ▸ List.mem_cons_self)
    rw [List.cons_append, List.map_cons, readUntil, if_neg hbyte,
      ih (buf ++ [byte]) fun h => hline (List.mem_cons_of_mem _ h), List.append_assoc buf]
    rfl

theorem readUntil_eof {stop : UInt8} (buf bytes : List UInt8) (hbytes : stop ∉ bytes) :
    ∃ error, readUntil stop buf (bytes.map .ok) = .error error := by
  induction bytes generalizing buf with
  | nil => exact ⟨_, rfl⟩
  | cons byte bytes ih =>
    have hbyte : byte ≠ stop := fun h => hbytes (h ▸ List.mem_cons_self)
    rw [List.map_cons, readUntil, if_neg hbyte]
    exact ih (buf ++ [byte]) fun h => hbytes (List.mem_cons_of_mem _ h)

theorem tryConnReadUntil_of_smooth {peer : Peer} {port : ℕ} {config : DialConfig}
    {bytes : List UInt8} (h : Smooth peer port config bytes) :
    tryConnReadUntil peer newline config.ackMsgTimeout = readUntil newline [] (bytes.map .ok) := by
  unfold tryConnReadUntil
  rw [h.setReadTimeout, h.incoming]
  rfl

/-- A line with its newline is a text if it is one without, and begins in the same way. -/
theorem decode_line {line : List UInt8} :
    (∃ text, Utf8.decode (line ++ [newline]) = some text ∧
        "OK ".toList.isPrefixOf text.toList = true) ↔
      ∃ text, Utf8.bytes text = line ∧ "OK ".toList <+: text := by
  have hsmall : newline.toNat < 128 := by decide
  constructor
  · rintro ⟨text, hdecode, hbegins⟩
    obtain ⟨front, htext, hfront⟩ :=
      (Utf8.bytes_eq_snoc_iff hsmall).mp (Utf8.decode_eq_some_iff.mp hdecode)
    refine ⟨front, hfront, ?_⟩
    rw [List.isPrefixOf_iff_prefix, htext, List.prefix_concat_iff] at hbegins
    rcases hbegins with hwhole | hfront
    · -- the newline is not part of the prefix
      have hlast := congrArg List.getLast? hwhole
      rw [List.getLast?_concat] at hlast
      exact absurd hlast (by decide)
    · exact hfront
  · rintro ⟨front, rfl, hbegins⟩
    have hbytes : Utf8.bytes (front ++ [Char.ofNat newline.toNat]) =
        Utf8.bytes front ++ [newline] :=
      (Utf8.bytes_eq_snoc_iff hsmall).mpr ⟨front, rfl, rfl⟩
    have hchars : (String.ofList (front ++ [Char.ofNat newline.toNat])).toList =
        front ++ [Char.ofNat newline.toNat] := String.toList_ofList
    refine ⟨String.ofList (front ++ [Char.ofNat newline.toNat]), ?_, ?_⟩
    · rw [Utf8.decode_eq_some_iff, hchars, hbytes]
    · rw [hchars, List.isPrefixOf_iff_prefix]
      exact hbegins.trans (List.prefix_append _ _)

/-- Only the first line counts. -/
theorem acknowledges_iff {line rest : List UInt8} (hline : newline ∉ line) :
    Acknowledges (line ++ newline :: rest) ↔
      ∃ text, Utf8.bytes text = line ∧ "OK ".toList <+: text := by
  constructor
  · rintro ⟨line', rest', text, hbytes, hline', htext, hbegins⟩
    have hsame : line = line' := by
      have htake := congrArg (List.takeWhile (· ≠ newline)) hbytes
      rwa [takeWhile_line hline, takeWhile_line hline'] at htake
    exact ⟨text, htext.trans hsame.symm, hbegins⟩
  · rintro ⟨text, htext, hbegins⟩
    exact ⟨line, rest, text, rfl, hline, htext, hbegins⟩

/-- **What becomes of an attempt on which nothing goes wrong on the wire.** -/
theorem tryConnect_of_smooth {peer : Peer} {port : ℕ} {config : DialConfig} {bytes : List UInt8}
    (h : Smooth peer port config bytes) :
    (Acknowledges bytes ∧ ∃ line rest, bytes = line ++ newline :: rest ∧ newline ∉ line ∧
      tryConnect peer port config [] =
        (.ok ⟨rest.map .ok⟩, Utf8.bytes (connectMessage port).toList)) ∨
    (¬Acknowledges bytes ∧ ∃ cause, tryConnect peer port config [] =
      (.err (.otherError (.ack cause)), Utf8.bytes (connectMessage port).toList)) := by
  unfold tryConnect
  rw [h.connect, ofExcept_ok_bind, Prog.bind_of_ok (tryConnWrite_of_ok h.setWriteTimeout h.write)]
  dsimp only
  rw [tryConnReadUntil_of_smooth h]
  by_cases hnewline : newline ∈ bytes
  · obtain ⟨line, rest, rfl, hline⟩ := List.eq_append_cons_of_mem hnewline
    rw [readUntil_append [] line rest hline, List.nil_append, acknowledges_iff hline, ← decode_line]
    cases hdecode : Utf8.decode (line ++ [newline]) with
    | none =>
      refine .inr ⟨?_, _, rfl⟩
      rintro ⟨text, ⟨⟩, -⟩
    | some text =>
      dsimp only
      cases hbegins : "OK ".toList.isPrefixOf text.toList with
      | true => exact .inl ⟨⟨text, rfl, hbegins⟩, line, rest, rfl, hline, rfl⟩
      | false =>
        refine .inr ⟨?_, _, rfl⟩
        rintro ⟨text', ⟨⟩, hbegins'⟩
        exact absurd (hbegins.symm.trans hbegins') Bool.false_ne_true
  · obtain ⟨error, herror⟩ := readUntil_eof [] bytes hnewline
    rw [herror]
    refine .inr ⟨?_, _, rfl⟩
    rintro ⟨line, rest, text, rfl, -⟩
    exact hnewline (List.mem_append_right _ List.mem_cons_self)

/-- A failed message is wrapped in a `ConnectMessageError`. -/
theorem tryConnect_of_writeFails {peer : Peer} {port : ℕ} {config : DialConfig}
    (hconnect : peer.connect = .ok ()) (h : WriteFails peer port config) :
    ∃ cause, (tryConnect peer port config []).1 = .err (.otherError (.connectMessage cause)) := by
  obtain ⟨error, written, hfailed⟩ := tryConnWrite_of_writeFails h
  unfold tryConnect
  rw [hconnect, ofExcept_ok_bind, Prog.bind_of_ok hfailed]
  exact ⟨_, rfl⟩

/-- **An attempt reads one line**: it succeeds exactly if the line is an acknowledgement, leaves
what comes after it, and otherwise fails with an error that may go away; one whose message is not
written does not. -/
theorem ack_read_iff {peer : Peer} {port : ℕ} {config : DialConfig} {bytes : List UInt8}
    (h : Smooth peer port config bytes) :
    (tryConnect peer port config []).2 =
        Utf8.bytes ("CONNECT " ++ toString port ++ "\n").toList ∧
      ((∃ stream, (tryConnect peer port config []).1 = .ok stream) ↔ Acknowledges bytes) ∧
      (∀ stream, (tryConnect peer port config []).1 = .ok stream →
        ∃ line rest, bytes = line ++ newline :: rest ∧ newline ∉ line ∧
          stream.unread = rest.map .ok) ∧
      (¬Acknowledges bytes → ∃ error, (tryConnect peer port config []).1 = .err error ∧
        isTemporaryNetError (.io error) = true) ∧
      ∀ peer' : Peer, peer'.connect = .ok () → WriteFails peer' port config →
        ∃ error, (tryConnect peer' port config []).1 = .err error ∧
          isTemporaryNetError (.io error) = false := by
  have hwrite : ∀ peer' : Peer, peer'.connect = .ok () → WriteFails peer' port config →
      ∃ error, (tryConnect peer' port config []).1 = .err error ∧
        isTemporaryNetError (.io error) = false := by
    intro peer' hconnect hfails
    obtain ⟨cause, hcause⟩ := tryConnect_of_writeFails hconnect hfails
    exact ⟨_, hcause, rfl⟩
  rcases tryConnect_of_smooth h with ⟨hack, line, rest, rfl, hline, hok⟩ | ⟨hnot, cause, herr⟩
  · rw [hok]
    refine ⟨rfl, iff_of_true ⟨_, rfl⟩ hack, ?_, fun hnot => absurd hack hnot, hwrite⟩
    rintro stream ⟨⟩
    exact ⟨line, rest, rfl, hline, rfl⟩
  · rw [herr]
    refine ⟨rfl, iff_of_false ?_ hnot, ?_, fun _ => ⟨_, rfl, rfl⟩, hwrite⟩
    · rintro ⟨stream, ⟨⟩⟩
    · rintro stream ⟨⟩

/-- A proxy that takes the message and sends some bytes. -/
def proxySending (bytes : List UInt8) : Peer where
  connect := .ok ()
  setWriteTimeout _ := .ok ()
  write message := .ok message.length
  setReadTimeout _ := .ok ()
  incoming := bytes.map .ok

/-- An acknowledgement with a greeting right behind it: the greeting stays. -/
theorem ack_read_greeting :
    ∃ stream, (tryConnect (proxySending [79, 75, 32, 49, 10, 104, 105]) 52 {} []).1 = .ok stream ∧
      stream.unread = [.ok 104, .ok 105] := by
  have hsmooth : Smooth (proxySending [79, 75, 32, 49, 10, 104, 105]) 52 {}
      [79, 75, 32, 49, 10, 104, 105] := ⟨rfl, rfl, rfl, rfl, rfl⟩
  obtain ⟨-, hiff, hunread, -⟩ := ack_read_iff hsmooth
  have hack : Acknowledges [79, 75, 32, 49, 10, 104, 105] :=
    ⟨[79, 75, 32, 49], [104, 105], "OK 1".toList, rfl, by decide, by decide +kernel, by decide⟩
  obtain ⟨stream, hstream⟩ := hiff.mpr hack
  obtain ⟨line, rest, hbytes, hline, hrest⟩ := hunread stream hstream
  refine ⟨stream, hstream, ?_⟩
  have hsame : line = [79, 75, 32, 49] := by
    rw [← takeWhile_line hline, ← hbytes]
    decide
  rw [hsame] at hbytes
  have hgreeting : rest = [104, 105] := by simpa [newline, eq_comm] using hbytes
  rw [hrest, hgreeting]
  rfl

end Vsock

end FirecrackerSdk
