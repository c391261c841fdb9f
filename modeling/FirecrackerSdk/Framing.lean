import FirecrackerSdk.Transport
import FirecrackerSdk.Lib.Http1

/-!
# Requests that name a drive or an interface

Four requests of the client have the id of a drive or of a network interface in their path. The
id is put into the first line of the request as it is, so that a space, an end of line or a
character with a meaning in a path makes the request something else than what was asked for.

What the client writes (`FirecrackerSdk.ByIdRequest.written`) is read by the rules of
`FirecrackerSdk.Lib.Http1`. `FirecrackerSdk.by_id_requests_arrive_iff` says that the request arrives
as the one request for the one resource exactly if the id has none of these characters, whatever
the body is.
-/

namespace FirecrackerSdk

open UnixSocketTransport

namespace UnixSocketTransport

/-! ### What is written -/

/-- The writes of a request. -/
def requestWrites (method path : String) (body : Option (List UInt8)) : List (List UInt8) :=
  let body := body.getD []
  asBytes (requestHead method path body.length) :: if body = [] then [] else [body]

/-- **A request is sent by its writes**, one after the other, until one fails. -/
theorem sendRequest_eq (stream : UnixStream) (method path : String) (body : Option (List UInt8)) :
    sendRequest stream method path body = (do
      liftIo stream.connect
      forM (requestWrites method path body) fun bytes => liftIo (stream.write bytes)) := by
  unfold sendRequest requestWrites
  dsimp only
  by_cases hbody : body.getD [] = []
  · rw [if_pos hbody, if_pos hbody, List.forM_cons, List.forM_nil]
  · rw [if_neg hbody, if_neg hbody, List.forM_cons, List.forM_cons, List.forM_nil, bind_pure_unit]

/-- All that is written is the head and the body. -/
theorem flatten_requestWrites (method path : String) (body : List UInt8) :
    (requestWrites method path (some body)).flatten =
      asBytes (requestHead method path body.length) ++ body := by
  rw [requestWrites, Option.getD_some, List.flatten_cons]
  split
  · rename_i hbody
    rw [hbody]
    rfl
  · rw [List.flatten_singleton]

end UnixSocketTransport

/-! ### The requests of the client -/

/-- The requests that name a drive or an interface. -/
inductive ByIdRequest where
  | putGuestDriveById
  | patchGuestDriveById
  | putGuestNetworkInterfaceById
  | patchGuestNetworkInterfaceById
  deriving DecidableEq

namespace ByIdRequest

/-- The method of a request. -/
def method : ByIdRequest → String
  | putGuestDriveById => "PUT"
  | patchGuestDriveById => "PATCH"
  | putGuestNetworkInterfaceById => "PUT"
  | patchGuestNetworkInterfaceById => "PATCH"

/-- The path of the collection that the resource is in. -/
def collection : ByIdRequest → String
  | putGuestDriveById => "/drives/"
  | patchGuestDriveById => "/drives/"
  | putGuestNetworkInterfaceById => "/network-interfaces/"
  | patchGuestNetworkInterfaceById => "/network-interfaces/"

/-- The path of a request. -/
def path (request : ByIdRequest) (id : String) : String := request.collection ++ id

/-- Make a request with an encoded body. -/
def send (request : ByIdRequest) (stream : UnixStream) (id : String) (body : List UInt8) :
    Outcome Error (List UInt8) :=
  rawRequestWithTimeouts stream request.method (request.path id) (some body)

/-- The bytes that are written for a request. -/
def written (request : ByIdRequest) (id : String) (body : List UInt8) : List UInt8 :=
  (requestWrites request.method (request.path id) (some body)).flatten

end ByIdRequest

/-- A segment of a path: nothing in it separates it from another segment or ends the path. -/
def IsSegment (segment : List UInt8) : Prop := 47 ∉ segment ∧ 63 ∉ segment ∧ 35 ∉ segment

instance (segment : List UInt8) : Decidable (IsSegment segment) :=
  inferInstanceAs (Decidable (_ ∧ _))

/-- **A request arrives**: what is written is one request and nothing more, with the method, with
the body, and for the segment of the collection that stands for the id. -/
def Arrives (request : ByIdRequest) (id : String) (body : List UInt8) : Prop :=
  ∃ segment fields, Http1.parse (request.written id body) =
      some (⟨asBytes request.method, asBytes request.collection ++ segment, fields, body⟩, []) ∧
    IsSegment segment ∧ Http1.decodeSegment segment = some (asBytes id)

/-- **An id that needs no escaping**: it is one segment without a percent sign, a space or an end
of line. -/
def PlainId (id : String) : Prop :=
  IsSegment (asBytes id) ∧ 37 ∉ asBytes id ∧ 32 ∉ asBytes id ∧ Http1.OneLine (asBytes id)

instance (id : String) : Decidable (PlainId id) := inferInstanceAs (Decidable (_ ∧ _))

/-! ### The head of the request, line by line -/

theorem asBytes_append (a b : String) : asBytes (a ++ b) = asBytes a ++ asBytes b := by
  simp [asBytes, String.toByteArray_append]

/-- A digit is one byte. -/
theorem utf8EncodeChar_digit {c : Char} (h : c.isDigit = true) :
    String.utf8EncodeChar c = [Http1.digitByte c] := by
  have hrange := Char.isDigit_iff_toNat.mp h
  have hle : c.val ≤ 0x7f := by
    rw [UInt32.le_iff_toNat_le]
    exact hrange.2.trans (by decide)
  have hsize : c.utf8Size = 1 := by
    rw [Char.utf8Size]
    exact if_pos hle
  rw [String.utf8EncodeChar_eq_singleton hsize]
  rfl

theorem asBytes_toString (n : ℕ) :
    asBytes (toString n) = (Nat.toDigits 10 n).map Http1.digitByte := by
  have hencode : asBytes (toString n) = (Nat.toDigits 10 n).flatMap String.utf8EncodeChar := by
    rw [Nat.toString_eq_ofList_toDigits]
    simp [asBytes, List.utf8Encode]
  rw [hencode, List.map_eq_flatMap, List.flatMap_congr]
  intro c hc
  exact utf8EncodeChar_digit (Nat.isDigit_of_mem_toDigits (by decide) (by decide) hc)

/-- The fields before the length. -/
def firstFields : List (List UInt8) :=
  [asBytes "Host: localhost", asBytes "User-Agent: firecracker-rs-sdk",
    asBytes "Accept: application/json", asBytes "Connection: close"]

/-- The field with the length. -/
def lengthField (bodyLength : ℕ) : List UInt8 :=
  asBytes "Content-Length: " ++ asBytes (toString bodyLength)

/-- The fields after the length. -/
def lastFields (bodyLength : ℕ) : List (List UInt8) :=
  if bodyLength = 0 then [] else [asBytes "Content-Type: application/json"]

/-- The lines after the first. -/
def fieldLines (bodyLength : ℕ) : List (List UInt8) :=
  firstFields ++ lengthField bodyLength :: lastFields bodyLength

/-- **What is written is a message** whose first line has the id in it. -/
theorem written_eq (request : ByIdRequest) (id : String) (body : List UInt8) :
    request.written id body = Http1.message
      (Http1.requestLine (asBytes request.method) (asBytes request.collection ++ asBytes id))
      (fieldLines body.length) body := by
  have hspace : asBytes " " = [32] := by decide
  have hend : asBytes "\r\n" = Http1.crlf := by decide
  have hfixed : asBytes " HTTP/1.1\r\nHost: localhost\r\nUser-Agent: firecracker-rs-sdk\r\n" ++
      asBytes "Accept: application/json\r\nConnection: close\r\nContent-Length: " =
      32 :: Http1.version ++ (Http1.crlf ++ (firstFields.flatMap (· ++ Http1.crlf) ++
        asBytes "Content-Length: ")) := by decide +kernel
  have hfirst (rest : List UInt8) := congrArg (· ++ rest) hfixed
  have hlast : asBytes (if body.length = 0 then "" else "Content-Type: application/json\r\n") =
      (lastFields body.length).flatMap (· ++ Http1.crlf) := by
    unfold lastFields
    split
    · decide
    · decide +kernel
  rw [ByIdRequest.written, flatten_requestWrites, requestHead, ByIdRequest.path]
  simp only [List.append_assoc, List.cons_append] at hfirst
  simp only [asBytes_append, hspace, hend, hlast, hfirst, Http1.message, Http1.requestLine,
    fieldLines, lengthField, List.flatMap_append, List.flatMap_cons, List.append_assoc,
    List.cons_append, List.nil_append]

theorem not_mem_asBytes_toString {b : UInt8} (h : ¬ (48 ≤ b ∧ b ≤ 57)) (n : ℕ) :
    b ∉ asBytes (toString n) := by
  rw [asBytes_toString]
  intro hmem
  obtain ⟨c, hc, rfl⟩ := List.mem_map.mp hmem
  have hdigit := Nat.isDigit_of_mem_toDigits (by decide) (by decide) hc
  have hrange := Http1.toNat_digitByte hdigit
  exact h ⟨hrange.1, hrange.2.1⟩

/-- The lines after the first are lines, and none is empty. -/
theorem fieldLines_oneLine (n : ℕ) : ∀ line ∈ fieldLines n, Http1.OneLine line ∧ line ≠ [] := by
  have hfirst : ∀ line ∈ firstFields, Http1.OneLine line ∧ line ≠ [] := by decide +kernel
  have hlength : Http1.OneLine (lengthField n) := by
    refine Http1.OneLine.append_right ?_ (by decide +kernel)
    exact not_mem_asBytes_toString (by decide) n
  have hlast : ∀ line ∈ lastFields n, Http1.OneLine line ∧ line ≠ [] := by
    unfold lastFields
    split
    · simp
    · decide +kernel
  intro line hline
  rcases List.mem_append.mp hline with hline | hline
  · exact hfirst line hline
  · rcases List.mem_cons.mp hline with rfl | hline
    · refine ⟨hlength, ?_⟩
      exact List.append_ne_nil_of_left_ne_nil (by decide) _
    · exact hlast line hline

/-- The fields before the length, read. -/
def firstPairs : List (List UInt8 × List UInt8) :=
  [(asBytes "Host", asBytes "localhost"), (asBytes "User-Agent", asBytes "firecracker-rs-sdk"),
    (asBytes "Accept", asBytes "application/json"), (asBytes "Connection", asBytes "close")]

/-- The fields after the length, read. -/
def lastPairs (bodyLength : ℕ) : List (List UInt8 × List UInt8) :=
  if bodyLength = 0 then [] else [(asBytes "Content-Type", asBytes "application/json")]

/-- The fields of a request, read. -/
def fieldPairs (bodyLength : ℕ) : List (List UInt8 × List UInt8) :=
  firstPairs ++ (asBytes "Content-Length", asBytes (toString bodyLength)) :: lastPairs bodyLength

theorem parseField_lengthField (n : ℕ) :
    Http1.parseField (lengthField n) = some (asBytes "Content-Length", asBytes (toString n)) := by
  have hname : asBytes "Content-Length: " = asBytes "Content-Length" ++ [58] ++ [32] := by
    decide +kernel
  have hblank : ∀ b ∈ asBytes (toString n), Http1.isBlank b = false := by
    intro b hb
    rw [Bool.eq_false_iff]
    intro hblank
    rcases Bool.or_eq_true_iff.mp hblank with h | h
    · rw [beq_iff_eq] at h
      exact not_mem_asBytes_toString (by decide) n (h ▸ hb)
    · rw [beq_iff_eq] at h
      exact not_mem_asBytes_toString (by decide) n (h ▸ hb)
  rw [lengthField, hname, List.append_assoc _ [32],
    Http1.parseField_eq (by decide +kernel) (by decide +kernel), List.singleton_append,
    Http1.trim_blank_cons hblank]

theorem mapM_parseField_fieldLines (n : ℕ) :
    (fieldLines n).mapM Http1.parseField = some (fieldPairs n) := by
  have hfirst : firstFields.mapM Http1.parseField = some firstPairs := by decide +kernel
  have hlast : (lastFields n).mapM Http1.parseField = some (lastPairs n) := by
    unfold lastFields lastPairs
    split
    · rfl
    · decide +kernel
  rw [fieldLines, List.mapM_append, hfirst, List.mapM_cons, parseField_lengthField, hlast]
  rfl

/-- **The length that is announced is that of the body.** -/
theorem contentLength_fieldPairs (n : ℕ) : Http1.contentLength (fieldPairs n) = some n := by
  have hname : (asBytes "Content-Length").map Http1.lower = Http1.contentLengthName := by
    decide +kernel
  have hfilter : (fieldPairs n).filter
      (fun field => field.1.map Http1.lower = Http1.contentLengthName) =
      [(asBytes "Content-Length", asBytes (toString n))] := by
    have hfirst : firstPairs.filter
        (fun field => field.1.map Http1.lower = Http1.contentLengthName) = [] := by decide +kernel
    have hlast : (lastPairs n).filter
        (fun field => field.1.map Http1.lower = Http1.contentLengthName) = [] := by
      unfold lastPairs
      split
      · rfl
      · decide +kernel
    rw [fieldPairs, List.filter_append, hfirst, List.filter_cons_of_pos, hlast]
    · rfl
    · exact decide_eq_true hname
  rw [Http1.contentLength, hfilter]
  dsimp only
  rw [asBytes_toString, Http1.parseDecimal_toDigits]

/-! ### When a request arrives -/

theorem method_bytes (request : ByIdRequest) :
    13 ∉ asBytes request.method ∧ 32 ∉ asBytes request.method := by
  cases request <;> decide +kernel

theorem collection_bytes (request : ByIdRequest) :
    13 ∉ asBytes request.collection ∧ 32 ∉ asBytes request.collection := by
  cases request <;> decide +kernel

/-- The beginning of the first line can stand before any line. -/
theorem oneLine_begin (request : ByIdRequest) {line : List UInt8} (h : Http1.OneLine line) :
    Http1.OneLine (asBytes request.method ++ 32 :: (asBytes request.collection ++ line)) := by
  have hbegin : 13 ∉ asBytes request.method ++ 32 :: asBytes request.collection := by
    rw [List.mem_append, List.mem_cons, not_or, not_or]
    exact ⟨(method_bytes request).1, by decide, (collection_bytes request).1⟩
  have happend := h.append_left hbegin
  rw [List.append_assoc] at happend
  exact happend

/-- **A plain id arrives.** -/
theorem arrives_of_plainId (request : ByIdRequest) {id : String} (h : PlainId id)
    (body : List UInt8) :
    Http1.parse (request.written id body) = some (⟨asBytes request.method,
      asBytes request.collection ++ asBytes id, fieldPairs body.length, body⟩, []) := by
  obtain ⟨-, -, hspace, hline⟩ := h
  have hrequestLine : Http1.OneLine (Http1.requestLine (asBytes request.method)
      (asBytes request.collection ++ asBytes id)) := by
    rw [Http1.requestLine, List.append_assoc]
    exact oneLine_begin request (hline.append_right (by decide))
  have htarget : 32 ∉ asBytes request.collection ++ asBytes id := by
    rw [List.mem_append, not_or]
    exact ⟨(collection_bytes request).2, hspace⟩
  have hparse := Http1.parse_message hrequestLine
    (Http1.parseRequestLine_eq_some_iff.mpr ⟨rfl, (method_bytes request).2, htarget⟩)
    (fieldLines_oneLine body.length) (mapM_parseField_fieldLines body.length)
    (contentLength_fieldPairs body.length) []
  rw [List.append_nil] at hparse
  rw [written_eq, hparse]

/-- **Only a plain id arrives.** -/
theorem plainId_of_arrives {request : ByIdRequest} {id : String} {body : List UInt8}
    (h : Arrives request id body) : PlainId id := by
  obtain ⟨segment, fields, hparse, hsegment, hdecode⟩ := h
  rw [written_eq, Http1.message] at hparse
  by_cases hline : Http1.OneLine (asBytes id)
  · -- the first line is the one that was meant
    have hrequestLine : Http1.OneLine (Http1.requestLine (asBytes request.method)
        (asBytes request.collection ++ asBytes id)) := by
      rw [Http1.requestLine, List.append_assoc]
      exact oneLine_begin request (hline.append_right (by decide))
    obtain ⟨heq, -, hspace⟩ := Http1.parseRequestLine_eq_some_iff.mp
      (Http1.parseRequestLine_of_parse hrequestLine hparse)
    have hid : asBytes id = segment := by
      simpa [Http1.requestLine] using heq
    rw [← hid] at hsegment hdecode hspace
    exact ⟨hsegment, Http1.decodeSegment_eq_self_iff.mp hdecode,
      fun hmem => hspace (List.mem_append_right _ hmem), hline⟩
  · -- the first line ends in the id, and its second part is shorter than the id
    obtain ⟨first, rest, hid, hfirst⟩ := Http1.exists_oneLine hline
    have hbytes : Http1.requestLine (asBytes request.method)
        (asBytes request.collection ++ asBytes id) ++ Http1.crlf =
        asBytes request.method ++ 32 :: (asBytes request.collection ++ first) ++ Http1.crlf ++
          (rest ++ 32 :: Http1.version ++ Http1.crlf) := by
      rw [hid, Http1.requestLine]
      simp only [List.append_assoc, List.cons_append]
    rw [hbytes, List.append_assoc (_ ++ Http1.crlf)] at hparse
    obtain ⟨heq, -, -⟩ := Http1.parseRequestLine_eq_some_iff.mp
      (Http1.parseRequestLine_of_parse (oneLine_begin request hfirst) hparse)
    have hshort : first = segment ++ 32 :: Http1.version := by
      simpa [Http1.requestLine] using heq
    have hlength := Http1.length_decodeSegment hdecode
    rw [hid, hshort] at hlength
    simp only [List.length_append, List.length_cons] at hlength
    omega

/-- Two targets in these collections are the same only if the segments are. -/
theorem collection_append_inj {request request' : ByIdRequest} {segment segment' : List UInt8}
    (h : asBytes request.collection ++ segment = asBytes request'.collection ++ segment') :
    segment = segment' := by
  have hdrives : asBytes "/drives/" = [47, 100, 114, 105, 118, 101, 115, 47] := by decide +kernel
  have hinterfaces : asBytes "/network-interfaces/" = [47, 110, 101, 116, 119, 111, 114, 107, 45,
      105, 110, 116, 101, 114, 102, 97, 99, 101, 115, 47] := by decide +kernel
  cases request <;> cases request' <;>
    simp [ByIdRequest.collection, hdrives, hinterfaces] at h <;> exact h

/-- A text is known by its bytes. -/
theorem asBytes_injective {a b : String} (h : asBytes a = asBytes b) : a = b := by
  apply String.toByteArray_inj.mp
  apply ByteArray.ext
  exact Array.toList_inj.mp h

/-- **Requests by id arrive exactly if the ids need no escaping.** For any two requests with
their ids and bodies: both arrive as the one request they are meant to be, for targets that
differ if the ids do, if and only if both ids are plain. -/
theorem by_id_requests_arrive_iff (request request' : ByIdRequest) (id id' : String)
    (body body' : List UInt8) :
    (Arrives request id body ∧ Arrives request' id' body' ∧
      ∀ message rest message' rest',
        Http1.parse (request.written id body) = some (message, rest) →
        Http1.parse (request'.written id' body') = some (message', rest') →
        id ≠ id' → message.target ≠ message'.target) ↔
      PlainId id ∧ PlainId id' := by
  constructor
  · rintro ⟨h, h', -⟩
    exact ⟨plainId_of_arrives h, plainId_of_arrives h'⟩
  · rintro ⟨h, h'⟩
    have hparse := arrives_of_plainId request h body
    have hparse' := arrives_of_plainId request' h' body'
    refine ⟨?_, ?_, ?_⟩
    · exact ⟨_, _, hparse, h.1, Http1.decodeSegment_eq_self_iff.mpr h.2.1⟩
    · exact ⟨_, _, hparse', h'.1, Http1.decodeSegment_eq_self_iff.mpr h'.2.1⟩
    · -- no collection is a beginning of another, so the targets determine the ids
      intro message rest message' rest' hmessage hmessage' hne htarget
      rw [hparse] at hmessage
      rw [hparse'] at hmessage'
      obtain ⟨rfl, -⟩ := Prod.mk.inj (Option.some.inj hmessage)
      obtain ⟨rfl, -⟩ := Prod.mk.inj (Option.some.inj hmessage')
      exact hne (asBytes_injective (collection_append_inj htarget))

/-- A request for the drive `x` with a field of the caller's, in place of a request for the
drive that was named. -/
theorem drive_id_injects_field :
    (Http1.parse (ByIdRequest.putGuestDriveById.written "x HTTP/1.1\r\nX: y" [])).map
        (fun p => (p.1.target, p.1.fields.head?, p.2)) =
      some (asBytes "/drives/x", some (asBytes "X", asBytes "y HTTP/1.1"), []) ∧
    ¬ Arrives .putGuestDriveById "x HTTP/1.1\r\nX: y" [] := by
  refine ⟨by decide +kernel, fun h => ?_⟩
  exact absurd (plainId_of_arrives h) (by decide +kernel)

end FirecrackerSdk
