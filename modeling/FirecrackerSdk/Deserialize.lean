import FirecrackerSdk.Lib.Decode
import FirecrackerSdk.PluginChain
import FirecrackerSdk.Transport

/-!
# Decoding the result of a network

What the last plugin has printed becomes a `CniResult` by `serde_json::from_value`, with the
`Deserialize` that is derived for the records of `cni/mod.rs`. A derived record is read from an
object or from an array:

* the fields of an object come in the order of their keys, and those that the record does not have
  are passed over; of a field that is missing, a record with `#[serde(default)]` has the default,
  any other record fails unless the field is an `Option`;
* the items of an array are the fields in the order of the declaration, and none may be left over.

Of the records of a result, `CniResult`, `CniInterface` and `CniDnsConfig` have `#[serde(default)]`,
`CniIpConfig` and `CniRoute` do not, and their `gateway` and `gw` are no `Option`. In the format of
CNI results both may be left out (`FirecrackerSdk.ConformingResult`): exactly the results in which
they never are can be decoded (`FirecrackerSdk.result_decoded_iff`).
-/

namespace FirecrackerSdk

/-! ### The derived decoders -/

section Decoders

-- the characters that the format `{:?}` escapes
variable (unprintable : Char → Bool)

/-- `serde::de::Unexpected` of a value, as it is displayed. -/
def JsonValue.unexpected : JsonValue → String
  | .null => "null"
  | .bool b => "boolean `" ++ toString b ++ "`"
  | .number text =>
    if text.toList.all fun c => c.isDigit || c == '-' then "integer `" ++ text ++ "`"
    else "floating point `" ++ text ++ "`"
  | .string text => "string " ++ Text.debugStr unprintable text
  | .array _ => "sequence"
  | .object _ => "map"

/-- `de::Error::invalid_type`. -/
def invalidType (value : JsonValue) (expected : String) : String :=
  "invalid type: " ++ value.unexpected unprintable ++ ", expected " ++ expected

/-- `String`. -/
def deserializeString : JsonValue → Except String String
  | .string text => .ok text
  | value => .error (invalidType unprintable value "a string")

/-- `usize`. -/
def deserializeUsize : JsonValue → Except String ℕ
  | .number text =>
    match Text.parseUnsigned usizeMax text.toList with
    | some n => .ok n
    | none =>
      if text.toList.head? = some '-' ∧ text.toList.tail.all Char.isDigit = true then
        .error ("invalid value: " ++ (JsonValue.number text).unexpected unprintable ++
          ", expected usize")
      else .error (invalidType unprintable (.number text) "usize")
  | value => .error (invalidType unprintable value "usize")

/-- `Option`. -/
def deserializeOption {α : Type} (decode : JsonValue → Except String α) :
    JsonValue → Except String (Option α)
  | .null => .ok none
  | value => (decode value).map some

/-- `Vec`. -/
def deserializeVec {α : Type} (decode : JsonValue → Except String α) :
    JsonValue → Except String (List α)
  | .array items => items.mapM decode
  | value => .error (invalidType unprintable value "a sequence")

/-- An octet of an address: without a zero in front. -/
def parseOctet : List Char → Option UInt8
  | [] => none
  | ['0'] => some 0
  | '0' :: _ => none
  | digits => (Text.parseDigits 255 0 digits).map UInt8.ofNat

/-- `Ipv4Addr::from_str`. -/
def Ipv4Addr.parse (text : String) : Option Ipv4Addr := do
  let (a, text) ← Text.splitOnce '.' text.toList
  let (b, text) ← Text.splitOnce '.' text
  let (c, d) ← Text.splitOnce '.' text
  pure ⟨← parseOctet a, ← parseOctet b, ← parseOctet c, ← parseOctet d⟩

/-- `Ipv4Addr`. -/
def deserializeAddr : JsonValue → Except String Ipv4Addr
  | .string text =>
    match Ipv4Addr.parse text with
    | some ip => .ok ip
    | none => .error "invalid IPv4 address syntax"
  | value => .error (invalidType unprintable value "IPv4 address")

section Records

-- `Ipv4Net::from_str` of `ipnet`; an error is what it displays.
variable (parseNet : String → Except String Ipv4Net)

/-- `Ipv4Net`. -/
def deserializeNet : JsonValue → Except String Ipv4Net
  | .string text => parseNet text
  | value => .error (invalidType unprintable value "IPv4 network address")

/-- A field without which there is no record. -/
def required {α : Type} (name : String) : Option α → Except String α
  | some a => .ok a
  | none => .error ("missing field `" ++ name ++ "`")

/-- The next field of a record that is read from an array. -/
def nextItem {α : Type} (decode : JsonValue → Except String α) (index : ℕ) (record : String)
    (items : List JsonValue) : Except String α := do
  match ← Decode.visit decode items[index]? with
  | some a => pure a
  | none => .error ("invalid length " ++ toString index ++ ", expected " ++ record)

/-- The check after all fields of an array with this number of fields have been read. -/
def noneLeft (count : ℕ) (items : List JsonValue) : Except String Unit :=
  if items.length ≤ count then .ok ()
  else .error ("invalid length " ++ toString items.length ++
    ", expected fewer elements in array")

/-- `CniInterface`. -/
def CniInterface.deserialize : JsonValue → Except String CniInterface
  | .object fields => do
    let mac ← Decode.visit (deserializeOption (deserializeString unprintable))
      (SortedMap.get "mac" fields)
    let name ← Decode.visit (deserializeString unprintable) (SortedMap.get "name" fields)
    let sandbox ← Decode.visit (deserializeString unprintable) (SortedMap.get "sandbox" fields)
    pure { name := name.getD "", sandbox := sandbox.getD "", mac := mac.getD none }
  | .array items => do
    let name ← Decode.visit (deserializeString unprintable) items[0]?
    let sandbox ← Decode.visit (deserializeString unprintable) items[1]?
    let mac ← Decode.visit (deserializeOption (deserializeString unprintable)) items[2]?
    noneLeft 3 items
    pure { name := name.getD "", sandbox := sandbox.getD "", mac := mac.getD none }
  | value => .error (invalidType unprintable value "struct CniInterface")

/-- `CniIpConfig`. -/
def CniIpConfig.deserialize : JsonValue → Except String CniIpConfig
  | .object fields => do
    let address ← Decode.visit (deserializeNet unprintable parseNet)
      (SortedMap.get "address" fields)
    let gateway ← Decode.visit (deserializeAddr unprintable) (SortedMap.get "gateway" fields)
    let interface ← Decode.visit (deserializeOption (deserializeUsize unprintable))
      (SortedMap.get "interface" fields)
    let address ← required "address" address
    let gateway ← required "gateway" gateway
    pure { interface := interface.getD none, address := address, gateway := gateway }
  | .array items => do
    let record := "struct CniIpConfig with 3 elements"
    let interface ← nextItem (deserializeOption (deserializeUsize unprintable)) 0 record items
    let address ← nextItem (deserializeNet unprintable parseNet) 1 record items
    let gateway ← nextItem (deserializeAddr unprintable) 2 record items
    noneLeft 3 items
    pure { interface := interface, address := address, gateway := gateway }
  | value => .error (invalidType unprintable value "struct CniIpConfig")

/-- `CniRoute`. -/
def CniRoute.deserialize : JsonValue → Except String CniRoute
  | .object fields => do
    let dst ← Decode.visit (deserializeNet unprintable parseNet) (SortedMap.get "dst" fields)
    let gw ← Decode.visit (deserializeAddr unprintable) (SortedMap.get "gw" fields)
    let dst ← required "dst" dst
    let gw ← required "gw" gw
    pure { dst := dst, gw := gw }
  | .array items => do
    let record := "struct CniRoute with 2 elements"
    let dst ← nextItem (deserializeNet unprintable parseNet) 0 record items
    let gw ← nextItem (deserializeAddr unprintable) 1 record items
    noneLeft 2 items
    pure { dst := dst, gw := gw }
  | value => .error (invalidType unprintable value "struct CniRoute")

/-- `CniDnsConfig`. -/
def CniDnsConfig.deserialize : JsonValue → Except String CniDnsConfig
  | .object fields => do
    let domain ← Decode.visit (deserializeOption (deserializeString unprintable))
      (SortedMap.get "domain" fields)
    let nameservers ← Decode.visit (deserializeVec unprintable (deserializeString unprintable))
      (SortedMap.get "nameservers" fields)
    let options ← Decode.visit (deserializeVec unprintable (deserializeString unprintable))
      (SortedMap.get "options" fields)
    let search ← Decode.visit (deserializeVec unprintable (deserializeString unprintable))
      (SortedMap.get "search" fields)
    pure { nameservers := nameservers.getD [], domain := domain.getD none,
           search := search.getD [], options := options.getD [] }
  | .array items => do
    let nameservers ← Decode.visit (deserializeVec unprintable (deserializeString unprintable))
      items[0]?
    let domain ← Decode.visit (deserializeOption (deserializeString unprintable)) items[1]?
    let search ← Decode.visit (deserializeVec unprintable (deserializeString unprintable)) items[2]?
    let options ← Decode.visit (deserializeVec unprintable (deserializeString unprintable))
      items[3]?
    noneLeft 4 items
    pure { nameservers := nameservers.getD [], domain := domain.getD none,
           search := search.getD [], options := options.getD [] }
  | value => .error (invalidType unprintable value "struct CniDnsConfig")

/-- `CniResult`. -/
def CniResult.deserialize : JsonValue → Except String CniResult
  | .object fields => do
    let dns ← Decode.visit (CniDnsConfig.deserialize unprintable) (SortedMap.get "dns" fields)
    let interfaces ←
      Decode.visit (deserializeVec unprintable (CniInterface.deserialize unprintable))
        (SortedMap.get "interfaces" fields)
    let ips ←
      Decode.visit (deserializeVec unprintable (CniIpConfig.deserialize unprintable parseNet))
        (SortedMap.get "ips" fields)
    let routes ←
      Decode.visit (deserializeVec unprintable (CniRoute.deserialize unprintable parseNet))
        (SortedMap.get "routes" fields)
    pure { interfaces := interfaces.getD [], ips := ips.getD [], routes := routes.getD [],
           dns := dns.getD {} }
  | .array items => do
    let interfaces ←
      Decode.visit (deserializeVec unprintable (CniInterface.deserialize unprintable))
        items[0]?
    let ips ←
      Decode.visit (deserializeVec unprintable (CniIpConfig.deserialize unprintable parseNet))
        items[1]?
    let routes ←
      Decode.visit (deserializeVec unprintable (CniRoute.deserialize unprintable parseNet))
        items[2]?
    let dns ← Decode.visit (CniDnsConfig.deserialize unprintable) items[3]?
    noneLeft 4 items
    pure { interfaces := interfaces.getD [], ips := ips.getD [], routes := routes.getD [],
           dns := dns.getD {} }
  | value => .error (invalidType unprintable value "struct CniResult")

end Records

end Decoders

/-! ### What values denote -/

namespace JsonValue

/-- The number that a value denotes. -/
def asIndex : JsonValue → Option ℕ
  | .number text => Text.parseUnsigned usizeMax text.toList
  | _ => none

/-- The address that a value denotes. -/
def asAddr (value : JsonValue) : Option Ipv4Addr := value.asStr.bind Ipv4Addr.parse

/-- The network that a value denotes. -/
def asNet (parseNet : String → Except String Ipv4Net) (value : JsonValue) : Option Ipv4Net :=
  value.asStr.bind fun text => (parseNet text).toOption

/-- The items of a list that may be left out. -/
def entries (value : JsonValue) (key : String) : List JsonValue :=
  ((value.get key).bind asArray).getD []

/-- A field that may be left out. -/
def Omittable (P : JsonValue → Prop) (value : JsonValue) (key : String) : Prop :=
  ∀ field, value.get key = some field → P field

/-- A list of such values. -/
def IsList (P : JsonValue → Prop) (value : JsonValue) : Prop :=
  ∃ items, value = .array items ∧ ∀ item ∈ items, P item

end JsonValue

/-! ### The format of results -/

section Format

open JsonValue (Omittable IsList)

/-- An entry of `interfaces`. Like every record of the format it may have other fields. -/
structure ConformingInterface (entry : JsonValue) : Prop where
  object : entry.asObject.isSome = true
  name : Omittable (fun field => field.asStr.isSome = true) entry "name"
  sandbox : Omittable (fun field => field.asStr.isSome = true) entry "sandbox"
  mac : Omittable (fun field => field.asStr.isSome = true) entry "mac"

variable (parseNet : String → Except String Ipv4Net)

/-- An entry of `ips`, of which the `gateway` may be left out. -/
structure ConformingIp (entry : JsonValue) : Prop where
  object : entry.asObject.isSome = true
  address : ∃ field, entry.get "address" = some field ∧ (field.asNet parseNet).isSome = true
  gateway : Omittable (fun field => field.asAddr.isSome = true) entry "gateway"
  interface : Omittable (fun field => field.asIndex.isSome = true) entry "interface"

/-- An entry of `routes`, of which the `gw` may be left out. -/
structure ConformingRoute (entry : JsonValue) : Prop where
  object : entry.asObject.isSome = true
  dst : ∃ field, entry.get "dst" = some field ∧ (field.asNet parseNet).isSome = true
  gw : Omittable (fun field => field.asAddr.isSome = true) entry "gw"

/-- The field `dns`. -/
structure ConformingDns (dns : JsonValue) : Prop where
  object : dns.asObject.isSome = true
  nameservers : Omittable (IsList fun item => item.asStr.isSome = true) dns "nameservers"
  domain : Omittable (fun field => field.asStr.isSome = true) dns "domain"
  search : Omittable (IsList fun item => item.asStr.isSome = true) dns "search"
  options : Omittable (IsList fun item => item.asStr.isSome = true) dns "options"

/-- **The result of an `ADD`**, with addresses of version 4. -/
structure ConformingResult (value : JsonValue) : Prop where
  object : value.asObject.isSome = true
  interfaces : Omittable (IsList ConformingInterface) value "interfaces"
  ips : Omittable (IsList (ConformingIp parseNet)) value "ips"
  routes : Omittable (IsList (ConformingRoute parseNet)) value "routes"
  dns : Omittable ConformingDns value "dns"

/-- What an entry of `interfaces` says is kept. -/
structure KeepsInterface (entry : JsonValue) (interface : CniInterface) : Prop where
  name : interface.name = ((entry.get "name").bind JsonValue.asStr).getD ""
  sandbox : interface.sandbox = ((entry.get "sandbox").bind JsonValue.asStr).getD ""
  mac : interface.mac = (entry.get "mac").bind JsonValue.asStr

/-- What an entry of `ips` says is kept. -/
structure KeepsIp (entry : JsonValue) (ip : CniIpConfig) : Prop where
  address : (entry.get "address").bind (JsonValue.asNet parseNet) = some ip.address
  gateway : Omittable (fun field => field.asAddr = some ip.gateway) entry "gateway"
  interface : ip.interface = (entry.get "interface").bind JsonValue.asIndex

/-- What an entry of `routes` says is kept. -/
structure KeepsRoute (entry : JsonValue) (route : CniRoute) : Prop where
  dst : (entry.get "dst").bind (JsonValue.asNet parseNet) = some route.dst
  gw : Omittable (fun field => field.asAddr = some route.gw) entry "gw"

/-- **Every interface, address and route is kept**, in its place. -/
structure KeepsResult (value : JsonValue) (result : CniResult) : Prop where
  interfaces : List.Forall₂ KeepsInterface (value.entries "interfaces") result.interfaces
  ips : List.Forall₂ (KeepsIp parseNet) (value.entries "ips") result.ips
  routes : List.Forall₂ (KeepsRoute parseNet) (value.entries "routes") result.routes

/-- No gateway is left out. -/
structure NamesGateways (value : JsonValue) : Prop where
  ips : ∀ entry ∈ value.entries "ips", (entry.get "gateway").isSome = true
  routes : ∀ entry ∈ value.entries "routes", (entry.get "gw").isSome = true

end Format

/-! ### What the decoders take -/

section Takes

open Decode JsonValue

variable {unprintable : Char → Bool}

theorem takes_string : Takes (deserializeString unprintable)
    (fun value => value.asStr.isSome = true) fun value text => value.asStr = some text := by
  refine takes_of_denoted fun value text h => ?_
  cases value with
  | string _ => exact congrArg Except.ok (Option.some.inj h)
  | null | bool _ | number _ | array _ | object _ => cases h

theorem takes_usize : Takes (deserializeUsize unprintable)
    (fun value => value.asIndex.isSome = true) fun value n => value.asIndex = some n := by
  refine takes_of_denoted fun value n h => ?_
  cases value with
  | number text =>
    have hparse : Text.parseUnsigned usizeMax text.toList = some n := h
    rw [deserializeUsize, hparse]
  | null | bool _ | string _ | array _ | object _ => cases h

theorem takes_addr : Takes (deserializeAddr unprintable) (fun value => value.asAddr.isSome = true)
    fun value ip => value.asAddr = some ip := by
  refine takes_of_denoted fun value ip h => ?_
  cases value with
  | string text =>
    have hparse : Ipv4Addr.parse text = some ip := h
    rw [deserializeAddr, hparse]
  | null | bool _ | number _ | array _ | object _ => cases h

theorem takes_net (parseNet : String → Except String Ipv4Net) :
    Takes (deserializeNet unprintable parseNet) (fun value => (value.asNet parseNet).isSome = true)
      fun value net => value.asNet parseNet = some net := by
  refine takes_of_denoted fun value net h => ?_
  cases value with
  | string text =>
    have hparse : (parseNet text).toOption = some net := h
    rw [deserializeNet]
    cases hnet : parseNet text with
    | error error =>
      rw [hnet] at hparse
      cases hparse
    | ok net' =>
      rw [hnet] at hparse
      exact congrArg Except.ok (Option.some.inj hparse)
  | null | bool _ | number _ | array _ | object _ => cases h

variable {α : Type} {decode : JsonValue → Except String α}

/-- An `Option` takes what denotes something, as something. -/
theorem takes_option {denoted : JsonValue → Option α} (hnull : denoted .null = none)
    (h : Takes decode (fun value => (denoted value).isSome = true)
      fun value a => denoted value = some a) :
    Takes (deserializeOption decode) (fun value => (denoted value).isSome = true)
      fun value given => given = denoted value := by
  intro value hvalue
  obtain ⟨a, hok, ha⟩ := h value hvalue
  refine ⟨some a, ?_, ha.symm⟩
  cases value with
  | null =>
    rw [hnull] at ha
    cases ha
  | bool _ | number _ | string _ | array _ | object _ => exact congrArg (Except.map some) hok

theorem takes_vec {P : JsonValue → Prop} {R : JsonValue → α → Prop} (h : Takes decode P R) :
    Takes (deserializeVec unprintable decode) (IsList P)
      fun value results => ∃ items, value = .array items ∧ List.Forall₂ R items results := by
  rintro _ ⟨items, rfl, hitems⟩
  obtain ⟨results, hok, hrel⟩ := h.mapM hitems
  exact ⟨results, hok, items, rfl, hrel⟩

/-- What the items of a list that may be left out have become. -/
theorem forall₂_entries {R : JsonValue → α → Prop} {value : JsonValue} {key : String}
    {given : Option (List α)}
    (h : Option.Rel (fun field results => ∃ items, field = JsonValue.array items ∧
      List.Forall₂ R items results) (value.get key) given) :
    List.Forall₂ R (value.entries key) (given.getD []) := by
  unfold JsonValue.entries
  generalize value.get key = field at h
  cases h with
  | none => exact .nil
  | some hrel =>
    obtain ⟨items, rfl, hitems⟩ := hrel
    exact hitems

/-- What an `Option` that may be left out has become. -/
theorem getD_of_rel {denoted : JsonValue → Option α} {field : Option JsonValue}
    {given : Option (Option α)}
    (h : Option.Rel (fun value a => a = denoted value) field given) :
    given.getD none = field.bind denoted := by
  cases h with
  | none => rfl
  | some ha => exact ha

theorem exists_of_asObject {value : JsonValue} (h : value.asObject.isSome = true) :
    ∃ fields, value = .object fields := by
  cases value with
  | object fields => exact ⟨fields, rfl⟩
  | null | bool _ | number _ | string _ | array _ => cases h

theorem takes_interface :
    Takes (CniInterface.deserialize unprintable) ConformingInterface KeepsInterface := by
  intro entry h
  obtain ⟨fields, rfl⟩ := exists_of_asObject h.object
  obtain ⟨mac, hmac, hmacRel⟩ := (takes_option rfl takes_string).visit h.mac
  obtain ⟨name, hname, hnameRel⟩ := takes_string.visit h.name
  obtain ⟨sandbox, hsandbox, hsandboxRel⟩ := takes_string.visit h.sandbox
  have hok : (CniInterface.deserialize unprintable) (.object fields) =
      .ok { name := name.getD "", sandbox := sandbox.getD "", mac := mac.getD none } :=
    bind_eq_ok_iff.mpr ⟨mac, hmac, bind_eq_ok_iff.mpr ⟨name, hname,
      bind_eq_ok_iff.mpr ⟨sandbox, hsandbox, rfl⟩⟩⟩
  refine ⟨_, hok, ?_, ?_, getD_of_rel hmacRel⟩
  · exact congrArg (Option.getD · "") (eq_bind_of_rel hnameRel)
  · exact congrArg (Option.getD · "") (eq_bind_of_rel hsandboxRel)

/-- Nothing is asked of what becomes of the field `dns`. -/
theorem takes_dns : Takes (CniDnsConfig.deserialize unprintable) ConformingDns fun _ _ => True := by
  intro dns h
  obtain ⟨fields, rfl⟩ := exists_of_asObject h.object
  obtain ⟨domain, hdomain, -⟩ := (takes_option rfl takes_string).visit h.domain
  obtain ⟨nameservers, hnameservers, -⟩ := (takes_vec takes_string).visit h.nameservers
  obtain ⟨options, hoptions, -⟩ := (takes_vec takes_string).visit h.options
  obtain ⟨search, hsearch, -⟩ := (takes_vec takes_string).visit h.search
  exact ⟨_, bind_eq_ok_iff.mpr ⟨domain, hdomain, bind_eq_ok_iff.mpr ⟨nameservers, hnameservers,
    bind_eq_ok_iff.mpr ⟨options, hoptions, bind_eq_ok_iff.mpr ⟨search, hsearch, rfl⟩⟩⟩⟩, trivial⟩

/-- A gateway that is given. -/
theorem visit_addr {entry : JsonValue} {key : String}
    (h : Omittable (fun field => field.asAddr.isSome = true) entry key)
    (hgiven : (entry.get key).isSome = true) :
    ∃ ip, Decode.visit (deserializeAddr unprintable) (entry.get key) = .ok (some ip) ∧
      Omittable (fun field => field.asAddr = some ip) entry key := by
  obtain ⟨field, hfield⟩ := Option.isSome_iff_exists.mp hgiven
  obtain ⟨field, ip, hfield, hip, hdenoted⟩ := takes_addr.visit_some ⟨field, hfield, h field hfield⟩
  refine ⟨ip, hip, fun field' hfield' => ?_⟩
  obtain rfl := Option.some.inj (hfield.symm.trans hfield')
  exact hdenoted

variable {parseNet : String → Except String Ipv4Net}

/-- A network, which is always given. -/
theorem visit_net {entry : JsonValue} {key : String}
    (h : ∃ field, entry.get key = some field ∧ (field.asNet parseNet).isSome = true) :
    ∃ net, Decode.visit (deserializeNet unprintable parseNet) (entry.get key) = .ok (some net) ∧
      (entry.get key).bind (JsonValue.asNet parseNet) = some net := by
  obtain ⟨field, net, hfield, hnet, hdenoted⟩ := (takes_net parseNet).visit_some h
  refine ⟨net, hnet, ?_⟩
  rw [hfield]
  exact hdenoted

/-- **An entry of `ips` is decoded** if it has a gateway. -/
theorem takes_ip : Takes (CniIpConfig.deserialize unprintable parseNet)
    (fun entry => ConformingIp parseNet entry ∧ (entry.get "gateway").isSome = true)
    (KeepsIp parseNet) := by
  rintro entry ⟨h, hgiven⟩
  obtain ⟨fields, rfl⟩ := exists_of_asObject h.object
  obtain ⟨net, hnet, hnetKept⟩ := visit_net h.address
  obtain ⟨ip, hip, hipKept⟩ := visit_addr h.gateway hgiven
  obtain ⟨interface, hinterface, hinterfaceRel⟩ := (takes_option rfl takes_usize).visit h.interface
  have hok : CniIpConfig.deserialize unprintable parseNet (.object fields) =
      .ok { interface := interface.getD none, address := net, gateway := ip } :=
    bind_eq_ok_iff.mpr ⟨_, hnet, bind_eq_ok_iff.mpr ⟨_, hip,
      bind_eq_ok_iff.mpr ⟨_, hinterface, rfl⟩⟩⟩
  exact ⟨_, hok, hnetKept, hipKept, getD_of_rel hinterfaceRel⟩

/-- **An entry of `routes` is decoded** if it has a gateway. -/
theorem takes_route : Takes (CniRoute.deserialize unprintable parseNet)
    (fun entry => ConformingRoute parseNet entry ∧ (entry.get "gw").isSome = true)
    (KeepsRoute parseNet) := by
  rintro entry ⟨h, hgiven⟩
  obtain ⟨fields, rfl⟩ := exists_of_asObject h.object
  obtain ⟨net, hnet, hnetKept⟩ := visit_net h.dst
  obtain ⟨ip, hip, hipKept⟩ := visit_addr h.gw hgiven
  have hok : CniRoute.deserialize unprintable parseNet (.object fields) =
      .ok { dst := net, gw := ip } :=
    bind_eq_ok_iff.mpr ⟨_, hnet, bind_eq_ok_iff.mpr ⟨_, hip, rfl⟩⟩
  exact ⟨_, hok, hnetKept, hipKept⟩

/-! ### Which results can be decoded -/

/-- A field without which there is no record is there. -/
theorem isSome_of_required {name : String} {field : Option JsonValue} {given : Option α} {a : α}
    (hvisit : Decode.visit decode field = .ok given) (h : required name given = .ok a) :
    field.isSome = true := by
  cases given with
  | none => cases h
  | some _ => exact isSome_of_visit hvisit

theorem gateway_of_deserialize {entry : JsonValue} {ip : CniIpConfig}
    (hobject : entry.asObject.isSome = true)
    (h : CniIpConfig.deserialize unprintable parseNet entry = .ok ip) :
    (entry.get "gateway").isSome = true := by
  obtain ⟨fields, rfl⟩ := exists_of_asObject hobject
  obtain ⟨address, -, h⟩ := bind_eq_ok_iff.mp h
  obtain ⟨gateway, hgateway, h⟩ := bind_eq_ok_iff.mp h
  obtain ⟨interface, -, h⟩ := bind_eq_ok_iff.mp h
  obtain ⟨net, -, h⟩ := bind_eq_ok_iff.mp h
  obtain ⟨addr, hrequired, -⟩ := bind_eq_ok_iff.mp h
  exact isSome_of_required hgateway hrequired

theorem gw_of_deserialize {entry : JsonValue} {route : CniRoute}
    (hobject : entry.asObject.isSome = true)
    (h : CniRoute.deserialize unprintable parseNet entry = .ok route) :
    (entry.get "gw").isSome = true := by
  obtain ⟨fields, rfl⟩ := exists_of_asObject hobject
  obtain ⟨dst, -, h⟩ := bind_eq_ok_iff.mp h
  obtain ⟨gw, hgw, h⟩ := bind_eq_ok_iff.mp h
  obtain ⟨net, -, h⟩ := bind_eq_ok_iff.mp h
  obtain ⟨addr, hrequired, -⟩ := bind_eq_ok_iff.mp h
  exact isSome_of_required hgw hrequired

/-- An entry is an item of a list that is given. -/
theorem items_of_mem_entries {value entry : JsonValue} {key : String}
    (h : entry ∈ value.entries key) :
    ∃ items, value.get key = some (.array items) ∧ entry ∈ items := by
  unfold JsonValue.entries at h
  cases hfield : value.get key with
  | none =>
    rw [hfield] at h
    cases h
  | some field =>
    rw [hfield] at h
    cases field with
    | array items => exact ⟨items, rfl, h⟩
    | null | bool _ | number _ | string _ | object _ => cases h

theorem forall_entries {P : JsonValue → Prop} {value : JsonValue} {key : String}
    (h : Omittable (IsList P) value key) : ∀ entry ∈ value.entries key, P entry := by
  intro entry hentry
  obtain ⟨items, hfield, hmem⟩ := items_of_mem_entries hentry
  obtain ⟨_, ⟨⟩, hitems⟩ := h _ hfield
  exact hitems entry hmem

theorem omittable_and {P Q : JsonValue → Prop} {value : JsonValue} {key : String}
    (h : Omittable (IsList P) value key) (hQ : ∀ entry ∈ value.entries key, Q entry) :
    Omittable (IsList fun entry => P entry ∧ Q entry) value key := by
  intro field hfield
  obtain ⟨items, rfl, hitems⟩ := h field hfield
  refine ⟨items, rfl, fun item hitem => ⟨hitems item hitem, hQ item ?_⟩⟩
  unfold JsonValue.entries
  rw [hfield]
  exact hitem

/-- Only entries that are decoded are in a list that is. -/
theorem exists_of_entries {value : JsonValue} {key : String} {given : Option (List α)}
    (h : Decode.visit (deserializeVec unprintable decode) (value.get key) = .ok given) :
    ∀ entry ∈ value.entries key, ∃ a, decode entry = .ok a := by
  intro entry hentry
  obtain ⟨items, hfield, hmem⟩ := items_of_mem_entries hentry
  rw [hfield] at h
  obtain ⟨results, hresults, -⟩ := map_eq_ok_iff.mp h
  exact exists_of_mapM hresults entry hmem

/-- **A result in which no gateway is left out is decoded.** -/
theorem takes_result : Takes (CniResult.deserialize unprintable parseNet)
    (fun value => ConformingResult parseNet value ∧ NamesGateways value)
    (KeepsResult parseNet) := by
  rintro value ⟨h, hnames⟩
  obtain ⟨fields, rfl⟩ := exists_of_asObject h.object
  -- in the order of the keys
  obtain ⟨dns, hdns, -⟩ := takes_dns.visit h.dns
  obtain ⟨interfaces, hinterfaces, hinterfacesRel⟩ := (takes_vec takes_interface).visit h.interfaces
  obtain ⟨ips, hips, hipsRel⟩ := (takes_vec takes_ip).visit (omittable_and h.ips hnames.ips)
  obtain ⟨routes, hroutes, hroutesRel⟩ :=
    (takes_vec takes_route).visit (omittable_and h.routes hnames.routes)
  have hok : CniResult.deserialize unprintable parseNet (.object fields) =
      .ok { interfaces := interfaces.getD [], ips := ips.getD [], routes := routes.getD [],
            dns := dns.getD {} } :=
    bind_eq_ok_iff.mpr ⟨_, hdns, bind_eq_ok_iff.mpr ⟨_, hinterfaces,
      bind_eq_ok_iff.mpr ⟨_, hips, bind_eq_ok_iff.mpr ⟨_, hroutes, rfl⟩⟩⟩⟩
  exact ⟨_, hok, forall₂_entries hinterfacesRel, forall₂_entries hipsRel,
    forall₂_entries hroutesRel⟩

/-- In a result that is decoded no gateway is left out. -/
theorem namesGateways_of_deserialize {value : JsonValue} {result : CniResult}
    (h : ConformingResult parseNet value)
    (hok : CniResult.deserialize unprintable parseNet value = .ok result) :
    NamesGateways value := by
  obtain ⟨fields, rfl⟩ := exists_of_asObject h.object
  obtain ⟨dns, -, hok⟩ := bind_eq_ok_iff.mp hok
  obtain ⟨interfaces, -, hok⟩ := bind_eq_ok_iff.mp hok
  obtain ⟨ips, hips, hok⟩ := bind_eq_ok_iff.mp hok
  obtain ⟨routes, hroutes, -⟩ := bind_eq_ok_iff.mp hok
  constructor
  · intro entry hentry
    obtain ⟨ip, hip⟩ := @exists_of_entries unprintable _ _ (.object fields) _ _ hips entry hentry
    exact gateway_of_deserialize (forall_entries h.ips entry hentry).object hip
  · intro entry hentry
    obtain ⟨route, hroute⟩ :=
      @exists_of_entries unprintable _ _ (.object fields) _ _ hroutes entry hentry
    exact gw_of_deserialize (forall_entries h.routes entry hentry).object hroute

theorem deserialize_iff {value : JsonValue} (h : ConformingResult parseNet value) :
    (∃ result, CniResult.deserialize unprintable parseNet value = .ok result ∧
      KeepsResult parseNet value result) ↔ NamesGateways value := by
  constructor
  · rintro ⟨result, hok, -⟩
    exact namesGateways_of_deserialize h hok
  · intro hnames
    exact takes_result value ⟨h, hnames⟩

end Takes

open RealCni in
/-- **When the result of a network is decoded**: what the last plugin has printed, once all have
been run, is kept exactly if no gateway is left out. -/
theorem result_decoded_iff {parseNet : String → Except String Ipv4Net} {value : JsonValue}
    (hvalue : ConformingResult parseNet value) {W : Type} (env : CniEnv W)
    (henv : env.fromValue = CniResult.deserialize env.unprintable parseNet)
    (config : CniConfiguration) {w w₁ w₂ : W} {networkConfig : JsonValue}
    {plugins : List JsonValue}
    (hload : loadNetworkConfig env config w = (.ok networkConfig, w₁))
    (hplugins : RealCni.plugins networkConfig = some plugins)
    (hrun : runPlugins env config .add networkConfig none (CniCommand.add.order plugins) w₁ =
      (.ok (some value), w₂)) :
    ((∃ result, CniResult.deserialize env.unprintable parseNet value = .ok result ∧
        KeepsResult parseNet value result) ↔ NamesGateways value) ∧
      ((∃ result, invokeNetworkList env config .add w = (.ok (some result), w₂) ∧
        KeepsResult parseNet value result) ↔ NamesGateways value) := by
  have hiff : (∃ result, CniResult.deserialize env.unprintable parseNet value = .ok result ∧
      KeepsResult parseNet value result) ↔ NamesGateways value := deserialize_iff hvalue
  refine ⟨hiff, ?_⟩
  rw [← hiff, invokeNetworkList_eq env hload hplugins, Prog.bind_of_ok hrun, ← henv]
  -- nothing happens after the last plugin but the decoding
  rcases decodeLast_cases env value w₂ with ⟨result, hok, hdecode⟩ | ⟨text, herror, hdecode⟩
  · rw [hok, hdecode]
    simp
  · rw [herror, hdecode]
    simp

/-! ### A bridge without a gateway -/

/-- What a bridge plugin prints for an entry of `ips`, with or without a gateway. -/
def bridgeIp (gateway : Option String) : JsonValue :=
  .object
    ([("address", .string "10.0.0.2/24")] ++
      gateway.toList.map (fun ip => ("gateway", .string ip)) ++ [("version", .string "4")])

/-- What it prints for an entry of `interfaces`. -/
def bridgeInterface : JsonValue :=
  .object [("name", .string "eth0"), ("sandbox", .string "/var/run/netns/fc")]

/-- What it prints for an entry of `routes`. -/
def bridgeRoute : JsonValue :=
  .object [("dst", .string "0.0.0.0/0"), ("gw", .string "10.0.0.1")]

/-- What a bridge plugin prints. -/
def bridgeResult (gateway : Option String) : JsonValue :=
  .object
    [("cniVersion", .string "0.4.0"), ("interfaces", .array [bridgeInterface]),
      ("ips", .array [bridgeIp gateway]), ("routes", .array [bridgeRoute])]

/-- What `ipnet` makes of the two networks that are read. -/
def bridgeNet (text : String) : Except String Ipv4Net :=
  if text = "10.0.0.2/24" then .ok ⟨⟨10, 0, 0, 2⟩, ⟨24, by decide⟩⟩
  else if text = "0.0.0.0/0" then .ok ⟨⟨0, 0, 0, 0⟩, ⟨0, by decide⟩⟩
  else .error "invalid IP address syntax"

/-- The world of `FirecrackerSdk.fcnetWorld`, with plugins that print such a result. -/
def bridgeWorld (gateway : Option String) : CniEnv Unit where
  answer := (fcnetWorld (.code 0)).answer
  fromSlice _ := .ok (bridgeResult gateway)
  fromStr := (fcnetWorld (.code 0)).fromStr
  toVec := (fcnetWorld (.code 0)).toVec
  fromValue := CniResult.deserialize (fun _ => false) bridgeNet

theorem get_gateway_bridgeIp (gateway : Option String) :
    (bridgeIp gateway).get "gateway" = gateway.map .string := by
  cases gateway <;> simp [bridgeIp, JsonValue.get, JsonValue.asObject, SortedMap.get]

theorem conforming_bridgeIp {gateway : Option String}
    (h : ∀ text, gateway = some text → (Ipv4Addr.parse text).isSome = true) :
    ConformingIp bridgeNet (bridgeIp gateway) where
  object := rfl
  address := ⟨.string "10.0.0.2/24", rfl, rfl⟩
  gateway := by
    intro field hfield
    rw [get_gateway_bridgeIp] at hfield
    obtain ⟨text, htext, rfl⟩ := Option.map_eq_some_iff.mp hfield
    exact h text htext
  interface := by
    intro field hfield
    cases gateway <;>
      simp [bridgeIp, JsonValue.get, JsonValue.asObject, SortedMap.get] at hfield

theorem conforming_bridgeInterface : ConformingInterface bridgeInterface where
  object := rfl
  name := by
    rintro _ ⟨⟩
    rfl
  sandbox := by
    rintro _ ⟨⟩
    rfl
  mac := by
    rintro _ ⟨⟩

theorem conforming_bridgeRoute : ConformingRoute bridgeNet bridgeRoute where
  object := rfl
  dst := ⟨.string "0.0.0.0/0", rfl, rfl⟩
  gw := by
    rintro _ ⟨⟩
    decide +kernel

theorem conforming_bridgeResult {gateway : Option String}
    (h : ∀ text, gateway = some text → (Ipv4Addr.parse text).isSome = true) :
    ConformingResult bridgeNet (bridgeResult gateway) where
  object := rfl
  interfaces := by
    rintro _ ⟨⟩
    refine ⟨_, rfl, fun entry hentry => ?_⟩
    rw [List.mem_singleton.mp hentry]
    exact conforming_bridgeInterface
  ips := by
    rintro _ ⟨⟩
    refine ⟨_, rfl, fun entry hentry => ?_⟩
    rw [List.mem_singleton.mp hentry]
    exact conforming_bridgeIp h
  routes := by
    rintro _ ⟨⟩
    refine ⟨_, rfl, fun entry hentry => ?_⟩
    rw [List.mem_singleton.mp hentry]
    exact conforming_bridgeRoute
  dns := by
    rintro _ ⟨⟩

open RealCni in
/-- With a gateway the result is kept, with its interface, its address and its route. -/
theorem result_decoded_bridge :
    ∃ result, (invokeNetworkList (bridgeWorld (some "10.0.0.1")) fcnetConfig .add ()).1 =
        .ok (some result) ∧
      KeepsResult bridgeNet (bridgeResult (some "10.0.0.1")) result ∧
      result.interfaces.length = 1 ∧ result.ips.length = 1 ∧ result.routes.length = 1 := by
  have hload : loadNetworkConfig (bridgeWorld (some "10.0.0.1")) fcnetConfig () =
      (.ok fcnet, ()) := rfl
  have hvalue : ConformingResult bridgeNet (bridgeResult (some "10.0.0.1")) := by
    refine conforming_bridgeResult ?_
    rintro _ ⟨⟩
    decide +kernel
  have hnames : NamesGateways (bridgeResult (some "10.0.0.1")) := by
    constructor
    · intro entry hentry
      rw [List.mem_singleton.mp hentry]
      rfl
    · intro entry hentry
      rw [List.mem_singleton.mp hentry]
      rfl
  have hrun : runPlugins (bridgeWorld (some "10.0.0.1")) fcnetConfig .add fcnet none
      (CniCommand.add.order [JsonValue.object [("type", .string "bridge")],
        .object [("name", .string "own"), ("type", .string "tuning")]]) () =
      (.ok (some (bridgeResult (some "10.0.0.1"))), ()) := rfl
  obtain ⟨-, hiff⟩ := result_decoded_iff hvalue (bridgeWorld (some "10.0.0.1")) rfl fcnetConfig
    hload rfl hrun
  obtain ⟨result, hinvoke, hkeeps⟩ := hiff.mpr hnames
  exact ⟨result, congrArg Prod.fst hinvoke, hkeeps, hkeeps.interfaces.length_eq.symm,
    hkeeps.ips.length_eq.symm, hkeeps.routes.length_eq.symm⟩

open RealCni in
/-- **Without a gateway the result is conforming and rejected**, after both plugins have been
added. -/
theorem gateway_left_out :
    ConformingResult bridgeNet (bridgeResult none) ∧
      CniResult.deserialize (fun _ => false) bridgeNet (bridgeResult none) =
        .error "missing field `gateway`" ∧
      (invokeCni (bridgeWorld none) fcnetConfig ()).1 = .err (.json "missing field `gateway`") ∧
      ((pluginRuns (invokeCni (bridgeWorld none).recording fcnetConfig ⟨(), []⟩).2.log).map
          fun run => (run.program, run.command, succeeds (bridgeWorld none) .add run.process)) =
        [("/opt/cni/bin/tuning", some "DEL", true), ("/opt/cni/bin/bridge", some "DEL", true),
          ("/opt/cni/bin/bridge", some "ADD", true),
          ("/opt/cni/bin/tuning", some "ADD", true)] := by
  refine ⟨conforming_bridgeResult ?_, by decide +kernel, by decide +kernel, by decide +kernel⟩
  rintro _ ⟨⟩

end FirecrackerSdk
