import FirecrackerSdk.Client

/-!
# The balloon device over the wire

The requests about the balloon device carry JSON objects, and so does the answer that
`get_balloon_config` decodes. Encoder, decoder and the server have to agree on the names in
them, and the decoder fills in what is missing, so that a disagreement shows up as a value only.

The server here keeps a balloon as `swagger.yaml` describes it: each request has a schema, and
properties that the schema does not have are ignored. The SDK calls the polling interval
`stats_polling_intervals` in both directions and the schema `stats_polling_interval_s`, so the
interval never arrives. `FirecrackerSdk.balloon_round_trip_iff` says for every sequence of requests
that what comes back is what was sent exactly if the last interval sent is zero.
-/

namespace FirecrackerSdk

/-! ### Requests -/

/-- `Machine::create_balloon`. -/
def createBalloon (amountMib : Int64) (deflateOnOom : Bool) (statsPollingIntervals : Int64) :
    ClientRequest Unit :=
  .putBalloon ⟨some amountMib, some deflateOnOom, statsPollingIntervals⟩

/-- `Machine::update_balloon`. -/
def updateBalloon (amountMib : Int64) : ClientRequest Unit := .patchBalloon ⟨some amountMib⟩

/-- `Machine::update_balloon_stats`. -/
def updateBalloonStats (statsPollingIntervals : Int64) : ClientRequest Unit :=
  .patchBalloonStatsInterval ⟨some statsPollingIntervals⟩

/-! ### The server -/

/-- A JSON object: its entries. -/
abbrev JsonObject : Type := List (String × JsonValue)

/-- The properties of `Balloon` in `swagger.yaml`. -/
def balloonProperties : List String := ["amount_mib", "deflate_on_oom", "stats_polling_interval_s"]

/-- The properties of `BalloonUpdate`. -/
def balloonUpdateProperties : List String := ["amount_mib"]

/-- The properties of `BalloonStatsUpdate`. -/
def balloonStatsUpdateProperties : List String := ["stats_polling_interval_s"]

namespace JsonObject

/-- The object that a request carries. -/
def ofBody : Option JsonValue → JsonObject
  | some (.object entries) => entries
  | _ => []

/-- The entries of a name. -/
def named (name : String) (object : JsonObject) : JsonObject :=
  object.filter fun entry => entry.1 = name

/-- What a schema has of an object. -/
def known (properties : List String) (object : JsonObject) : JsonObject :=
  object.filter fun entry => entry.1 ∈ properties

/-- Write the properties of one object over those of another. -/
def overlay (object stored : JsonObject) : JsonObject :=
  object ++ stored.filter fun entry => entry.1 ∉ object.map Prod.fst

/-- What is not written stays. -/
theorem named_overlay_of_not_mem {name : String} {object : JsonObject}
    (h : name ∉ object.map Prod.fst) (stored : JsonObject) :
    named name (overlay object stored) = named name stored := by
  have hnone : named name object = [] := by
    refine List.filter_eq_nil_iff.mpr fun entry hentry heq => h ?_
    exact of_decide_eq_true heq ▸ List.mem_map_of_mem hentry
  have hkept : named name (stored.filter fun entry => entry.1 ∉ object.map Prod.fst) =
      named name stored := by
    rw [named, List.filter_filter]
    refine List.filter_congr fun entry _ => ?_
    rw [Bool.and_eq_left_iff_imp]
    intro heq
    rw [of_decide_eq_true heq]
    exact decide_eq_true h
  rw [overlay, named, List.filter_append]
  exact (congrArg₂ (· ++ ·) hnone hkept).trans (List.nil_append _)

/-- What is written is there. -/
theorem named_overlay_of_mem {name : String} {object : JsonObject}
    (h : name ∈ object.map Prod.fst) (stored : JsonObject) :
    named name (overlay object stored) = named name object := by
  have hnone : named name (stored.filter fun entry => entry.1 ∉ object.map Prod.fst) = [] := by
    refine List.filter_eq_nil_iff.mpr fun entry hentry heq => ?_
    refine of_decide_eq_true (List.mem_filter.mp hentry).2 ?_
    rwa [of_decide_eq_true heq]
  rw [overlay, named, List.filter_append]
  exact (congrArg (named name object ++ ·) hnone).trans (List.append_nil _)

end JsonObject

open JsonObject

/-- The interval of a balloon that was created without one. -/
def balloonDefaults : JsonObject := [("stats_polling_interval_s", .number "0")]

/-- The balloon after a request. -/
def serveBalloon (stored : JsonObject) (request : ClientRequest Unit) : JsonObject :=
  if request.path = "/balloon" then
    if request.method = "PUT" then
      overlay (known balloonProperties (ofBody request.body)) balloonDefaults
    else overlay (known balloonUpdateProperties (ofBody request.body)) stored
  else if request.path = "/balloon/statistics" then
    overlay (known balloonStatsUpdateProperties (ofBody request.body)) stored
  else stored

/-- `Machine::get_balloon_config`, on what the server has. -/
def getBalloonConfig (stored : JsonObject) : Option Balloon :=
  Balloon.codec.fromValue (.object stored)

/-! ### What comes back -/

/-- A later change of the balloon. -/
inductive BalloonChange where
  | amount (amountMib : Int64)
  | interval (statsPollingIntervals : Int64)
  deriving DecidableEq

/-- The request that makes it. -/
def BalloonChange.request : BalloonChange → ClientRequest Unit
  | .amount amountMib => updateBalloon amountMib
  | .interval statsPollingIntervals => updateBalloonStats statsPollingIntervals

/-- The last amount that was sent. -/
def lastAmount (amountMib : Int64) (changes : List BalloonChange) : Int64 :=
  changes.foldl (fun last change =>
    match change with
    | .amount amountMib => amountMib
    | .interval _ => last) amountMib

/-- The last interval that was sent. -/
def lastInterval (statsPollingIntervals : Int64) (changes : List BalloonChange) : Int64 :=
  changes.foldl (fun last change =>
    match change with
    | .amount _ => last
    | .interval statsPollingIntervals => statsPollingIntervals) statsPollingIntervals

/-- The balloon of a server after it was created and changed. -/
def balloonAfter (stored : JsonObject) (amountMib : Int64) (deflateOnOom : Bool)
    (statsPollingIntervals : Int64) (changes : List BalloonChange) : JsonObject :=
  (changes.map BalloonChange.request).foldl serveBalloon
    (serveBalloon stored (createBalloon amountMib deflateOnOom statsPollingIntervals))

/-- What the server has: the amount and the flag are there, and nothing is under the name that
the SDK has for the interval. -/
structure Kept (amountMib : Int64) (deflateOnOom : Bool) (stored : JsonObject) : Prop where
  amount : named "amount_mib" stored = [("amount_mib", Codec.int64.toValue amountMib)]
  flag : named "deflate_on_oom" stored = [("deflate_on_oom", .bool deflateOnOom)]
  interval : named "stats_polling_intervals" stored = []

theorem kept_create (stored : JsonObject) (amountMib : Int64) (deflateOnOom : Bool)
    (statsPollingIntervals : Int64) :
    Kept amountMib deflateOnOom
      (serveBalloon stored (createBalloon amountMib deflateOnOom statsPollingIntervals)) :=
  ⟨rfl, rfl, rfl⟩

/-- A server that changes the amount. -/
theorem serveBalloon_amount (stored : JsonObject) (amountMib : Int64) :
    serveBalloon stored (updateBalloon amountMib) =
      overlay [("amount_mib", Codec.int64.toValue amountMib)] stored := rfl

/-- Of the request that changes the interval the schema has nothing. -/
theorem serveBalloon_interval (stored : JsonObject) (statsPollingIntervals : Int64) :
    serveBalloon stored (updateBalloonStats statsPollingIntervals) = overlay [] stored := rfl

/-- **A change reaches the server** if it is one of the amount. -/
theorem Kept.change {amountMib : Int64} {deflateOnOom : Bool} {stored : JsonObject}
    (h : Kept amountMib deflateOnOom stored) (change : BalloonChange) :
    Kept (lastAmount amountMib [change]) deflateOnOom (serveBalloon stored change.request) := by
  cases change with
  | amount amountMib =>
    rw [BalloonChange.request, serveBalloon_amount]
    refine ⟨named_overlay_of_mem (by simp) _, ?_, ?_⟩
    · rw [named_overlay_of_not_mem (by simp), h.flag]
    · rw [named_overlay_of_not_mem (by simp), h.interval]
  | interval statsPollingIntervals =>
    rw [BalloonChange.request, serveBalloon_interval]
    refine ⟨?_, ?_, ?_⟩
    · rw [named_overlay_of_not_mem (by decide), h.amount]
      rfl
    · rw [named_overlay_of_not_mem (by decide), h.flag]
    · rw [named_overlay_of_not_mem (by decide), h.interval]

theorem Kept.changes {amountMib : Int64} {deflateOnOom : Bool} {stored : JsonObject}
    (h : Kept amountMib deflateOnOom stored) (changes : List BalloonChange) :
    Kept (lastAmount amountMib changes) deflateOnOom
      ((changes.map BalloonChange.request).foldl serveBalloon stored) := by
  induction changes generalizing amountMib stored with
  | nil => exact h
  | cons change changes ih => exact ih (h.change change)

/-- **What comes back** is the amount, the flag, and no interval. -/
theorem Kept.getBalloonConfig {amountMib : Int64} {deflateOnOom : Bool} {stored : JsonObject}
    (h : Kept amountMib deflateOnOom stored) :
    getBalloonConfig stored = some ⟨some amountMib, some deflateOnOom, 0⟩ := by
  have hvalues : ∀ field ∈ Balloon.table.fields, field.value stored =
      some (field.get ⟨some amountMib, some deflateOnOom, 0⟩) := by
    intro field hfield
    simp only [Balloon.table, List.mem_cons, List.not_mem_nil, or_false] at hfield
    rcases hfield with rfl | rfl | rfl
    · exact (congrArg (Record.Field.ofEntries _) h.amount).trans
        (Field.fromOption_toValue Codec.int64 trivial)
    · exact congrArg (Record.Field.ofEntries _) h.flag
    · exact congrArg (Record.Field.ofEntries _) h.interval
  exact (Record.foldlM_of_values hvalues _).trans
    (congrArg some (Balloon.table.complete.rebuild _))

/-- **The balloon that comes back is the one that was sent** exactly if the last interval sent
is zero. -/
theorem balloon_round_trip_iff (stored : JsonObject) (amountMib : Int64) (deflateOnOom : Bool)
    (statsPollingIntervals : Int64) (changes : List BalloonChange) :
    getBalloonConfig
        (balloonAfter stored amountMib deflateOnOom statsPollingIntervals changes) =
      some ⟨some (lastAmount amountMib changes), some deflateOnOom,
        lastInterval statsPollingIntervals changes⟩ ↔
    lastInterval statsPollingIntervals changes = 0 := by
  have hkept := (kept_create stored amountMib deflateOnOom statsPollingIntervals).changes changes
  rw [balloonAfter, hkept.getBalloonConfig]
  constructor
  · intro h
    exact (congrArg Balloon.statsPollingIntervals (Option.some.inj h)).symm
  · intro h
    rw [h]

/-- **The interval is lost**: five seconds come back as none. -/
theorem balloon_interval_lost :
    getBalloonConfig (balloonAfter [] 64 true 5 []) = some ⟨some 64, some true, 0⟩ ∧
      getBalloonConfig (balloonAfter [] 64 true 5 []) ≠
        some ⟨some 64, some true, 5⟩ := by
  have hlost := (kept_create [] 64 true 5).getBalloonConfig
  refine ⟨hlost, fun heq => ?_⟩
  have hfive := congrArg Balloon.statsPollingIntervals (Option.some.inj (hlost.symm.trans heq))
  exact absurd hfive (by decide)

end FirecrackerSdk
