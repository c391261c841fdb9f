import Mathlib.Data.List.Nodup
import FirecrackerSdk.Lib.Naming
import FirecrackerSdk.Machine.Configure

/-!
# The ids of drives

`drives.rs`: a builder that collects drives. A drive that is added gets its position as id, the
root drive the id `root_drive`, and an option may replace the id by any text. Distinct positions
have distinct numerals, none of which is `root_drive`; but nothing keeps a given id from being the
one that another drive has got from its position, so the ids are told apart by
`Naming.nodup_names_iff` at the drives of a sequence of calls.
-/

namespace FirecrackerSdk

/-- `ROOT_DRIVE_NAME`. -/
def rootDriveName : String := "root_drive"

/-! ### Options -/

/-- The options of the crate. -/
inductive DriveOpt where
  | withDriveId (id : String)
  | withReadOnly (flag : Bool)
  | withPartuuid (partuuid : String)
  | withRateLimiter (limiter : RateLimiter)
  | withCacheType (cacheType : String)
  | withIoEngine (ioEngine : String)
  deriving DecidableEq

namespace DriveOpt

/-- What the closure of an option does. -/
def apply : DriveOpt → Drive → Drive
  | .withDriveId id, drive => { drive with driveId := some id }
  | .withReadOnly flag, drive => { drive with isReadOnly := some flag }
  | .withPartuuid partuuid, drive => { drive with partuuid := some partuuid }
  | .withRateLimiter limiter, drive => { drive with rateLimiter := some limiter }
  | .withCacheType cacheType, drive => { drive with cacheType := some cacheType }
  | .withIoEngine ioEngine, drive => { drive with ioEngine := some ioEngine }

/-- Apply options one after the other. -/
def applyAll (opts : List DriveOpt) (drive : Drive) : Drive :=
  opts.foldl (fun drive opt => opt.apply drive) drive

/-- The id that an option gives. -/
def explicitId : DriveOpt → Option String
  | .withDriveId id => some id
  | _ => none

/-- The ids that options give. -/
def explicitIds (opts : List DriveOpt) : List String := opts.filterMap explicitId

/-- The last option that gives an id counts. -/
theorem driveId_applyAll (opts : List DriveOpt) (drive : Drive) :
    (applyAll opts drive).driveId = (explicitIds opts).getLast?.or drive.driveId := by
  induction opts generalizing drive with
  | nil => rfl
  | cons opt opts ih =>
    have hstep : (applyAll (opt :: opts) drive).driveId =
        (explicitIds opts).getLast?.or (opt.apply drive).driveId := ih (opt.apply drive)
    rw [hstep]
    unfold explicitIds
    cases opt with
    | withDriveId id =>
      have hcons : (withDriveId id :: opts).filterMap explicitId =
          id :: opts.filterMap explicitId := rfl
      rw [hcons, List.getLast?_cons]
      cases (opts.filterMap explicitId).getLast? <;> rfl
    | _ => rfl

end DriveOpt

/-! ### The builder -/

/-- `DrivesBuilder`. -/
structure DrivesBuilder where
  rootDrive : Drive := {}
  drives : List Drive := []

namespace DrivesBuilder

/-- The root drive before its options. -/
def plainRootDrive (path : String) : Drive where
  driveId := some rootDriveName
  pathOnHost := some path
  isRootDevice := some true
  isReadOnly := some false

/-- `DrivesBuilder::new`. -/
def new (rootDrivePath : String) : DrivesBuilder := { rootDrive := plainRootDrive rootDrivePath }

/-- `DrivesBuilder::with_root_drive`. -/
def withRootDrive (builder : DrivesBuilder) (rootDrivePath : String) (opts : List DriveOpt) :
    DrivesBuilder :=
  { builder with rootDrive := DriveOpt.applyAll opts (plainRootDrive rootDrivePath) }

/-- `DrivesBuilder::add_drive`. -/
def addDrive (builder : DrivesBuilder) (path : String) (readOnly : Bool) (opts : List DriveOpt) :
    DrivesBuilder :=
  { builder with
    drives := builder.drives ++ [DriveOpt.applyAll opts
      { driveId := some (toString builder.drives.length)
        pathOnHost := some path
        isRootDevice := some false
        isReadOnly := some readOnly }] }

/-- `DrivesBuilder::build`. -/
def build (builder : DrivesBuilder) : List Drive := builder.drives ++ [builder.rootDrive]

end DrivesBuilder

/-- The calls of a builder after `new`. -/
inductive DrivesCall where
  | withRootDrive (path : String) (opts : List DriveOpt)
  | addDrive (path : String) (readOnly : Bool) (opts : List DriveOpt)

namespace DrivesCall

/-- What a call makes of a builder. -/
def perform : DrivesCall → DrivesBuilder → DrivesBuilder
  | .withRootDrive path opts, builder => builder.withRootDrive path opts
  | .addDrive path readOnly opts, builder => builder.addDrive path readOnly opts

/-- The options of a call that adds a drive. -/
def added : DrivesCall → Option (List DriveOpt)
  | .addDrive _ _ opts => some opts
  | .withRootDrive _ _ => none

/-- The options of a call that replaces the root drive. -/
def root : DrivesCall → Option (List DriveOpt)
  | .withRootDrive _ opts => some opts
  | .addDrive _ _ _ => none

/-- The ids that a call gives. -/
def explicitIds : DrivesCall → List String
  | .withRootDrive _ opts => DriveOpt.explicitIds opts
  | .addDrive _ _ opts => DriveOpt.explicitIds opts

end DrivesCall

/-- The list that a sequence of calls builds. -/
def buildDrives (rootDrivePath : String) (calls : List DrivesCall) : List Drive :=
  (calls.foldl (fun builder call => call.perform builder) (DrivesBuilder.new rootDrivePath)).build

/-! ### What the drives are called -/

/-- The id of the drive that was added at a position, or of the root drive. -/
def driveEntry (default : String) (opts : List DriveOpt) : Naming.Entry String where
  default := default
  given := (DriveOpt.explicitIds opts).getLast?

/-- The drives that are added from position `index` on. -/
def addedEntries (index : ℕ) (opts : List (List DriveOpt)) : List (Naming.Entry String) :=
  (opts.zipIdx index).map fun entry => driveEntry (toString entry.2) entry.1

/-- **The drives of a sequence of calls**: those that are added, and the last root drive. -/
def driveEntries (calls : List DrivesCall) : List (Naming.Entry String) :=
  addedEntries 0 (calls.filterMap DrivesCall.added) ++
    [driveEntry rootDriveName ((calls.filterMap DrivesCall.root).getLast?.getD [])]

/-- The ids under which `attach_drives` configures drives: those of the calls that it makes. -/
def attachedIds (drives : List Drive) : List String :=
  (drives.map Machine.driveCall).filterMap fun
    | .putGuestDriveById driveId _ => some driveId
    | _ => none

theorem attachedIds_eq (drives : List Drive) :
    attachedIds drives = drives.map (·.driveId.getD "") := by
  rw [attachedIds, List.filterMap_map]
  exact congrFun (List.filterMap_eq_map (f := fun drive : Drive => drive.driveId.getD "")) drives

theorem driveId_of_entry (default : String) (opts : List DriveOpt) {drive : Drive}
    (h : drive.driveId = some default) :
    (DriveOpt.applyAll opts drive).driveId = some (driveEntry default opts).name := by
  rw [DriveOpt.driveId_applyAll, h]
  unfold Naming.Entry.name driveEntry
  cases (DriveOpt.explicitIds opts).getLast? <;> rfl

theorem addedEntries_concat (index : ℕ) (opts : List (List DriveOpt)) (last : List DriveOpt) :
    addedEntries index (opts ++ [last]) =
      addedEntries index opts ++ [driveEntry (toString (index + opts.length)) last] := by
  unfold addedEntries
  rw [List.zipIdx_append, List.map_append]
  rfl

/-- **A builder made by these calls**: the ids that it holds. -/
def MadeBy (builder : DrivesBuilder) (calls : List DrivesCall) : Prop :=
  builder.drives.map (·.driveId) =
      (addedEntries 0 (calls.filterMap DrivesCall.added)).map (fun entry => some entry.name) ∧
    builder.rootDrive.driveId =
      some (driveEntry rootDriveName ((calls.filterMap DrivesCall.root).getLast?.getD [])).name

theorem made_new (rootDrivePath : String) : MadeBy (DrivesBuilder.new rootDrivePath) [] :=
  ⟨rfl, rfl⟩

/-- A call adds a drive or replaces the root drive. -/
theorem MadeBy.perform {builder : DrivesBuilder} {calls : List DrivesCall}
    (h : MadeBy builder calls) (call : DrivesCall) :
    MadeBy (call.perform builder) (calls ++ [call]) := by
  obtain ⟨hdrives, hroot⟩ := h
  unfold MadeBy
  rw [List.filterMap_append, List.filterMap_append]
  cases call with
  | withRootDrive path opts =>
    refine ⟨?_, ?_⟩
    · have hadded : [DrivesCall.withRootDrive path opts].filterMap DrivesCall.added = [] := rfl
      rw [hadded, List.append_nil]
      exact hdrives
    · have hlast : ((calls.filterMap DrivesCall.root) ++
          [DrivesCall.withRootDrive path opts].filterMap DrivesCall.root).getLast?.getD [] =
          opts := by
        simp [DrivesCall.root]
      rw [hlast]
      exact driveId_of_entry rootDriveName opts rfl
  | addDrive path readOnly opts =>
    refine ⟨?_, ?_⟩
    · have hlength : builder.drives.length = (calls.filterMap DrivesCall.added).length := by
        have hlengths := congrArg List.length hdrives
        simpa [addedEntries] using hlengths
      have hadded : [DrivesCall.addDrive path readOnly opts].filterMap DrivesCall.added =
          [opts] := rfl
      rw [hadded, addedEntries_concat, List.map_append, ← hdrives, Nat.zero_add, ← hlength]
      change (builder.drives ++ [_]).map Drive.driveId = _
      rw [List.map_append, List.map_singleton, List.map_singleton,
        driveId_of_entry (toString builder.drives.length) opts rfl]
    · have hsame : [DrivesCall.addDrive path readOnly opts].filterMap DrivesCall.root = [] := rfl
      rw [hsame, List.append_nil]
      exact hroot

theorem made_run (rootDrivePath : String) (calls : List DrivesCall) :
    MadeBy (calls.foldl (fun builder call => call.perform builder)
      (DrivesBuilder.new rootDrivePath)) calls := by
  induction calls using List.reverseRecOn with
  | nil => exact made_new rootDrivePath
  | append_singleton calls call ih =>
    rw [List.foldl_append]
    exact ih.perform call

/-- **The ids of a built list** are the names of its drives. -/
theorem driveIds_buildDrives (rootDrivePath : String) (calls : List DrivesCall) :
    (buildDrives rootDrivePath calls).map (·.driveId) =
      (driveEntries calls).map fun entry => some entry.name := by
  obtain ⟨hdrives, hroot⟩ := made_run rootDrivePath calls
  unfold buildDrives DrivesBuilder.build driveEntries
  rw [List.map_append, List.map_append, hdrives, List.map_singleton, List.map_singleton, hroot]

theorem attachedIds_buildDrives (rootDrivePath : String) (calls : List DrivesCall) :
    attachedIds (buildDrives rootDrivePath calls) = (driveEntries calls).map Naming.Entry.name := by
  have hids := congrArg (List.map fun id : Option String => id.getD "")
    (driveIds_buildDrives rootDrivePath calls)
  rw [List.map_map, List.map_map] at hids
  rw [attachedIds_eq]
  exact hids

/-! ### Which ids can clash -/

/-- The ids that the options of several drives give, each list by its last. -/
def lastIds (opts : List (List DriveOpt)) : List String :=
  opts.filterMap fun opts => (DriveOpt.explicitIds opts).getLast?

theorem lastIds_cons (first : List DriveOpt) (opts : List (List DriveOpt)) :
    lastIds (first :: opts) =
      (DriveOpt.explicitIds first).getLast?.toList ++ lastIds opts := by
  unfold lastIds
  rw [List.filterMap_cons]
  cases (DriveOpt.explicitIds first).getLast? <;> rfl

theorem defaults_addedEntries (index : ℕ) (opts : List (List DriveOpt)) :
    (addedEntries index opts).map (·.default) =
      (List.range' index opts.length).map toString := by
  induction opts generalizing index with
  | nil => rfl
  | cons first opts ih =>
    rw [List.length_cons, List.range'_succ, List.map_cons, ← ih (index + 1)]
    rfl

theorem given_addedEntries (index : ℕ) (opts : List (List DriveOpt)) :
    Naming.given (addedEntries index opts) = lastIds opts := by
  induction opts generalizing index with
  | nil => rfl
  | cons first opts ih =>
    have hcons : addedEntries index (first :: opts) =
        driveEntry (toString index) first :: addedEntries (index + 1) opts := rfl
    rw [hcons, Naming.given_cons, ih (index + 1), lastIds_cons]
    rfl

/-- No numeral is the name of the root drive. -/
theorem toString_ne_rootDriveName (n : ℕ) : toString n ≠ rootDriveName := by
  intro h
  have hdigits := congrArg String.toList h
  rw [Nat.toString_eq_repr, Nat.toList_repr] at hdigits
  refine @Nat.underscore_not_in_toDigits n ?_
  rw [hdigits]
  decide

/-- The ids that are made up are all different. -/
theorem nodup_defaults_driveEntries (calls : List DrivesCall) :
    ((driveEntries calls).map (·.default)).Nodup := by
  unfold driveEntries
  rw [List.map_append, defaults_addedEntries, List.map_singleton]
  refine List.nodup_append.mpr ⟨?_, List.nodup_singleton _, ?_⟩
  · exact List.Nodup.map (fun _ _ h => Text.toString_inj.mp h) List.nodup_range'
  · intro id hid other hother
    obtain ⟨n, -, rfl⟩ := List.mem_map.mp hid
    rw [List.mem_singleton.mp hother]
    exact toString_ne_rootDriveName n

/-- The ids that calls give are those of the drives that are added and of the root drives. -/
theorem explicitIds_perm (calls : List DrivesCall) :
    (calls.flatMap DrivesCall.explicitIds).Perm
      ((calls.filterMap DrivesCall.added).flatMap DriveOpt.explicitIds ++
        (calls.filterMap DrivesCall.root).flatMap DriveOpt.explicitIds) := by
  induction calls with
  | nil => exact .nil
  | cons call calls ih =>
    rw [List.flatMap_cons]
    cases call with
    | addDrive path readOnly opts =>
      have hadded : (DrivesCall.addDrive path readOnly opts :: calls).filterMap DrivesCall.added =
          opts :: calls.filterMap DrivesCall.added := rfl
      rw [hadded, List.flatMap_cons, List.append_assoc]
      exact ih.append_left _
    | withRootDrive path opts =>
      have hroot : (DrivesCall.withRootDrive path opts :: calls).filterMap DrivesCall.root =
          opts :: calls.filterMap DrivesCall.root := rfl
      rw [hroot, List.flatMap_cons]
      exact (ih.append_left _).trans (List.perm_append_comm_assoc _ _ _)

/-- What counts of a list of options is one of the ids that it gives. -/
theorem toList_getLast?_sublist (ids : List String) : (ids.getLast?.toList).Sublist ids := by
  cases h : ids.getLast? with
  | none => exact List.nil_sublist _
  | some id => exact List.singleton_sublist.mpr (List.mem_of_getLast? h)

theorem lastIds_sublist (opts : List (List DriveOpt)) :
    (lastIds opts).Sublist (opts.flatMap DriveOpt.explicitIds) := by
  induction opts with
  | nil => exact List.nil_sublist _
  | cons first opts ih =>
    rw [lastIds_cons, List.flatMap_cons]
    exact (toList_getLast?_sublist _).append ih

/-- Ids that are given to different drives are different. -/
theorem nodup_given_driveEntries {calls : List DrivesCall}
    (h : (calls.flatMap DrivesCall.explicitIds).Nodup) :
    (Naming.given (driveEntries calls)).Nodup := by
  have hgiven : Naming.given (driveEntries calls) =
      lastIds (calls.filterMap DrivesCall.added) ++
        (DriveOpt.explicitIds
          ((calls.filterMap DrivesCall.root).getLast?.getD [])).getLast?.toList := by
    unfold driveEntries
    rw [Naming.given_append, given_addedEntries, Naming.given_cons]
    exact congrArg _ (List.append_nil _)
  have hroot : (DriveOpt.explicitIds
      ((calls.filterMap DrivesCall.root).getLast?.getD [])).getLast?.toList.Sublist
        ((calls.filterMap DrivesCall.root).flatMap DriveOpt.explicitIds) := by
    rcases List.eq_nil_or_concat' (calls.filterMap DrivesCall.root) with hnil | ⟨init, last, hlast⟩
    · rw [hnil]
      exact List.nil_sublist _
    · rw [hlast, List.getLast?_concat, Option.getD_some, List.flatMap_append, List.flatMap_cons,
        List.flatMap_nil, List.append_nil]
      exact (toList_getLast?_sublist _).trans (List.sublist_append_right _ _)
  rw [hgiven]
  exact ((lastIds_sublist _).append hroot).nodup ((explicitIds_perm calls).nodup_iff.mp h)

/-- **When the drives of a builder have different ids**, where the given ones are different: if
none that was given to a drive is the position of another drive that was added without one, or
`root_drive` while the root drive has none. Then `attach_drives` configures no two drives under
one id. -/
theorem built_drive_ids_distinct_iff (rootDrivePath : String) (calls : List DrivesCall)
    (h : (calls.flatMap DrivesCall.explicitIds).Nodup) :
    ((buildDrives rootDrivePath calls).map (·.driveId)).Nodup ∧
        (attachedIds (buildDrives rootDrivePath calls)).Nodup ↔
      Naming.NoClash (driveEntries calls) := by
  have hiff := Naming.nodup_names_iff (nodup_defaults_driveEntries calls)
    (nodup_given_driveEntries h)
  have hsome : ((driveEntries calls).map fun entry => some entry.name) =
      ((driveEntries calls).map Naming.Entry.name).map some := by
    rw [List.map_map]
    rfl
  rw [driveIds_buildDrives, attachedIds_buildDrives, hsome,
    List.nodup_map_iff (Option.some_injective _), and_self_iff]
  exact hiff

/-- Two drives with given ids, one without, and the root drive. -/
def plainCalls : List DrivesCall :=
  [.addDrive "/data" false [.withDriveId "data"], .addDrive "/logs" true [],
    .withRootDrive "/rootfs" [.withDriveId "0", .withReadOnly true]]

theorem built_drive_ids_distinct_plain :
    ((buildDrives "/root" plainCalls).map (·.driveId)).Nodup := by
  refine ((built_drive_ids_distinct_iff "/root" plainCalls (by decide)).mpr ?_).1
  unfold Naming.NoClash
  decide

/-- The second drive is given the id that the first has got from its position. -/
theorem given_id_clashes :
    ([DrivesCall.addDrive "/a" false [], .addDrive "/b" false [.withDriveId "0"]].flatMap
        DrivesCall.explicitIds).Nodup ∧
      ¬((buildDrives "/root" [.addDrive "/a" false [],
        .addDrive "/b" false [.withDriveId "0"]]).map (·.driveId)).Nodup := by
  decide

end FirecrackerSdk
