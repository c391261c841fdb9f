import FirecrackerSdk.Machine.Standard

/-!
# Editing a pipeline for a snapshot and for a jail

Two functions edit the handlers of a machine. `adapt_handlers_for_snapshot` takes out what only a
boot needs and what loads a snapshot, and puts one handler at the end of either list;
`NaiveChrootStrategy::adapt_handlers` puts a copy of a handler behind every handler that creates
log files, and fails if there is none. The user may have edited the lists before, with any names,
any number of times.

The first is one operation on either list (`FirecrackerSdk.HandlerList.renew`): drop the handlers
of some names and append one that has such a name. It keeps all other handlers as they stand, so
it is idempotent, and neither what the second looks for nor what it inserts is among the names that
are dropped (`FirecrackerSdk.HandlerList.renew_appendAfter`). Hence the two commute, and it does not
matter whether a snapshot is selected by the configuration, before the machine is jailed, or by an
option, after it.
-/

namespace FirecrackerSdk

namespace HandlerList

/-! ### Dropping names and appending a handler -/

/-- Drop the handlers of some names, and append a handler. -/
def renew (names : List String) (handler : Handler) (list : List Handler) : List Handler :=
  list.filter (fun existing => decide (existing.name ∉ names)) ++ [handler]

/-- Removing names one after the other is dropping the handlers of all of them. -/
theorem foldl_remove (names : List String) (list : List Handler) :
    names.foldl (fun list name => remove name list) list =
      list.filter fun existing => decide (existing.name ∉ names) := by
  induction names generalizing list with
  | nil => simp
  | cons name names ih =>
    rw [List.foldl_cons, ih, remove, List.filter_filter]
    refine List.filter_congr fun existing _ => ?_
    simp [Bool.and_comm]

theorem filter_handler_eq_nil {names : List String} {handler : Handler}
    (hname : handler.name ∈ names) :
    [handler].filter (fun existing => decide (existing.name ∉ names)) = [] := by
  simp [hname]

/-- **What stays, stays as it was**: the other handlers, in their order and as often. -/
theorem filter_renew {names : List String} {handler : Handler} (hname : handler.name ∈ names)
    (list : List Handler) :
    (renew names handler list).filter (fun existing => decide (existing.name ∉ names)) =
      list.filter fun existing => decide (existing.name ∉ names) := by
  rw [renew, List.filter_append, filter_handler_eq_nil hname, List.append_nil, List.filter_filter]
  simp

/-- Dropping and appending again changes nothing. -/
theorem renew_renew {names : List String} {handler : Handler} (hname : handler.name ∈ names)
    (list : List Handler) :
    renew names handler (renew names handler list) = renew names handler list := by
  rw [renew, filter_renew hname, renew]

/-- What is in the list is the handler that was appended, or was not dropped. -/
theorem name_of_mem_renew {names : List String} {handler existing : Handler} {list : List Handler}
    (hmem : existing ∈ renew names handler list) : existing = handler ∨ existing.name ∉ names := by
  rcases List.mem_append.mp hmem with hmem | hmem
  · exact .inr (by simpa using (List.mem_filter.mp hmem).2)
  · exact .inl (List.mem_singleton.mp hmem)

/-- **Of the name of the handler there is one handler left**, the one that was appended. -/
theorem filter_name_renew {names : List String} {handler : Handler} (hname : handler.name ∈ names)
    (list : List Handler) :
    (renew names handler list).filter (fun existing => decide (existing.name = handler.name)) =
      [handler] := by
  have hnone : (list.filter fun existing => decide (existing.name ∉ names)).filter
      (fun existing => decide (existing.name = handler.name)) = [] := by
    refine List.filter_eq_nil_iff.mpr fun existing hmem hsame => ?_
    have hkept : existing.name ∉ names := by simpa using (List.mem_filter.mp hmem).2
    rw [of_decide_eq_true hsame] at hkept
    exact hkept hname
  rw [renew, List.filter_append, hnone]
  simp

/-! ### Inserting behind a name -/

theorem appendAfter_append (afterName : String) (handler : Handler) (first second : List Handler) :
    appendAfter afterName handler (first ++ second) =
      appendAfter afterName handler first ++ appendAfter afterName handler second :=
  List.flatMap_append

/-- A filter that keeps the handler, and those that it is put behind, commutes with the
insertion. -/
theorem filter_appendAfter {p : Handler → Bool} {afterName : String} {handler : Handler}
    (hhandler : p handler = true)
    (hafter : ∀ existing, existing.name = afterName → p existing = true) (list : List Handler) :
    (appendAfter afterName handler list).filter p =
      appendAfter afterName handler (list.filter p) := by
  induction list with
  | nil => rfl
  | cons existing list ih =>
    have hcons : ∀ (first : Handler) (rest : List Handler),
        appendAfter afterName handler (first :: rest) =
          (if first.name = afterName then [first, handler] else [first]) ++
            appendAfter afterName handler rest := fun _ _ => rfl
    rw [hcons, List.filter_append, ih]
    by_cases hname : existing.name = afterName
    · have hp := hafter existing hname
      rw [if_pos hname, List.filter_cons_of_pos hp, List.filter_cons_of_pos hp, hcons, if_pos hname,
        List.filter_cons_of_pos hhandler]
      rfl
    · rw [if_neg hname]
      cases hp : p existing with
      | false =>
        rw [List.filter_cons_of_neg (by simp [hp]), List.filter_cons_of_neg (by simp [hp])]
        rfl
      | true =>
        rw [List.filter_cons_of_pos hp, List.filter_cons_of_pos hp, hcons, if_neg hname]
        rfl

/-- **The two edits commute**, if nothing of the one is dropped by the other. -/
theorem renew_appendAfter {names : List String} {afterName : String} {handler inserted : Handler}
    (hafter : afterName ∉ names) (hinserted : inserted.name ∉ names)
    (hhandler : handler.name ≠ afterName) (list : List Handler) :
    renew names handler (appendAfter afterName inserted list) =
      appendAfter afterName inserted (renew names handler list) := by
  have hlast : appendAfter afterName inserted [handler] = [handler] := by
    simp [appendAfter, hhandler]
  rw [renew, renew, appendAfter_append, hlast, filter_appendAfter]
  · simpa using hinserted
  · rintro existing rfl
    simpa using hafter

/-- A handler that is not dropped is still there, and none comes in under its name. -/
theorem has_renew {names : List String} {handler : Handler} {name : String}
    (hname : name ∉ names) (hhandler : handler.name ≠ name) (list : List Handler) :
    has name (renew names handler list) = has name list := by
  rw [Bool.eq_iff_iff, has, has, List.any_eq_true, List.any_eq_true]
  constructor
  · rintro ⟨existing, hmem, heq⟩
    rcases List.mem_append.mp hmem with hmem | hmem
    · exact ⟨existing, List.mem_of_mem_filter hmem, heq⟩
    · rw [List.mem_singleton.mp hmem] at heq
      exact absurd (beq_iff_eq.mp heq) hhandler
  · rintro ⟨existing, hmem, heq⟩
    refine ⟨existing, List.mem_append_left _ (List.mem_filter.mpr ⟨hmem, ?_⟩), heq⟩
    rw [beq_iff_eq.mp heq]
    simpa using hname

end HandlerList

/-! ### The pipelines -/

/-- The validation handlers that a snapshot replaces. -/
def replacedValidationNames : List String :=
  [validateCfgHandlerName, validateLoadSnapshotCfgHandlerName]

/-- The initialisation handlers that a snapshot replaces. -/
def replacedInitNames : List String := bootOnlyHandlerNames ++ [loadSnapshotHandlerName]

theorem bootOnlyHandlerNames_eq :
    bootOnlyHandlerNames = ["fcinit.SetupKernelArgs", "fcinit.CreateMachine",
      "fcinit.CreateBootSource", "fcinit.AttachDrives", "fcinit.CreateNetworkInterfaces",
      "fcinit.ConfigMmds"] := rfl

/-- **Adapting to a snapshot** is dropping names and appending a handler, in either list. -/
theorem adaptHandlersForSnapshot_eq (handlers : Handlers) :
    adaptHandlersForSnapshot handlers =
      { validation := HandlerList.renew replacedValidationNames
          loadSnapshotConfigValidationHandler handlers.validation
        fcInit := HandlerList.renew replacedInitNames loadSnapshotHandler handlers.fcInit } := by
  unfold adaptHandlersForSnapshot HandlerList.renew
  rw [← HandlerList.foldl_remove, ← HandlerList.foldl_remove, replacedInitNames,
    List.foldl_append]
  rfl

theorem adaptHandlersForSnapshot_idem (handlers : Handlers) :
    adaptHandlersForSnapshot (adaptHandlersForSnapshot handlers) =
      adaptHandlersForSnapshot handlers := by
  rw [adaptHandlersForSnapshot_eq, adaptHandlersForSnapshot_eq]
  dsimp only
  rw [HandlerList.renew_renew (by decide), HandlerList.renew_renew (by decide)]

/-- **Adapting to a snapshot and to a jail commute**, and the one fails exactly where the other
does. -/
theorem adaptHandlers_comm (strategy : NaiveChrootStrategy) (handlers : Handlers) :
    (strategy.adaptHandlers handlers).map adaptHandlersForSnapshot =
      strategy.adaptHandlers (adaptHandlersForSnapshot handlers) := by
  unfold NaiveChrootStrategy.adaptHandlers
  rw [adaptHandlersForSnapshot_eq]
  dsimp only
  rw [HandlerList.has_renew (by decide) (by decide)]
  split
  · rw [Except.map, adaptHandlersForSnapshot_eq]
    dsimp only
    rw [HandlerList.renew_appendAfter (by decide)
      (show linkFilesToRootfsHandlerName ∉ replacedInitNames by decide) (by decide)]
  · rfl

/-! ### A snapshot of the configuration, and one of an option -/

/-- The handlers before they are adapted to a snapshot. -/
def bootHandlers (cfg : Config) : Handlers :=
  { defaultHandlers with
    validation := defaultHandlers.validation ++
      [if cfg.jailerCfg.isSome then jailerConfigValidationHandler else configValidationHandler] }

theorem initialHandlers_eq (cfg : Config) :
    initialHandlers cfg =
      if cfg.hasSnapshot then adaptHandlersForSnapshot (bootHandlers cfg) else bootHandlers cfg :=
  rfl

/-- However the configuration is, adapting leads to one pipeline. -/
theorem adaptHandlersForSnapshot_initialHandlers (cfg : Config) :
    adaptHandlersForSnapshot (initialHandlers cfg) =
      adaptHandlersForSnapshot (bootHandlers cfg) := by
  rw [initialHandlers_eq]
  split
  · exact adaptHandlersForSnapshot_idem _
  · rfl

/-- What jailing a machine does to its handlers. -/
def Config.jailHandlers (cfg : Config) (handlers : Handlers) : Except Error Handlers :=
  match cfg.jailerCfg.bind (·.chrootStrategy) with
  | none => .ok handlers
  | some strategy => strategy.adaptHandlers handlers

/-- **Adapting to a snapshot before the machine is jailed or after it** gives the same handlers. -/
theorem Config.jailHandlers_comm (cfg : Config) (handlers : Handlers) :
    (cfg.jailHandlers handlers).map adaptHandlersForSnapshot =
      cfg.jailHandlers (adaptHandlersForSnapshot handlers) := by
  unfold Config.jailHandlers
  split
  · rfl
  · exact adaptHandlers_comm _ handlers

theorem newWithClient_map_handlers (cfg : Config) (uuid cpuset : String) :
    (newWithClient cfg uuid cpuset).map (·.handlers) = cfg.jailHandlers (initialHandlers cfg) := by
  -- what the configuration is completed with does not bear on the handlers
  have hinit : initialHandlers (completeConfig cfg uuid) = initialHandlers cfg := rfl
  have hjailer : (completeConfig cfg uuid).jailerCfg = cfg.jailerCfg := rfl
  unfold newWithClient Config.jailHandlers
  dsimp only
  rw [hjailer, hinit]
  cases hcfg : cfg.jailerCfg with
  | none => rfl
  | some jailerCfg =>
    rw [Option.isSome_some, if_pos rfl, Option.bind_some]
    unfold jail
    dsimp only
    rw [hjailer, hcfg]
    dsimp only
    cases jailerCfg.chrootStrategy with
    | none => rfl
    | some strategy =>
      dsimp only
      cases strategy.adaptHandlers (initialHandlers cfg) <;> rfl

/-- What an option does to the handlers is what the configuration does to them. -/
theorem newMachine_snapshot_handlers {cfg : Config} {snapshot : SnapshotConfig}
    (hsnapshot : { cfg with snapshot := snapshot }.hasSnapshot = true)
    (uuid cpuset memFilePath snapshotPath : String)
    (opts : List (SnapshotConfig → SnapshotConfig)) :
    (newMachine { cfg with snapshot := snapshot } uuid cpuset []).map (·.handlers) =
      (newMachine cfg uuid cpuset [.withSnapshot memFilePath snapshotPath opts]).map
        (·.handlers) := by
  have hconfig : (newMachine { cfg with snapshot := snapshot } uuid cpuset []).map (·.handlers) =
      cfg.jailHandlers (adaptHandlersForSnapshot (bootHandlers cfg)) := by
    have hnew := newWithClient_map_handlers { cfg with snapshot := snapshot } uuid cpuset
    rw [initialHandlers_eq, if_pos hsnapshot] at hnew
    rw [newMachine]
    cases hm : newWithClient { cfg with snapshot := snapshot } uuid cpuset <;>
      rw [hm] at hnew <;> exact hnew
  have hoption : (newMachine cfg uuid cpuset [.withSnapshot memFilePath snapshotPath opts]).map
      (·.handlers) = (cfg.jailHandlers (initialHandlers cfg)).map adaptHandlersForSnapshot := by
    rw [← newWithClient_map_handlers cfg uuid cpuset, newMachine]
    cases newWithClient cfg uuid cpuset <;> rfl
  rw [hconfig, hoption, Config.jailHandlers_comm, adaptHandlersForSnapshot_initialHandlers]

/-- **A pipeline that loads a snapshot**, whatever lists it is made from: adapting it again changes
nothing, of the names that are replaced one handler is left in either list, all other handlers
stand as they did, and jailing may come before or after. -/
theorem snapshot_pipeline (handlers : Handlers) :
    adaptHandlersForSnapshot (adaptHandlersForSnapshot handlers) =
        adaptHandlersForSnapshot handlers ∧
      ((adaptHandlersForSnapshot handlers).fcInit.filter
          fun handler => decide (handler.name = loadSnapshotHandlerName)) =
        [loadSnapshotHandler] ∧
      ((adaptHandlersForSnapshot handlers).validation.filter
          fun handler => decide (handler.name = validateLoadSnapshotCfgHandlerName)) =
        [loadSnapshotConfigValidationHandler] ∧
      (∀ handler ∈ (adaptHandlersForSnapshot handlers).fcInit,
        handler.name ∉ ["fcinit.SetupKernelArgs", "fcinit.CreateMachine",
          "fcinit.CreateBootSource", "fcinit.AttachDrives", "fcinit.CreateNetworkInterfaces",
          "fcinit.ConfigMmds"]) ∧
      (∀ handler ∈ (adaptHandlersForSnapshot handlers).validation,
        handler.name ≠ validateCfgHandlerName) ∧
      ((adaptHandlersForSnapshot handlers).fcInit.filter
          fun handler => decide (handler.name ∉ replacedInitNames)) =
        (handlers.fcInit.filter fun handler => decide (handler.name ∉ replacedInitNames)) ∧
      ((adaptHandlersForSnapshot handlers).validation.filter
          fun handler => decide (handler.name ∉ replacedValidationNames)) =
        (handlers.validation.filter
          fun handler => decide (handler.name ∉ replacedValidationNames)) ∧
      (∀ strategy : NaiveChrootStrategy,
        (strategy.adaptHandlers handlers).map adaptHandlersForSnapshot =
            strategy.adaptHandlers (adaptHandlersForSnapshot handlers) ∧
          ((∃ adapted, strategy.adaptHandlers handlers = .ok adapted) ↔
            ∃ adapted, strategy.adaptHandlers (adaptHandlersForSnapshot handlers) =
              .ok adapted)) ∧
      ∀ (cfg : Config) (snapshot : SnapshotConfig) (uuid cpuset memFilePath snapshotPath : String)
        (opts : List (SnapshotConfig → SnapshotConfig)),
        { cfg with snapshot := snapshot }.hasSnapshot = true →
          (newMachine { cfg with snapshot := snapshot } uuid cpuset []).map (·.handlers) =
            (newMachine cfg uuid cpuset [.withSnapshot memFilePath snapshotPath opts]).map
              (·.handlers) := by
  have hinit : (adaptHandlersForSnapshot handlers).fcInit =
      HandlerList.renew replacedInitNames loadSnapshotHandler handlers.fcInit := by
    rw [adaptHandlersForSnapshot_eq]
  have hvalidation : (adaptHandlersForSnapshot handlers).validation =
      HandlerList.renew replacedValidationNames loadSnapshotConfigValidationHandler
        handlers.validation := by
    rw [adaptHandlersForSnapshot_eq]
  have hload : loadSnapshotHandler.name ∈ replacedInitNames := by decide
  have hcheck : loadSnapshotConfigValidationHandler.name ∈ replacedValidationNames := by decide
  refine ⟨adaptHandlersForSnapshot_idem handlers, ?_, ?_, ?_, ?_, ?_, ?_, ?_, ?_⟩
  · rw [hinit]
    exact HandlerList.filter_name_renew hload _
  · rw [hvalidation]
    exact HandlerList.filter_name_renew hcheck _
  · intro handler hmem
    rw [hinit] at hmem
    rcases HandlerList.name_of_mem_renew hmem with rfl | hname
    · decide
    · rw [← bootOnlyHandlerNames_eq]
      exact fun hboot => hname (List.mem_append_left _ hboot)
  · intro handler hmem
    rw [hvalidation] at hmem
    rcases HandlerList.name_of_mem_renew hmem with rfl | hname
    · decide
    · exact fun hcfg => hname (hcfg ▸ by decide)
  · rw [hinit, HandlerList.filter_renew hload]
  · rw [hvalidation, HandlerList.filter_renew hcheck]
  · intro strategy
    have hcomm := adaptHandlers_comm strategy handlers
    refine ⟨hcomm, ?_⟩
    rw [← hcomm]
    cases strategy.adaptHandlers handlers with
    | error e => simp [Except.map]
    | ok adapted => simp [Except.map]
  · intro cfg snapshot uuid cpuset memFilePath snapshotPath opts hsnapshot
    exact newMachine_snapshot_handlers hsnapshot uuid cpuset memFilePath snapshotPath opts

/-- A jailed machine whose list was edited so that the log files are created twice. -/
theorem snapshot_pipeline_twice :
    ({ socketPath := "", snapshot := { snapshotPath := "/srv/snapshot" } } :
        Config).hasSnapshot = true ∧
      adaptHandlersForSnapshot
          { fcInit := [createLogFilesHandler, loadSnapshotHandler, createLogFilesHandler] } =
        { validation := [loadSnapshotConfigValidationHandler]
          fcInit := [createLogFilesHandler, createLogFilesHandler, loadSnapshotHandler] } ∧
      (newMachine { socketPath := "", snapshot := { snapshotPath := "/srv/snapshot" } }
          "vm" "" []).map (·.handlers) =
        (newMachine { socketPath := "" } "vm" "" [.withSnapshot "/srv/mem" "/srv/snapshot" []]).map
          (·.handlers) :=
  ⟨by decide, by decide,
    (snapshot_pipeline defaultHandlers).2.2.2.2.2.2.2.2 { socketPath := "" }
      { snapshotPath := "/srv/snapshot" } "vm" "" "/srv/mem" "/srv/snapshot" [] (by decide)⟩

end FirecrackerSdk
