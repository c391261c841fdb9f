import FirecrackerSdk.Lib.Keyed
import FirecrackerSdk.Machine.Pipelines

/-!
# Editing a list of handlers

A user edits the lists of a machine with the methods of `HandlerList`: handlers are put at an end or
behind those of a name, or take the place of those of their name, and names are removed. Options
edit them as well. Names may occur any number of times.

A sequence of such edits is an edit of the names that it mentions (`Keyed.Edit`). What it does to
the handlers of these names it does without regard to the others, and it leaves the others as they
stand (`FirecrackerSdk.HandlerEdit.run_frame`). Two sequences that mention different names commute
unless both leave something at the same end of the list
(`FirecrackerSdk.HandlerEdit.run_comm_iff`).

The option `with_snapshot` and the jail are two that the crate brings along. That the first appends
a handler is all that makes its place among the edits of the user matter
(`FirecrackerSdk.Handlers.edit_adapt_iff`).
-/

namespace FirecrackerSdk

namespace HandlerList

/-! ### The methods -/

/-- `HandlerList::prepend`. -/
def prepend (handlers list : List Handler) : List Handler := handlers ++ list

/-- `HandlerList::append`. -/
def append (handlers list : List Handler) : List Handler := list ++ handlers

/-- `HandlerList::swap`. -/
def swap (handler : Handler) (list : List Handler) : List Handler :=
  list.map fun existing => if existing.name = handler.name then handler else existing

/-- `HandlerList::swappend`. -/
def swappend (handler : Handler) (list : List Handler) : List Handler :=
  if has handler.name list then swap handler list else append [handler] list

/-- `HandlerList::clear`. -/
def clear (_ : List Handler) : List Handler := []

end HandlerList

/-- One edit. -/
inductive HandlerEdit where
  | prepend (handlers : List Handler)
  | append (handlers : List Handler)
  | appendAfter (afterName : String) (handler : Handler)
  | swap (handler : Handler)
  | swappend (handler : Handler)
  | remove (name : String)
  | clear

namespace HandlerEdit

/-- What it does. -/
def apply : HandlerEdit → List Handler → List Handler
  | prepend handlers => HandlerList.prepend handlers
  | append handlers => HandlerList.append handlers
  | appendAfter afterName handler => HandlerList.appendAfter afterName handler
  | swap handler => HandlerList.swap handler
  | swappend handler => HandlerList.swappend handler
  | remove name => HandlerList.remove name
  | clear => HandlerList.clear

/-- One edit after the other. -/
def run (edits : List HandlerEdit) (list : List Handler) : List Handler :=
  edits.foldl (fun list edit => edit.apply list) list

/-- **The names that an edit mentions.** All are cleared. -/
def mentions : HandlerEdit → String → Bool
  | prepend handlers, name => HandlerList.has name handlers
  | append handlers, name => HandlerList.has name handlers
  | appendAfter afterName handler, name => name == afterName || name == handler.name
  | swap handler, name => name == handler.name
  | swappend handler, name => name == handler.name
  | remove removed, name => name == removed
  | clear, _ => true

/-- The names that some edits mention. -/
def mentionsAny (edits : List HandlerEdit) (name : String) : Bool := edits.any (·.mentions name)

/-! ### Edits of names -/

theorem has_of_mem {handler : Handler} {list : List Handler} (h : handler ∈ list) :
    HandlerList.has handler.name list = true :=
  List.any_eq_true.mpr ⟨handler, h, beq_self_eq_true _⟩

/-- Putting handlers at the ends. -/
def atEnds {T : String → Bool} (front back : List Handler)
    (hfront : ∀ handler ∈ front, T handler.name = true)
    (hback : ∀ handler ∈ back, T handler.name = true) : Keyed.Edit Handler.name T :=
  .pointwise (fun existing => [existing]) (fun _ h _ hmem => List.mem_singleton.mp hmem ▸ h)
    (fun _ _ => rfl) front back hfront hback

/-- Something instead of the handlers of one name. -/
def atName {T : String → Bool} (name : String) (image : Handler → List Handler)
    (hname : T name = true)
    (himage : ∀ existing, T existing.name = true → ∀ handler ∈ image existing,
      T handler.name = true) : Keyed.Edit Handler.name T :=
  .pointwise (fun existing => if existing.name = name then image existing else [existing])
    (fun existing h handler hmem => by
      split at hmem
      · exact himage existing h handler hmem
      · exact List.mem_singleton.mp hmem ▸ h)
    (fun existing h => if_neg fun heq => by
      rw [heq, hname] at h
      cases h)
    [] [] nofun nofun

theorem run_atEnds {T : String → Bool} {front back : List Handler}
    {hfront : ∀ handler ∈ front, T handler.name = true}
    {hback : ∀ handler ∈ back, T handler.name = true} (list : List Handler) :
    (atEnds front back hfront hback).run list = front ++ list ++ back := by
  simp [Keyed.Edit.run, atEnds, Keyed.Edit.pointwise]

theorem run_atName {T : String → Bool} {name : String} {image : Handler → List Handler}
    {hname : T name = true}
    {himage : ∀ existing, T existing.name = true → ∀ handler ∈ image existing,
      T handler.name = true} (list : List Handler) :
    (atName name image hname himage).run list =
      list.flatMap fun existing => if existing.name = name then image existing else [existing] := by
  simp [Keyed.Edit.run, atName, Keyed.Edit.pointwise]

/-- Whether there is a handler of a name that is touched is seen on what is touched. -/
theorem has_touched {T : String → Bool} {name : String} (hname : T name = true)
    (list : List Handler) :
    HandlerList.has name (Keyed.touched Handler.name T list) = HandlerList.has name list := by
  rw [HandlerList.has, HandlerList.has, Keyed.touched, List.any_filter]
  congr 1
  funext handler
  by_cases heq : handler.name = name
  · rw [heq, hname, Bool.true_and]
  · simp [heq]

/-- **Every edit is an edit of the names that it mentions.** -/
def edit : (e : HandlerEdit) → Keyed.Edit Handler.name e.mentions
  | prepend handlers => atEnds handlers [] (fun _ h => has_of_mem h) nofun
  | append handlers => atEnds [] handlers nofun fun _ h => has_of_mem h
  | appendAfter afterName handler =>
    atName afterName (fun existing => [existing, handler]) (by simp [mentions])
      fun existing h _ hmem => by
        rcases List.mem_pair.mp hmem with rfl | rfl
        · exact h
        · simp [mentions]
  | swap handler =>
    atName handler.name (fun _ => [handler]) (by simp [mentions]) fun _ _ _ hmem => by
      rw [List.mem_singleton.mp hmem]
      simp [mentions]
  | swappend handler =>
    .choose (HandlerList.has handler.name)
      (fun list list' h => by
        have hname : mentions (swappend handler) handler.name = true := by simp [mentions]
        rw [← has_touched hname, h, has_touched hname])
      (atName handler.name (fun _ => [handler]) (by simp [mentions]) fun _ _ _ hmem => by
        rw [List.mem_singleton.mp hmem]
        simp [mentions])
      (atEnds [] [handler] nofun fun _ hmem => by
        rw [List.mem_singleton.mp hmem]
        simp [mentions])
  | remove name => atName name (fun _ => []) (by simp [mentions]) nofun
  | clear => .pointwise (fun _ => []) nofun nofun [] [] nofun nofun

theorem swap_eq_flatMap (handler : Handler) (list : List Handler) :
    HandlerList.swap handler list =
      list.flatMap fun existing =>
        if existing.name = handler.name then [handler] else [existing] := by
  induction list with
  | nil => rfl
  | cons existing list ih =>
    rw [HandlerList.swap, List.map_cons, List.flatMap_cons, ← ih]
    split <;> rfl

theorem remove_eq_flatMap (name : String) (list : List Handler) :
    HandlerList.remove name list =
      list.flatMap fun existing => if existing.name = name then [] else [existing] := by
  induction list with
  | nil => rfl
  | cons existing list ih =>
    rw [List.flatMap_cons, ← ih, HandlerList.remove]
    by_cases h : existing.name = name
    · rw [List.filter_cons_of_neg (by simp [h]), if_pos h]
      rfl
    · rw [List.filter_cons_of_pos (by simp [h]), if_neg h]
      rfl

theorem run_edit (e : HandlerEdit) (list : List Handler) : e.edit.run list = e.apply list := by
  cases e with
  | prepend handlers => exact (run_atEnds list).trans (List.append_nil _)
  | append handlers => exact run_atEnds list
  | appendAfter afterName handler =>
    rw [edit, run_atName]
    rfl
  | swap handler =>
    rw [edit, run_atName, ← swap_eq_flatMap]
    rfl
  | swappend handler =>
    rw [edit, Keyed.Edit.run_choose, run_atName, run_atEnds, ← swap_eq_flatMap]
    rfl
  | remove name =>
    rw [edit, run_atName, ← remove_eq_flatMap]
    rfl
  | clear => simp [Keyed.Edit.run, edit, Keyed.Edit.pointwise, apply, HandlerList.clear]

/-! ### Sequences of edits -/

/-- **Edits in sequence are an edit of the names that they mention.** -/
def program : (edits : List HandlerEdit) → Keyed.Edit Handler.name (mentionsAny edits)
  | [] => .skip _
  | e :: edits =>
    (e.edit.widen fun _ h => by simp [mentionsAny, h]).comp
      ((program edits).widen fun name h => by
        rw [mentionsAny, List.any_cons, Bool.or_eq_true]
        exact .inr h)

theorem run_program (edits : List HandlerEdit) (list : List Handler) :
    (program edits).run list = run edits list := by
  induction edits generalizing list with
  | nil => exact Keyed.Edit.run_skip list
  | cons e edits ih =>
    rw [program, Keyed.Edit.run_comp, Keyed.Edit.run_widen, Keyed.Edit.run_widen, run_edit, ih]
    rfl

/-- Handlers of other names neither come in nor go away. -/
theorem has_run {edits : List HandlerEdit} {name : String} (h : mentionsAny edits name = false)
    (list : List Handler) : HandlerList.has name (run edits list) = HandlerList.has name list := by
  have hother : ∀ list : List Handler,
      HandlerList.has name (Keyed.untouched Handler.name (mentionsAny edits) list) =
        HandlerList.has name list :=
    has_touched (T := fun name => !mentionsAny edits name) (by rw [h]; rfl)
  rw [← run_program, ← hother, (program edits).untouched_run, hother]

/-- What some edits leave before what was there. -/
def front (edits : List HandlerEdit) (list : List Handler) : List Handler :=
  (program edits).front list

/-- What some edits make of a handler that was there. -/
def image (edits : List HandlerEdit) (list : List Handler) (handler : Handler) : List Handler :=
  (program edits).image list handler

/-- What some edits leave behind what was there. -/
def back (edits : List HandlerEdit) (list : List Handler) : List Handler :=
  (program edits).back list

/-- The handlers of names that some edits mention. -/
def mentioned (edits : List HandlerEdit) (list : List Handler) : List Handler :=
  list.filter fun handler => mentionsAny edits handler.name

/-- The handlers of other names. -/
def others (edits : List HandlerEdit) (list : List Handler) : List Handler :=
  list.filter fun handler => !mentionsAny edits handler.name

/-- **Edits keep to the names that they mention.** The handlers of other names stay, in their order
and as often, each of them where it is; and the handlers of these names are edited as if there were
no others. -/
theorem run_frame (edits : List HandlerEdit) (list : List Handler) :
    others edits (run edits list) = others edits list ∧
    mentioned edits (run edits list) = run edits (mentioned edits list) ∧
    run edits list = front edits list ++ list.flatMap (image edits list) ++ back edits list ∧
    (∀ handler, mentionsAny edits handler.name = false → image edits list handler = [handler]) ∧
    ∀ handler ∈ front edits list ++ back edits list, mentionsAny edits handler.name = true := by
  refine ⟨?_, ?_, (run_program edits list).symm, (program edits).image_untouched list, ?_⟩
  · rw [← run_program]
    exact (program edits).untouched_run list
  · rw [← run_program, ← run_program]
    exact (program edits).run_touched list
  · intro handler hmem
    rcases List.mem_append.mp hmem with hmem | hmem
    · exact (program edits).front_touched list handler hmem
    · exact (program edits).back_touched list handler hmem

/-- **Edits that mention different names commute** on a list unless both leave something at the same
end of it. -/
theorem run_comm_iff (first second : List HandlerEdit)
    (h : ∀ name, mentionsAny first name = true → mentionsAny second name = false)
    (list : List Handler) :
    run second (run first list) = run first (run second list) ↔
      (front first list = [] ∨ front second list = []) ∧
        (back first list = [] ∨ back second list = []) := by
  rw [← run_program, ← run_program, ← run_program, ← run_program]
  exact Keyed.Edit.comm_iff h (program first) (program second) list

/-- Two handlers that are appended to a boot. -/
theorem run_comm_iff_appended :
    run [append [⟨"user.Warm", .user "warm"⟩]]
        (run [append [newSetMetadataHandler "x"]] defaultHandlers.fcInit) ≠
      run [append [newSetMetadataHandler "x"]]
        (run [append [⟨"user.Warm", .user "warm"⟩]] defaultHandlers.fcInit) := by
  refine mt (run_comm_iff [append [newSetMetadataHandler "x"]]
    [append [⟨"user.Warm", .user "warm"⟩]] (fun name h => ?_) _).mp (by decide)
  obtain rfl : newSetMetadataHandlerName = name := by
    simpa [mentionsAny, mentions, HandlerList.has, newSetMetadataHandler] using h
  decide

end HandlerEdit

/-! ### The edits of a snapshot and of a jail -/

namespace HandlerList

/-- **Edits of other names commute with an insertion.** -/
theorem run_appendAfter {edits : List HandlerEdit} {afterName : String} {handler : Handler}
    (hafter : HandlerEdit.mentionsAny edits afterName = false)
    (hhandler : HandlerEdit.mentionsAny edits handler.name = false) (list : List Handler) :
    appendAfter afterName handler (HandlerEdit.run edits list) =
      HandlerEdit.run edits (appendAfter afterName handler list) := by
  have happly : ∀ list, (HandlerEdit.appendAfter afterName handler).edit.run list =
      appendAfter afterName handler list := HandlerEdit.run_edit _
  have hother : ∀ name, (HandlerEdit.appendAfter afterName handler).mentions name = true →
      HandlerEdit.mentionsAny edits name = false := by
    intro name h
    rcases Bool.or_eq_true_iff.mp h with h | h
    · rw [beq_iff_eq.mp h, hafter]
    · rw [beq_iff_eq.mp h, hhandler]
  rw [← happly, ← happly, ← HandlerEdit.run_program, ← HandlerEdit.run_program, eq_comm,
    Keyed.Edit.comm_iff hother]
  exact ⟨.inl rfl, .inl rfl⟩

/-- Dropping names and appending a handler of such a name is an edit of these names. -/
def renewal (names : List String) (handler : Handler) (hname : handler.name ∈ names) :
    Keyed.Edit Handler.name fun name => decide (name ∈ names) :=
  .pointwise (fun existing => if existing.name ∈ names then [] else [existing])
    (fun existing h => by
      rw [if_pos (of_decide_eq_true h)]
      nofun)
    (fun existing h => if_neg (of_decide_eq_false h)) [] [handler] nofun
    fun _ hmem => decide_eq_true (List.mem_singleton.mp hmem ▸ hname)

theorem run_renewal {names : List String} {handler : Handler} (hname : handler.name ∈ names)
    (list : List Handler) : (renewal names handler hname).run list = renew names handler list := by
  have hfilter : list.flatMap (fun existing => if existing.name ∈ names then [] else [existing]) =
      list.filter fun existing => decide (existing.name ∉ names) := by
    induction list with
    | nil => rfl
    | cons existing list ih =>
      rw [List.flatMap_cons, ih]
      by_cases h : existing.name ∈ names
      · rw [List.filter_cons_of_neg (by simp [h]), if_pos h]
        rfl
      · rw [List.filter_cons_of_pos (by simp [h]), if_neg h]
        rfl
  exact congrArg (· ++ [handler]) hfilter

/-- **Edits of other names commute with it** unless they leave something at the end. -/
theorem run_renew_iff (edits : List HandlerEdit) {names : List String} {handler : Handler}
    (hname : handler.name ∈ names)
    (hother : ∀ name ∈ names, HandlerEdit.mentionsAny edits name = false) (list : List Handler) :
    renew names handler (HandlerEdit.run edits list) =
        HandlerEdit.run edits (renew names handler list) ↔
      HandlerEdit.back edits list = [] := by
  rw [← run_renewal hname, ← run_renewal hname, ← HandlerEdit.run_program,
    ← HandlerEdit.run_program, eq_comm,
    Keyed.Edit.comm_iff (fun name h => hother name (of_decide_eq_true h))]
  constructor
  · rintro ⟨-, hback | hback⟩
    · cases hback
    · exact hback
  · exact fun hback => ⟨.inl rfl, .inr hback⟩

end HandlerList

namespace Handlers

/-- The edits of a user, of either list. -/
def edit (validation fcInit : List HandlerEdit) (handlers : Handlers) : Handlers where
  validation := HandlerEdit.run validation handlers.validation
  fcInit := HandlerEdit.run fcInit handlers.fcInit

/-- **Where the edits of a user stand among those of the crate.** Edits that mention none of the
names that a snapshot replaces can be made before the handlers are adapted to it or after, with the
same result exactly if they leave nothing at the end of either list. Those that do not mention the
two names that the jail goes by can always be made before it or after. -/
theorem edit_adapt_iff (validation fcInit : List HandlerEdit) (handlers : Handlers) :
    ((∀ name ∈ replacedValidationNames, HandlerEdit.mentionsAny validation name = false) →
      (∀ name ∈ replacedInitNames, HandlerEdit.mentionsAny fcInit name = false) →
      (adaptHandlersForSnapshot (handlers.edit validation fcInit) =
          (adaptHandlersForSnapshot handlers).edit validation fcInit ↔
        HandlerEdit.back validation handlers.validation = [] ∧
          HandlerEdit.back fcInit handlers.fcInit = [])) ∧
    (HandlerEdit.mentionsAny fcInit createLogFilesHandlerName = false →
      HandlerEdit.mentionsAny fcInit linkFilesToRootfsHandlerName = false →
      ∀ strategy : NaiveChrootStrategy,
        strategy.adaptHandlers (handlers.edit validation fcInit) =
          (strategy.adaptHandlers handlers).map (edit validation fcInit)) := by
  constructor
  · intro hvalidation hinit
    rw [adaptHandlersForSnapshot_eq, adaptHandlersForSnapshot_eq, edit, edit, Handlers.mk.injEq,
      HandlerList.run_renew_iff validation (by decide) hvalidation,
      HandlerList.run_renew_iff fcInit (by decide) hinit]
  · intro hlog hlink strategy
    rw [NaiveChrootStrategy.adaptHandlers, NaiveChrootStrategy.adaptHandlers, edit]
    dsimp only
    rw [HandlerEdit.has_run hlog, HandlerList.run_appendAfter hlog hlink]
    split <;> rfl

/-- So metadata that a user sets last are set before the snapshot is loaded, or after. -/
example : HandlerEdit.back [.swappend (newSetMetadataHandler "x")] defaultHandlers.fcInit ≠ [] := by
  decide

end Handlers

end FirecrackerSdk
