import Mathlib.Data.List.Nodup
import Mathlib.Logic.Function.Basic

/-!
# Hard links

What `link(2)` does to the entries of directories: `contents` says which file an entry holds. A
link needs a file at the one entry and nothing at the other, and what is held stays
(`Hardlink.linkAll_of_held`). A list of links of files that are there, to entries that hold
nothing, goes through exactly if the entries are different (`Hardlink.linkAll_isSome_iff`), and
then each of them holds its file (`Hardlink.linkAll_target`).

A path may lead nowhere, so the two ends of a link are optional.
-/

namespace Hardlink

variable {E F : Type} [DecidableEq E]

/-- A link to be made: where the file is, and where it is to be too. -/
structure Request (E : Type) where
  source : Option E
  target : Option E

/-- The file at the end of a path. -/
def fileAt (contents : E → Option F) (entry : Option E) : Option F := entry.bind contents

/-- **One link.** -/
def link (contents : E → Option F) (request : Request E) : Option (E → Option F) :=
  match fileAt contents request.source, request.target with
  | some file, some entry =>
    if (contents entry).isSome then none else some (Function.update contents entry (some file))
  | _, _ => none

/-- **Links one after the other**, up to one that fails. -/
def linkAll : (E → Option F) → List (Request E) → Option (E → Option F)
  | contents, [] => some contents
  | contents, request :: requests =>
    (link contents request).bind fun contents' => linkAll contents' requests

theorem link_eq_some {contents contents' : E → Option F} {request : Request E} :
    link contents request = some contents' ↔
      ∃ file entry, fileAt contents request.source = some file ∧ request.target = some entry ∧
        contents entry = none ∧ contents' = Function.update contents entry (some file) := by
  unfold link
  cases hfile : fileAt contents request.source with
  | none => simp
  | some file =>
    cases htarget : request.target with
    | none => simp
    | some entry =>
      cases hentry : contents entry with
      | none => simp [eq_comm, hentry]
      | some other => simp [hentry]

theorem linkAll_append (contents : E → Option F) (requests requests' : List (Request E)) :
    linkAll contents (requests ++ requests') =
      (linkAll contents requests).bind fun contents' => linkAll contents' requests' := by
  induction requests generalizing contents with
  | nil => rfl
  | cons request requests ih =>
    rw [List.cons_append, linkAll, linkAll, Option.bind_assoc]
    congr 1
    funext contents'
    exact ih contents'

theorem linkAll_cons_eq_some {contents contents' : E → Option F} {request : Request E}
    {requests : List (Request E)} :
    linkAll contents (request :: requests) = some contents' ↔
      ∃ contents₁, link contents request = some contents₁ ∧
        linkAll contents₁ requests = some contents' :=
  Option.bind_eq_some_iff

theorem linkAll_singleton (contents : E → Option F) (request : Request E) :
    linkAll contents [request] = link contents request :=
  Option.bind_fun_some _

/-- A link keeps what is held. -/
theorem link_of_held {contents contents' : E → Option F} {request : Request E}
    (h : link contents request = some contents') {entry : E} {file : F}
    (hentry : contents entry = some file) : contents' entry = some file := by
  obtain ⟨_, target, -, -, hempty, rfl⟩ := link_eq_some.mp h
  have hne : entry ≠ target := by
    rintro rfl
    cases hempty.symm.trans hentry
  rw [Function.update_of_ne hne, hentry]

/-- **Links keep what is held.** -/
theorem linkAll_of_held {contents contents' : E → Option F} {requests : List (Request E)}
    (h : linkAll contents requests = some contents') {entry : E} {file : F}
    (hentry : contents entry = some file) : contents' entry = some file := by
  induction requests generalizing contents with
  | nil =>
    obtain rfl := Option.some.inj h
    exact hentry
  | cons request requests ih =>
    obtain ⟨contents₁, hlink, hrest⟩ := linkAll_cons_eq_some.mp h
    exact ih hrest (link_of_held hlink hentry)

theorem linkAll_fileAt {contents contents' : E → Option F} {requests : List (Request E)}
    (h : linkAll contents requests = some contents') {entry : Option E} {file : F}
    (hentry : fileAt contents entry = some file) : fileAt contents' entry = some file := by
  obtain ⟨e, rfl, hheld⟩ := Option.bind_eq_some_iff.mp hentry
  exact linkAll_of_held h hheld

/-- **A target holds its file**, if the file was there. -/
theorem linkAll_target {contents contents' : E → Option F} {requests : List (Request E)}
    (h : linkAll contents requests = some contents') {request : Request E}
    (hrequest : request ∈ requests) {file : F}
    (hfile : fileAt contents request.source = some file) :
    fileAt contents' request.target = some file := by
  induction requests generalizing contents with
  | nil => cases hrequest
  | cons first requests ih =>
    obtain ⟨contents₁, hlink, hrest⟩ := linkAll_cons_eq_some.mp h
    rcases List.mem_cons.mp hrequest with rfl | hmem
    · obtain ⟨file', entry, hfile', htarget, -, rfl⟩ := link_eq_some.mp hlink
      obtain rfl := Option.some.inj (hfile.symm.trans hfile')
      rw [htarget]
      exact linkAll_of_held hrest (Function.update_self _ _ _)
    · exact ih hrest hmem (linkAll_fileAt ((linkAll_singleton _ _).trans hlink) hfile)

/-- **When links go through**: if their targets are different, where the files are there and the
targets hold nothing. -/
theorem linkAll_isSome_iff {contents : E → Option F} {requests : List (Request E)}
    (hsources : ∀ request ∈ requests, (fileAt contents request.source).isSome = true)
    (htargets : ∀ request ∈ requests, ∃ entry, request.target = some entry ∧
      contents entry = none) :
    (linkAll contents requests).isSome = true ↔ (requests.map (·.target)).Nodup := by
  induction requests generalizing contents with
  | nil => simp [linkAll]
  | cons first requests ih =>
    obtain ⟨file, hfile⟩ := Option.isSome_iff_exists.mp (hsources first List.mem_cons_self)
    obtain ⟨entry, htarget, hempty⟩ := htargets first List.mem_cons_self
    have hlink : link contents first = some (Function.update contents entry (some file)) :=
      link_eq_some.mpr ⟨file, entry, hfile, htarget, hempty, rfl⟩
    have hkeep : ∀ request ∈ requests,
        (fileAt (Function.update contents entry (some file)) request.source).isSome = true := by
      intro request hrequest
      obtain ⟨file', hfile'⟩ :=
        Option.isSome_iff_exists.mp (hsources request (List.mem_cons_of_mem _ hrequest))
      rw [linkAll_fileAt ((linkAll_singleton _ _).trans hlink) hfile']
      rfl
    rw [linkAll, hlink, Option.bind_some, List.map_cons, List.nodup_cons]
    by_cases hclash : first.target ∈ requests.map (·.target)
    · -- the second link to the entry finds it taken
      refine iff_of_false ?_ fun h => h.1 hclash
      rw [Bool.not_eq_true, Option.isSome_eq_false_iff, Option.isNone_iff_eq_none]
      obtain ⟨again, hagain, hsame⟩ := List.mem_map.mp hclash
      rw [Option.eq_none_iff_forall_ne_some]
      intro contents' hall
      obtain ⟨before, after, rfl⟩ := List.append_of_mem hagain
      rw [linkAll_append] at hall
      obtain ⟨contents₁, hbefore, hafter⟩ := Option.bind_eq_some_iff.mp hall
      obtain ⟨contents₂, hlink', -⟩ := linkAll_cons_eq_some.mp hafter
      obtain ⟨_, entry', -, htarget', hempty', -⟩ := link_eq_some.mp hlink'
      obtain rfl : entry = entry' :=
        Option.some.inj (htarget.symm.trans (hsame.symm.trans htarget'))
      have htaken : contents₁ entry = some file :=
        linkAll_of_held hbefore (Function.update_self _ _ _)
      cases hempty'.symm.trans htaken
    · rw [ih hkeep, and_iff_right hclash]
      intro request hrequest
      obtain ⟨entry', htarget', hempty'⟩ := htargets request (List.mem_cons_of_mem _ hrequest)
      have hne : entry' ≠ entry := by
        rintro rfl
        exact hclash (List.mem_map.mpr ⟨request, hrequest, htarget'.trans htarget.symm⟩)
      exact ⟨entry', htarget', by rw [Function.update_of_ne hne, hempty']⟩

end Hardlink
