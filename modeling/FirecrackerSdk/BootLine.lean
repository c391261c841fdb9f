import Mathlib.Data.String.Basic
import FirecrackerSdk.Lib.SortedMap
import FirecrackerSdk.KernelArgs

/-!
# Reading back a boot line

`Display for KernelArgs` writes a map of kernel arguments as one line, and `parse_kernel_args`
reads a line into a map. The line is read token by token, so the two stages are kept apart: the
tokens of the line that is written (`FirecrackerSdk.KernelArgs.tokens_display`), and one token
against one entry. A token is the text of exactly one entry
(`FirecrackerSdk.KernelArgs.renderEntry_parsePair`), but an entry is read back from its text
only if it is plain (`FirecrackerSdk.KernelArgs.PlainEntry`): a key with white space or an equals
sign in it, a value with white space, or an empty key without a value come back as something else
or not at all.
-/

namespace FirecrackerSdk

/-- The tokens of a boot line. -/
def tokens (raw : String) : List (List Char) := Text.splitWhitespace raw.toList

namespace KernelArgs

/-! ### The map -/

/-- **The invariant of the map**: its entries stand in the increasing order of their keys. -/
def Ordered (args : KernelArgs) : Prop := SortedMap.Sorted args.entries

theorem insertEntry_eq (key : String) (value : Option String)
    (entries : List (String × Option String)) :
    insertEntry key value entries = SortedMap.insert key value entries := by
  induction entries with
  | nil => rfl
  | cons entry rest ih => rw [insertEntry, SortedMap.insert, ih]

/-- What a line is read into is the map of its tokens. -/
theorem entries_parseKernelArgs (raw : String) :
    (parseKernelArgs raw).entries = SortedMap.insertAll ((tokens raw).map parsePair) := by
  rw [parseKernelArgs, SortedMap.insertAll, List.foldl_map, tokens]
  -- the two folds go over the same tokens, and one keeps the entries of the other
  refine (List.foldl_hom (fun args : KernelArgs => args.entries) fun args pair => ?_).symm
  exact (insertEntry_eq _ _ _).symm

theorem ordered_parseKernelArgs (raw : String) : (parseKernelArgs raw).Ordered := by
  rw [Ordered, entries_parseKernelArgs]
  exact SortedMap.sorted_insertAll _

/-! ### One token and one entry -/

/-- An entry that its text gives back. -/
structure PlainEntry (entry : String × Option String) : Prop where
  key : ∀ c ∈ entry.1.toList, Text.isWhitespace c = false ∧ c ≠ '='
  value : ∀ value, entry.2 = some value → ∀ c ∈ value.toList, Text.isWhitespace c = false
  some : ¬(entry.1 = "" ∧ entry.2 = none)

theorem toList_renderEntry_some (key value : String) :
    (renderEntry (key, some value)).toList = key.toList ++ '=' :: value.toList := by
  simp [renderEntry]

/-- **The text of the entry of a token is the token.** -/
theorem renderEntry_parsePair (token : List Char) :
    (renderEntry (parsePair token)).toList = token := by
  unfold parsePair
  rcases Text.splitOnce_cases '=' token with ⟨-, hsplit⟩ | ⟨before, after, -, rfl, hsplit⟩
  · rw [hsplit]
    simp [renderEntry]
  · rw [hsplit]
    simp [toList_renderEntry_some]

theorem PlainEntry.parsePair_renderEntry {entry : String × Option String} (h : PlainEntry entry) :
    parsePair (renderEntry entry).toList = entry := by
  have hkey : '=' ∉ entry.1.toList := fun hmem => (h.key '=' hmem).2 rfl
  obtain ⟨key, value | value⟩ := entry
  · unfold parsePair
    dsimp only [renderEntry]
    rw [Text.splitOnce_eq_none hkey]
    simp
  · unfold parsePair
    rw [toList_renderEntry_some, Text.splitOnce_append_cons hkey]
    simp

/-- The text of a plain entry is one token. -/
theorem PlainEntry.splitWhitespace {entry : String × Option String} (h : PlainEntry entry) :
    Text.splitWhitespace (renderEntry entry).toList = [(renderEntry entry).toList] := by
  obtain ⟨key, value | value⟩ := entry
  · refine Text.splitWhitespace_eq_singleton (fun hnil => h.some ⟨?_, rfl⟩)
      fun c hc => (h.key c hc).1
    exact String.toList_eq_nil_iff.mp hnil
  · rw [toList_renderEntry_some]
    refine Text.splitWhitespace_eq_singleton (by simp) fun c hc => ?_
    rcases List.mem_append.mp hc with hc | hc
    · exact (h.key c hc).1
    · rcases List.mem_cons.mp hc with rfl | hc
      · decide
      · exact h.value value rfl c hc

/-- **The entry of a token is plain.** -/
theorem plainEntry_parsePair {token : List Char} (hne : token ≠ [])
    (h : ∀ c ∈ token, Text.isWhitespace c = false) : PlainEntry (parsePair token) := by
  unfold parsePair
  rcases Text.splitOnce_cases '=' token with ⟨hkey, hsplit⟩ | ⟨before, after, hkey, rfl, hsplit⟩
  · rw [hsplit]
    refine ⟨fun c hc => ?_, fun value hvalue => by simp at hvalue, fun hempty => ?_⟩
    · rw [String.toList_ofList] at hc
      refine ⟨h c hc, ?_⟩
      rintro rfl
      exact hkey hc
    · have hnil := congrArg String.toList hempty.1
      rw [String.toList_ofList] at hnil
      exact hne hnil
  · rw [hsplit]
    refine ⟨fun c hc => ?_, fun value hvalue c hc => ?_, fun hempty => by simp at hempty⟩
    · rw [String.toList_ofList] at hc
      refine ⟨h c (List.mem_append_left _ hc), ?_⟩
      rintro rfl
      exact hkey hc
    · rw [← Option.some.inj hvalue, String.toList_ofList] at hc
      exact h c (List.mem_append_right _ (List.mem_cons_of_mem _ hc))

/-! ### The line -/

theorem toList_display (args : KernelArgs) :
    args.display.toList =
      [' '].intercalate (args.entries.map fun entry => (renderEntry entry).toList) := by
  rw [display, String.toList_intercalate, List.map_map]
  rfl

/-- **The tokens of the line that is written** are the tokens of the texts of its entries. -/
theorem tokens_display (args : KernelArgs) :
    tokens args.display =
      args.entries.flatMap fun entry => Text.splitWhitespace (renderEntry entry).toList := by
  rw [tokens, toList_display, Text.splitWhitespace_intercalate (by decide), List.flatMap_map]

/-- No key has white space or an equals sign in it, no value has white space in it, and the empty
key is not there without a value. -/
def Plain (args : KernelArgs) : Prop := ∀ entry ∈ args.entries, PlainEntry entry

theorem Plain.tokens_display {args : KernelArgs} (h : args.Plain) :
    tokens args.display = args.entries.map fun entry => (renderEntry entry).toList := by
  rw [KernelArgs.tokens_display, List.map_eq_flatMap]
  exact List.flatMap_congr fun entry hmem => (h entry hmem).splitWhitespace

theorem plain_parseKernelArgs (raw : String) : (parseKernelArgs raw).Plain := by
  intro entry hmem
  rw [entries_parseKernelArgs] at hmem
  obtain ⟨token, htoken, rfl⟩ := List.mem_map.mp (SortedMap.mem_insertAll hmem)
  obtain ⟨hne, hspace⟩ := Text.of_mem_splitWhitespace htoken
  exact plainEntry_parsePair hne hspace

theorem Plain.parse_display {args : KernelArgs} (h : args.Plain) (hordered : args.Ordered) :
    parseKernelArgs args.display = args := by
  have hentries : (tokens args.display).map parsePair = args.entries := by
    rw [h.tokens_display, List.map_map]
    refine (List.map_congr_left fun entry hmem => ?_).trans (List.map_id _)
    exact (h entry hmem).parsePair_renderEntry
  have hmap : (parseKernelArgs args.display).entries = args.entries := by
    rw [entries_parseKernelArgs, hentries, SortedMap.insertAll_of_sorted hordered]
  cases args
  exact congrArg KernelArgs.mk hmap

end KernelArgs

/-- **Kernel arguments round-trip**: a map is read back from its line if and only if it is plain,
and what is read from a line always is. -/
theorem kernel_args_round_trip :
    (∀ args : KernelArgs, args.Ordered →
        (parseKernelArgs args.display = args ↔ args.Plain)) ∧
      ∀ raw : String, (parseKernelArgs raw).Ordered ∧ (parseKernelArgs raw).Plain ∧
        parseKernelArgs (parseKernelArgs raw).display = parseKernelArgs raw := by
  refine ⟨fun args hordered => ⟨fun heq => ?_, fun h => h.parse_display hordered⟩, fun raw => ?_⟩
  · rw [← heq]
    exact KernelArgs.plain_parseKernelArgs _
  · have hplain := KernelArgs.plain_parseKernelArgs raw
    have hordered := KernelArgs.ordered_parseKernelArgs raw
    exact ⟨hordered, hplain, hplain.parse_display hordered⟩

/-- A map with an empty value, and a value with equals signs in it. -/
def silly : KernelArgs where
  entries := [("doo", some "a=silly=val"), ("huh", some ""), ("ro", none)]

theorem kernel_args_round_trip_silly :
    silly.Ordered ∧ silly.display = "doo=a=silly=val huh= ro" ∧ silly.Plain := by
  have hordered : silly.Ordered := by
    unfold KernelArgs.Ordered SortedMap.Sorted silly
    decide
  exact ⟨hordered, by decide +kernel,
    (kernel_args_round_trip.1 silly hordered).mp (by decide +kernel)⟩

end FirecrackerSdk
