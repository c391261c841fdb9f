import FirecrackerSdk.BootLine
import FirecrackerSdk.Machine.Configure

/-!
# What the setup of the kernel arguments keeps

`setup_kernel_args` reads the boot line into a map, puts the IP configuration of the first interface
that has one under the key `ip`, and writes the map as the new line. The kernel takes a line as a
sequence, in which a key may come more than once; a map has one value for a key. So of the tokens
of each key the last one is kept (`FirecrackerSdk.KernelArgs.tokens_display_parse`), and every token
if no two have the same key.
-/

namespace FirecrackerSdk

/-- The key of a token of the boot line. -/
def tokenKey (token : List Char) : String := (KernelArgs.parsePair token).1

/-- The token of each key that stands last. -/
def lastTokens (line : List (List Char)) : List (List Char) := SortedMap.keepLast tokenKey line

namespace KernelArgs

/-- The entries that a line is read into are those of the last token of each key. -/
theorem entries_parse_perm (raw : String) :
    (parseKernelArgs raw).entries.Perm ((lastTokens (tokens raw)).map parsePair) := by
  rw [entries_parseKernelArgs, lastTokens]
  refine (SortedMap.insertAll_perm _).trans (.of_eq ?_)
  exact SortedMap.keepLast_map Prod.fst parsePair (tokens raw)

theorem mem_lastTokens {line : List (List Char)} {token : List Char}
    (h : token ∈ lastTokens line) : token ∈ line :=
  (SortedMap.keepLast_sublist tokenKey line).subset h

/-- The text of an entry that came from a token has that token. -/
theorem splitWhitespace_renderEntry_parsePair {raw : String} {token : List Char}
    (h : token ∈ tokens raw) :
    Text.splitWhitespace (renderEntry (parsePair token)).toList = [token] := by
  obtain ⟨hne, hspace⟩ := Text.of_mem_splitWhitespace h
  rw [renderEntry_parsePair]
  exact Text.splitWhitespace_eq_singleton hne hspace

/-- The tokens of a line whose entries came from tokens are these tokens. -/
theorem tokens_of_entries_perm {raw : String} {kept : List (List Char)}
    {entries : List (String × Option String)} (hkept : ∀ token ∈ kept, token ∈ tokens raw)
    (h : entries.Perm (kept.map parsePair)) :
    (entries.flatMap fun entry => Text.splitWhitespace (renderEntry entry).toList).Perm kept := by
  refine (h.flatMap_right _).trans (.of_eq ?_)
  rw [List.flatMap_map]
  refine (List.flatMap_congr fun token hmem => ?_).trans (List.flatMap_singleton' kept)
  exact splitWhitespace_renderEntry_parsePair (hkept token hmem)

/-- **A line that is read and written** has the last token of each key. -/
theorem tokens_display_parse (raw : String) :
    (tokens (parseKernelArgs raw).display).Perm (lastTokens (tokens raw)) := by
  rw [tokens_display]
  exact tokens_of_entries_perm (fun _ => mem_lastTokens) (entries_parse_perm raw)

/-- **With an entry put in between**, the tokens of its key give way to those of its text. -/
theorem tokens_display_insert (raw key : String) (value : Option String) :
    (tokens ((parseKernelArgs raw).insert key value).display).Perm
      (Text.splitWhitespace (renderEntry (key, value)).toList ++
        (lastTokens (tokens raw)).filter fun token => decide (tokenKey token ≠ key)) := by
  have hentries : ((parseKernelArgs raw).insert key value).entries.Perm
      ((key, value) ::
        ((lastTokens (tokens raw)).filter fun token =>
          decide (tokenKey token ≠ key)).map parsePair) := by
    rw [KernelArgs.insert, insertEntry_eq]
    refine (SortedMap.insert_perm (ordered_parseKernelArgs raw) key value).trans ?_
    refine (((entries_parse_perm raw).filter _).trans (.of_eq ?_)).cons _
    rw [List.filter_map]
    rfl
  rw [tokens_display]
  refine (hentries.flatMap_right _).trans ?_
  rw [List.flatMap_cons]
  have hkept : ∀ token ∈
      (lastTokens (tokens raw)).filter fun token => decide (tokenKey token ≠ key),
      token ∈ tokens raw := fun token hmem => mem_lastTokens (List.mem_of_mem_filter hmem)
  exact List.Perm.append_left _ (tokens_of_entries_perm hkept (.refl _))

end KernelArgs

theorem kernelArgsFor_of_none {cfg : Config}
    (h : cfg.networkInterfaces.staticIpInterface = none) :
    Machine.kernelArgsFor cfg = (parseKernelArgs cfg.kernelArgs).display := by
  unfold Machine.kernelArgsFor
  rw [h]

theorem kernelArgsFor_of_some {cfg : Config} {iface : NetworkInterface}
    (h : cfg.networkInterfaces.staticIpInterface = some iface) :
    ∃ ip, iface.staticConfiguration.bind (·.ipConfiguration) = some ip ∧
      Machine.kernelArgsFor cfg =
        ((parseKernelArgs cfg.kernelArgs).insert "ip" (some ip.ipBootParam)).display := by
  have hhas : iface.hasStaticIp = true := List.find?_some h
  obtain ⟨ip, hip⟩ := Option.isSome_iff_exists.mp hhas
  refine ⟨ip, hip, ?_⟩
  unfold Machine.kernelArgsFor
  rw [h]
  dsimp only
  rw [hip]

/-- **The setup of the kernel arguments keeps the last token of each key**, in some order. If an
interface has a static IP configuration, the tokens of the key `ip` give way to those of the text
that is made of it. All tokens are kept where no two have the same key, and the text is one token
where the configuration has no white space in it. -/
theorem setup_kernel_args_keeps_last {W : Type} (s : Sys W) :
    ∃ s', Machine.setupKernelArgs s = (.ok (), s') ∧
      (s.machine.cfg.networkInterfaces.staticIpInterface = none →
        (tokens s'.machine.cfg.kernelArgs).Perm (lastTokens (tokens s.machine.cfg.kernelArgs))) ∧
      (∀ iface, s.machine.cfg.networkInterfaces.staticIpInterface = some iface →
        ∃ ip, iface.staticConfiguration.bind (·.ipConfiguration) = some ip ∧
          (tokens s'.machine.cfg.kernelArgs).Perm
            (tokens ("ip=" ++ ip.ipBootParam) ++
              (lastTokens (tokens s.machine.cfg.kernelArgs)).filter
                fun token => decide (tokenKey token ≠ "ip")) ∧
          ((∀ c ∈ ip.ipBootParam.toList, Text.isWhitespace c = false) →
            tokens ("ip=" ++ ip.ipBootParam) = [("ip=" ++ ip.ipBootParam).toList])) ∧
      (((tokens s.machine.cfg.kernelArgs).map tokenKey).Nodup →
        lastTokens (tokens s.machine.cfg.kernelArgs) = tokens s.machine.cfg.kernelArgs) := by
  refine ⟨_, rfl, fun hnone => ?_, fun iface hiface => ?_, SortedMap.keepLast_of_nodup⟩
  · change (tokens (Machine.kernelArgsFor s.machine.cfg)).Perm _
    rw [kernelArgsFor_of_none hnone]
    exact KernelArgs.tokens_display_parse _
  · obtain ⟨ip, hip, hline⟩ := kernelArgsFor_of_some hiface
    refine ⟨ip, hip, ?_, fun hspace => ?_⟩
    · change (tokens (Machine.kernelArgsFor s.machine.cfg)).Perm _
      rw [hline]
      exact KernelArgs.tokens_display_insert _ "ip" (some ip.ipBootParam)
    · have hkey : ("ip=".toList.all fun c => !Text.isWhitespace c) = true := by decide
      refine Text.splitWhitespace_eq_singleton (by simp) fun c hc => ?_
      rw [String.toList_append] at hc
      rcases List.mem_append.mp hc with hc | hc
      · simpa using List.all_eq_true.mp hkey c hc
      · exact hspace c hc

/-- A line that asks for two consoles. -/
def twoConsoles : Sys Unit :=
  { sampleMachine with
    machine := { sampleMachine.machine with
      cfg := { sampleMachine.machine.cfg with kernelArgs := "console=ttyS0 console=tty1" } } }

/-- **A console is lost**: the line after the setup has one token less. -/
theorem console_lost :
    twoConsoles.machine.cfg.networkInterfaces.staticIpInterface = none ∧
      ¬(tokens (Machine.setupKernelArgs twoConsoles).2.machine.cfg.kernelArgs).Perm
        (tokens twoConsoles.machine.cfg.kernelArgs) := by
  refine ⟨rfl, fun hperm => ?_⟩
  have hlength := hperm.length_eq
  revert hlength
  decide +kernel

end FirecrackerSdk
