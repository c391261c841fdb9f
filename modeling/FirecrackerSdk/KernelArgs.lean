import FirecrackerSdk.Lib.Text

/-!
# Kernel arguments

`kernelargs.rs`: the boot line as a sorted map from keys to optional values. The
`BTreeMap` is an association list kept sorted by key; `str` orders by bytes, which
on UTF-8 is the order by code points that Lean's strings have.
-/

namespace FirecrackerSdk

/-- `KernelArgs`: the entries of the map in the order of their keys. -/
structure KernelArgs where
  entries : List (String × Option String) := []
  deriving DecidableEq

namespace KernelArgs

/-- Insert an entry into a sorted association list, replacing the entry of the same
key. -/
def insertEntry (key : String) (value : Option String) :
    List (String × Option String) → List (String × Option String)
  | [] => [(key, value)]
  | entry :: rest =>
    if key < entry.1 then (key, value) :: entry :: rest
    else if key = entry.1 then (key, value) :: rest
    else entry :: insertEntry key value rest

/-- `BTreeMap::insert`. -/
def insert (args : KernelArgs) (key : String) (value : Option String) : KernelArgs :=
  ⟨insertEntry key value args.entries⟩

/-- `BTreeMap::contains_key`. -/
def containsKey (args : KernelArgs) (key : String) : Bool :=
  args.entries.any fun entry => entry.1 == key

theorem insertEntry_perm {key : String} (value : Option String)
    {entries : List (String × Option String)} (h : ∀ entry ∈ entries, entry.1 ≠ key) :
    (insertEntry key value entries).Perm ((key, value) :: entries) := by
  induction entries with
  | nil => exact .refl _
  | cons entry rest ih =>
    obtain ⟨hne, hrest⟩ := List.forall_mem_cons.mp h
    rw [insertEntry, if_neg (Ne.symm hne)]
    split
    · exact .refl _
    · exact ((ih hrest).cons entry).trans (.swap _ _ _)

/-- **An entry with a new key is added** to the others, which stay as they are. -/
theorem insert_perm {args : KernelArgs} {key : String} (h : args.containsKey key = false)
    (value : Option String) :
    (args.insert key value).entries.Perm ((key, value) :: args.entries) := by
  refine insertEntry_perm value fun entry hentry heq => ?_
  have hfound := List.any_eq_false.mp h entry hentry
  exact hfound (beq_iff_eq.mpr heq)

/-- One entry of the boot line. -/
def renderEntry : String × Option String → String
  | (key, some value) => key ++ "=" ++ value
  | (key, none) => key

/-- `Display for KernelArgs`. -/
def display (args : KernelArgs) : String := " ".intercalate (args.entries.map renderEntry)

/-- One token of the boot line: its key, and what follows its first `=` sign. -/
def parsePair (pair : List Char) : String × Option String :=
  match Text.splitOnce '=' pair with
  | some (key, value) => (String.ofList key, some (String.ofList value))
  | none => (String.ofList pair, none)

end KernelArgs

/-- `parse_kernel_args`. -/
def parseKernelArgs (raw : String) : KernelArgs :=
  (Text.splitWhitespace raw.toList).foldl
    (fun parsed pair =>
      let entry := KernelArgs.parsePair pair
      parsed.insert entry.1 entry.2)
    {}

example : (parseKernelArgs " ro  console=ttyS0 ro=1 ").display = "console=ttyS0 ro=1" := by decide

end FirecrackerSdk
