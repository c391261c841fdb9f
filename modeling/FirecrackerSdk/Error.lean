import FirecrackerSdk.Lib.Text
import Mathlib.Algebra.Order.Ring.Int

/-!
# Errors, and how they are displayed, copied and joined

The error type of the crate with its `Display`, and the two functions of
`machine.rs` that rebuild errors: `FirecrackerSdk.Error.copy` (`copy_error`), which
the machine applies each time it reports a stored error again, and
`FirecrackerSdk.Error.join` (`join_errors`), which puts a cleanup failure behind the
error it accompanies.

A copy does not always display as its original – a JSON error comes back as a
process error – but it does for every other constructor
(`FirecrackerSdk.Error.display_copy`), and a copy of a copy always displays as the
copy (`FirecrackerSdk.Error.copy_copy_display`).
-/

namespace FirecrackerSdk

/-- `std::io::ErrorKind`: the kinds the crate looks at, and all others. -/
inductive ErrorKind where
  | notFound
  | wouldBlock
  | timedOut
  | other (code : ℕ)
  deriving DecidableEq

/-- `std::io::Error`: its kind, what it displays, and the operating system's number
when it has one. -/
structure IoError where
  kind : ErrorKind
  text : String
  rawOsError : Option ℤ := none
  deriving DecidableEq

/-- The error type of the crate. -/
inductive Error where
  | io (error : IoError)
  | json (text : String)
  | invalidConfig (message : String)
  | process (message : String)
  | api (status : ℕ) (body : String)
  | alreadyStarted
  deriving DecidableEq

namespace Error

/-- `Display for Error`. -/
def display : Error → String
  | .io error => "io error: " ++ error.text
  | .json text => "json error: " ++ text
  | .invalidConfig message => "invalid configuration: " ++ message
  | .process message => "process error: " ++ message
  | .api status body => "api error (status " ++ toString status ++ "): " ++ body
  | .alreadyStarted => "machine already started"

/-- `Machine::copy_error`. -/
def copy : Error → Error
  | .io error => .io { kind := error.kind, text := error.text }
  | .json text => .process text
  | .invalidConfig message => .invalidConfig message
  | .process message => .process message
  | .api status body => .api status body
  | .alreadyStarted => .alreadyStarted

/-- `Machine::join_errors`. -/
def join (primary : Error) : Option Error → Error
  | some secondary => .process (primary.display ++ "; cleanup error: " ++ secondary.display)
  | none => primary

/-- A copy displays as its original, JSON errors apart. -/
theorem display_copy {e : Error} (h : ∀ text, e ≠ .json text) : e.copy.display = e.display := by
  cases e with
  | json text => exact absurd rfl (h text)
  | _ => rfl

/-- A copy is never a JSON error, so copying it again changes nothing that is
displayed. -/
theorem copy_copy_display (e : Error) : e.copy.copy.display = e.copy.display := by
  refine display_copy fun text h => ?_
  cases e <;> exact absurd h (by simp [copy])

@[simp] theorem copy_process (message : String) : (process message).copy = process message := rfl

end Error

/-! ### Exit statuses -/

/-- `std::process::ExitStatus` on Unix: an exit code, or the signal that ended the
process. -/
inductive ExitStatus where
  | code (n : ℕ)
  | signal (n : ℕ) (coreDumped : Bool)
  deriving DecidableEq

namespace ExitStatus

/-- `ExitStatus::success`. -/
def success : ExitStatus → Bool
  | .code n => n == 0
  | .signal _ _ => false

/-- The names the standard library shows for the signals of Linux, from signal 1 on. -/
def signalNames : List String :=
  ["SIGHUP", "SIGINT", "SIGQUIT", "SIGILL", "SIGTRAP", "SIGABRT", "SIGBUS", "SIGFPE", "SIGKILL",
    "SIGUSR1", "SIGSEGV", "SIGUSR2", "SIGPIPE", "SIGALRM", "SIGTERM", "SIGSTKFLT", "SIGCHLD",
    "SIGCONT", "SIGSTOP", "SIGTSTP", "SIGTTIN", "SIGTTOU", "SIGURG", "SIGXCPU", "SIGXFSZ",
    "SIGVTALRM", "SIGPROF", "SIGWINCH", "SIGIO", "SIGPWR", "SIGSYS"]

/-- The name of a signal in parentheses, or nothing. -/
def signalString (n : ℕ) : String :=
  if n = 0 then ""
  else match signalNames[n - 1]? with
    | some name => " (" ++ name ++ ")"
    | none => ""

/-- `Display for ExitStatus`. -/
def display : ExitStatus → String
  | .code n => "exit status: " ++ toString n
  | .signal n core =>
    "signal: " ++ toString n ++ signalString n ++ if core then " (core dumped)" else ""

end ExitStatus

end FirecrackerSdk
