import FirecrackerSdk.Lib.Retry
import FirecrackerSdk.Vsock.Dial

/-!
# Dialing and accepting again

`dial_with_config` and `accept_with_retry` repeat their call while it fails with an error that may
go away and the clock, which is looked at after such an error only, is before a deadline. The
deadline is fixed before the first call, by adding `retry_timeout` to the clock; an `Instant` counts
seconds in 64 bits with a sign, and the addition panics where the sum does not fit.

Both loops are that of `FirecrackerSdk.Lib.Retry`, so both return what comes of the first attempt
after which there is no other (`FirecrackerSdk.Vsock.retrying_iff`), if the deadline fits.
-/

namespace FirecrackerSdk

namespace Vsock

/-- What becomes of a call: it panics, or returns after so many attempts. -/
inductive Retried (α : Type) where
  | panicked
  | returned (attempts : ℕ) (result : Except NetError α)

/-- The nanoseconds from which on an `Instant` does not fit. -/
def instantLimit : ℕ := 2 ^ 63 * 10 ^ 9

/-- `Instant + Duration`. -/
def addDuration (instant duration : ℕ) : Option ℕ :=
  if instant + duration < instantLimit then some (instant + duration) else none

/-! ### The two loops -/

/-- The loop of `dial_with_config`; the clock after an attempt is the one that follows it. -/
def dialLoop (clock : ℕ → ℕ) (peers : ℕ → Peer) (port : ℕ) (config : DialConfig) (deadline : ℕ) :
    ℕ → ℕ → Option (Retried UnixStream)
  | 0, _ => none
  | fuel + 1, i =>
    match (tryConnect (peers i) port config []).1 with
    | .ok stream => some (.returned (i + 1) (.ok stream))
    | .err error =>
      if isTemporaryNetError (.io error) && clock (i + 1) < deadline then
        dialLoop clock peers port config deadline fuel (i + 1)
      else some (.returned (i + 1) (.error error))
    | .dropped => none

/-- `dial_with_config`. -/
def dialWithConfig (clock : ℕ → ℕ) (peers : ℕ → Peer) (port : ℕ) (config : DialConfig)
    (fuel : ℕ) : Option (Retried UnixStream) :=
  match addDuration (clock 0) config.retryTimeout with
  | none => some .panicked
  | some deadline => dialLoop clock peers port config deadline fuel 0

variable {α : Type}

/-- The loop of `accept_with_retry`. -/
def acceptLoop (clock : ℕ → ℕ) (acceptOnce : ℕ → Except NetError α) (deadline : ℕ) :
    ℕ → ℕ → Option (Retried α)
  | 0, _ => none
  | fuel + 1, i =>
    match acceptOnce i with
    | .ok stream => some (.returned (i + 1) (.ok stream))
    | .error error =>
      if isTemporaryNetError (.io error) && clock (i + 1) < deadline then
        acceptLoop clock acceptOnce deadline fuel (i + 1)
      else some (.returned (i + 1) (.error error))

/-- `accept_with_retry`. -/
def acceptWithRetry (clock : ℕ → ℕ) (acceptOnce : ℕ → Except NetError α) (config : DialConfig)
    (fuel : ℕ) : Option (Retried α) :=
  match addDuration (clock 0) config.retryTimeout with
  | none => some .panicked
  | some deadline => acceptLoop clock acceptOnce deadline fuel 0

/-! ### What they should do -/

/-- **An attempt after which there is no other**: it succeeds, or fails for good, or the clock after
it is at the deadline or past it. -/
def LastAttempt (clock : ℕ → ℕ) (deadline : ℕ) (attempt : ℕ → Except NetError α) (i : ℕ) : Prop :=
  match attempt i with
  | .ok _ => True
  | .error error => isTemporaryNetError (.io error) = false ∨ deadline ≤ clock (i + 1)

/-- **The first such attempt is returned**, and no other is made. -/
def ReturnsFirst (clock : ℕ → ℕ) (deadline : ℕ) (attempt : ℕ → Except NetError α)
    (run : ℕ → Option (Retried α)) : Prop :=
  ∀ result, (∃ fuel, run fuel = some result) ↔
    ∃ i, result = .returned (i + 1) (attempt i) ∧ LastAttempt clock deadline attempt i ∧
      ∀ j < i, ¬LastAttempt clock deadline attempt j

/-! ### Both loops are the same -/

/-- An error is worth another attempt, after the attempt with this number. -/
def tryAgain (clock : ℕ → ℕ) (deadline : ℕ) (i : ℕ) (error : NetError) : Bool :=
  isTemporaryNetError (.io error) && clock (i + 1) < deadline

theorem acceptLoop_eq (clock : ℕ → ℕ) (acceptOnce : ℕ → Except NetError α) (deadline fuel i : ℕ) :
    acceptLoop clock acceptOnce deadline fuel i =
      (Retry.run acceptOnce (tryAgain clock deadline) fuel i).map fun last =>
        .returned (last.1 + 1) last.2 := by
  induction fuel generalizing i with
  | zero => rfl
  | succ fuel ih =>
    rw [acceptLoop, Retry.run]
    cases acceptOnce i with
    | ok stream => rfl
    | error error =>
      dsimp only
      rw [ih, tryAgain]
      split <;> rfl

/-- What an attempt to dial gives. It always gives something. -/
def connectResult (peer : Peer) (port : ℕ) (config : DialConfig) : Except NetError UnixStream :=
  match (tryConnect peer port config []).1 with
  | .ok stream => .ok stream
  | .err error => .error error
  | .dropped => .error (.os .other "")

/-- Writing the message returns, whatever the peer does. -/
theorem tryConnWrite_returns (peer : Peer) (port : ℕ) (config : DialConfig) :
    ∃ result written, (tryConnWrite peer (Utf8.bytes (connectMessage port).toList)
      config.connectMsgTimeout).attempt [] = (.ok result, written) := by
  by_cases hfails : WriteFails peer port config
  · obtain ⟨error, written, herror⟩ := tryConnWrite_of_writeFails hfails
    exact ⟨_, _, herror⟩
  · obtain ⟨htimeout, hwrite⟩ := not_or.mp hfails
    exact ⟨_, _, tryConnWrite_of_ok (not_not.mp htimeout) (not_not.mp hwrite)⟩

theorem tryConnect_not_dropped (peer : Peer) (port : ℕ) (config : DialConfig) :
    (tryConnect peer port config []).1 ≠ .dropped := by
  intro h
  unfold tryConnect at h
  cases hconnect : peer.connect with
  | error error =>
    rw [hconnect] at h
    cases h
  | ok _ =>
    obtain ⟨result, written, hwrite⟩ := tryConnWrite_returns peer port config
    rw [hconnect, ofExcept_ok_bind, Prog.bind_of_ok hwrite] at h
    cases result with
    | error error => cases h
    | ok _ =>
      dsimp only at h
      cases hread : tryConnReadUntil peer newline config.ackMsgTimeout with
      | error error =>
        rw [hread] at h
        cases h
      | ok line =>
        rw [hread] at h
        dsimp only at h
        split at h <;> cases h

theorem tryConnect_fst (peer : Peer) (port : ℕ) (config : DialConfig) :
    (tryConnect peer port config []).1 = .ofExcept (connectResult peer port config) := by
  unfold connectResult
  cases hresult : (tryConnect peer port config []).1 with
  | ok stream => rfl
  | err error => rfl
  | dropped => exact absurd hresult (tryConnect_not_dropped peer port config)

theorem dialLoop_eq (clock : ℕ → ℕ) (peers : ℕ → Peer) (port : ℕ) (config : DialConfig)
    (deadline fuel i : ℕ) :
    dialLoop clock peers port config deadline fuel i =
      acceptLoop clock (fun i => connectResult (peers i) port config) deadline fuel i := by
  induction fuel generalizing i with
  | zero => rfl
  | succ fuel ih =>
    rw [dialLoop, acceptLoop, tryConnect_fst]
    cases connectResult (peers i) port config with
    | ok stream => rfl
    | error error =>
      dsimp only [Outcome.ofExcept]
      rw [ih]

theorem dialWithConfig_eq (clock : ℕ → ℕ) (peers : ℕ → Peer) (port : ℕ) (config : DialConfig)
    (fuel : ℕ) :
    dialWithConfig clock peers port config fuel =
      acceptWithRetry clock (fun i => connectResult (peers i) port config) config fuel := by
  unfold dialWithConfig acceptWithRetry
  cases addDuration (clock 0) config.retryTimeout with
  | none => rfl
  | some deadline => exact dialLoop_eq clock peers port config deadline fuel 0

theorem lastAttempt_iff {clock : ℕ → ℕ} {deadline : ℕ} {attempt : ℕ → Except NetError α} {i : ℕ} :
    LastAttempt clock deadline attempt i ↔ Retry.Final attempt (tryAgain clock deadline) i := by
  unfold LastAttempt Retry.Final tryAgain
  cases attempt i with
  | ok stream => simp
  | error error => simp [or_iff_not_imp_left]

/-- **The loop returns the first last attempt**, exactly if the deadline fits. -/
theorem returnsFirst_iff (clock : ℕ → ℕ) (acceptOnce : ℕ → Except NetError α)
    (config : DialConfig) :
    ReturnsFirst clock (clock 0 + config.retryTimeout) acceptOnce
        (acceptWithRetry clock acceptOnce config) ↔
      clock 0 + config.retryTimeout < instantLimit := by
  by_cases hfits : clock 0 + config.retryTimeout < instantLimit
  · refine iff_of_true ?_ hfits
    have hdeadline : addDuration (clock 0) config.retryTimeout =
        some (clock 0 + config.retryTimeout) := if_pos hfits
    have hrun : ∀ fuel, acceptWithRetry clock acceptOnce config fuel =
        (Retry.run acceptOnce (tryAgain clock (clock 0 + config.retryTimeout)) fuel 0).map
          fun last => .returned (last.1 + 1) last.2 := by
      intro fuel
      unfold acceptWithRetry
      rw [hdeadline]
      exact acceptLoop_eq clock acceptOnce _ fuel 0
    intro result
    simp only [hrun, Option.map_eq_some_iff, lastAttempt_iff]
    constructor
    · rintro ⟨fuel, ⟨i, r⟩, hlast, rfl⟩
      obtain ⟨rfl, hfinal, hbefore⟩ := Retry.exists_run_iff.mp ⟨fuel, hlast⟩
      exact ⟨i, rfl, hfinal, hbefore⟩
    · rintro ⟨i, rfl, hfinal, hbefore⟩
      obtain ⟨fuel, hlast⟩ := Retry.exists_run_iff.mpr ⟨rfl, hfinal, hbefore⟩
      exact ⟨fuel, _, hlast, rfl⟩
  · refine iff_of_false ?_ hfits
    intro hreturns
    -- whatever the attempts would give, none is made
    have hpanic : acceptWithRetry clock acceptOnce config 0 = some .panicked := by
      unfold acceptWithRetry addDuration
      rw [if_neg hfits]
    obtain ⟨i, hresult, -⟩ := (hreturns .panicked).mp ⟨0, hpanic⟩
    cases hresult

/-- **When dialing and accepting retry as they should**: they are the same loop, and return the
first attempt after which there is no other if the deadline fits into an `Instant`. -/
theorem retrying_iff (clock : ℕ → ℕ) (peers : ℕ → Peer) (port : ℕ) (config : DialConfig)
    (acceptOnce : ℕ → Except NetError α) :
    (∀ fuel, dialWithConfig clock peers port config fuel =
        acceptWithRetry clock (fun i => connectResult (peers i) port config) config fuel) ∧
      (ReturnsFirst clock (clock 0 + config.retryTimeout)
          (fun i => connectResult (peers i) port config)
          (dialWithConfig clock peers port config) ∧
        ReturnsFirst clock (clock 0 + config.retryTimeout) acceptOnce
          (acceptWithRetry clock acceptOnce config) ↔
        clock 0 + config.retryTimeout < instantLimit) := by
  refine ⟨dialWithConfig_eq clock peers port config, ?_⟩
  have hsame : dialWithConfig clock peers port config =
      acceptWithRetry clock (fun i => connectResult (peers i) port config) config :=
    funext (dialWithConfig_eq clock peers port config)
  rw [hsame, returnsFirst_iff, returnsFirst_iff, and_self]

/-- The greatest `Duration`. -/
def maxDuration : ℕ := 2 ^ 64 * 10 ^ 9 - 1

/-- **A timeout that is meant to be endless**: no attempt is made, of which the first would
succeed. -/
theorem endless_timeout_panics :
    (∀ fuel, dialWithConfig (fun _ => 0) (fun _ => proxySending [79, 75, 32, 49, 10]) 52
      { retryTimeout := maxDuration } fuel = some .panicked) ∧
      ∃ stream, connectResult (proxySending [79, 75, 32, 49, 10]) 52
        { retryTimeout := maxDuration } = .ok stream := by
  constructor
  · intro fuel
    have hoverflow : addDuration 0 maxDuration = none := if_neg (by decide)
    unfold dialWithConfig
    rw [hoverflow]
  · have hsmooth : Smooth (proxySending [79, 75, 32, 49, 10]) 52 { retryTimeout := maxDuration }
        [79, 75, 32, 49, 10] := ⟨rfl, rfl, rfl, rfl, rfl⟩
    have hack : Acknowledges [79, 75, 32, 49, 10] :=
      ⟨[79, 75, 32, 49], [], "OK 1".toList, rfl, by decide, by decide +kernel, by decide⟩
    rcases tryConnect_of_smooth hsmooth with ⟨-, line, rest, -, -, hok⟩ | ⟨hnot, -⟩
    · refine ⟨⟨rest.map .ok⟩, ?_⟩
      unfold connectResult
      rw [hok]
    · exact absurd hack hnot

end Vsock

end FirecrackerSdk
