import FirecrackerSdk.Machine.Keeping

/-!
# Children that get lost

A child that `start_vmm` has spawned is held in `process` until it has been reaped, and the
live registration names it – unless it gets out of sight. That happens in two ways. `start` is
guarded by `started`, but `start_vmm` is not: called by the user, or run as a handler once
more, it overwrites `process`, and does not even register the new child, because the old
registration is still there. And `wait_for_process_exit` takes the child out of
`process` before it waits, so that a wait which fails, or is dropped, leaves it behind.

These are the only two ways (`FirecrackerSdk.none_lost_iff`).
-/

namespace FirecrackerSdk

variable {W : Type} (env : Env W)

/-- **No child is lost**: each process that the machine has spawned is the one in `process`,
or it has exited and has been reaped; and a live registration names the child in `process`. -/
structure NoneLost (s : Sys (Recorded W)) : Prop where
  accounted : ∀ (i : ℕ) (p : Proc), s.procs[i]? = some p →
    (∃ c, s.machine.process = some c ∧ c.uid = i) ∨ p.exit.isSome = true ∧ p.reaped = true
  registered : ∀ r ∈ (Custody.run s.world.log).live,
    ∃ c, s.machine.process = some c ∧ r.pid = c.pid

/-- A machine that has left nothing half done has lost no child exactly if none has got out
of sight. -/
theorem Held.noneLost_iff {s : Sys (Recorded W)} (h : Held s.view) :
    NoneLost s ↔ Careful s.world.log = true := by
  obtain ⟨ht, hr⟩ := h
  constructor
  · intro hnone
    by_contra hcareful
    obtain ⟨i, p, hp, hreaped, hgone⟩ := ht.lost (Bool.eq_false_iff.mpr hcareful)
    rcases hnone.accounted i p hp with ⟨c, hc, huid⟩ | ⟨-, hreaped'⟩
    · exact hgone c hc huid
    · rw [hreaped] at hreaped'
      cases hreaped'
  · intro hcareful
    refine ⟨fun i p hp => ?_, fun r hmem => ?_⟩
    · cases hreaped : p.reaped with
      | false => exact .inl (ht.kept hcareful i p hp hreaped)
      | true => exact .inr ⟨ht.ended i p hp hreaped, rfl⟩
    · -- the process that the registration names has not been reaped, so it is the child
      obtain ⟨p, hp, hpid⟩ := ht.named r hmem
      obtain ⟨c, hc, huid⟩ := ht.kept hcareful r.uid p hp (hr.unreaped r hmem p hp)
      obtain ⟨-, p', hp', hpid', -⟩ := ht.child c hc
      rw [huid] at hp'
      obtain rfl := Option.some.inj (hp.symm.trans hp')
      exact ⟨c, hc, hpid.symm.trans hpid'⟩

/-- **When no child of a machine is lost.** For every machine, every world and every sequence
of calls, whatever the world answers: every process that the machine has spawned is the one
in `process` or has exited and been reaped, and the live registration names the one in
`process`, if and only if no process was spawned while an earlier one had not been reaped, and no
wait for a child failed or was dropped. -/
theorem none_lost_iff (b : Blueprint) (clock : ℕ) (w : W) (calls : List Call) :
    NoneLost (runCalls env.recording calls (b.initial clock { base := w })) ↔
      Careful (runCalls env.recording calls (b.initial clock { base := w })).world.log = true :=
  (runCalls_keeps env calls _ (held_initial b clock w)).noneLost_iff

/-- A world in which nothing goes wrong and each process gets an id of its own. -/
def hatching : Env ℕ where
  answer query n :=
    match query with
    | .spawn _ => (.ok (100 + n), n + 1)
    | query => (query.smooth, n)

/-- A machine on which `start_vmm` was called twice. -/
def relaunched : Sys (Recorded ℕ) :=
  runCalls hatching.recording [.startVmm, .startVmm]
    ((plainBlueprint { socketPath := "/run/fc.sock" } "vm").initial 0 { base := 0 })

/-- The first child runs on and nothing holds it any more; the registration names it, and
the second child has none. -/
theorem second_start_vmm_loses_child :
    relaunched.procs = [{ pid := 100 }, { pid := 101 }] ∧
      relaunched.machine.process = some { uid := 1, pid := 101 } ∧
      (Custody.run relaunched.world.log).live.map (·.pid) = [100] ∧ ¬NoneLost relaunched := by
  have hprocs : relaunched.procs = [{ pid := 100 }, { pid := 101 }] := by decide +kernel
  have hprocess : relaunched.machine.process = some { uid := 1, pid := 101 } := by decide +kernel
  refine ⟨hprocs, hprocess, by decide +kernel, fun h => ?_⟩
  rcases h.accounted 0 { pid := 100 } (by rw [hprocs]; rfl) with ⟨c, hc, huid⟩ | ⟨hexit, -⟩
  · rw [hprocess] at hc
    obtain rfl := Option.some.inj hc
    cases huid
  · cases hexit

end FirecrackerSdk
