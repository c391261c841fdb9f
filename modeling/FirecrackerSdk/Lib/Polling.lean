import Mathlib.Data.Nat.Find
import Mathlib.Order.Monotone.Basic

/-!
# Polling

A service is asked until it answers or a time is over, with a pause after each question that it
refuses. Both depend on the time: whether it answers, and how long each question and each pause
lasts (`Polling`).

The loop ends, since every pause takes time. It ends in one of two ways (`Polling.run_cases`): with
the first question that is answered, if that is asked in time, and otherwise at the first time to
ask that is too late. A service that answers from some time on is found if it does so early enough
(`Polling.run_of_up`).
-/

/-- **A service and its poller**: what is answered at a time, how long it takes to get the answer,
and how long the pause is that begins at a time. -/
structure Polling (ε α : Type) where
  answer : ℕ → Except ε α
  lasts : ℕ → ℕ
  pause : ℕ → ℕ
  pause_pos : ∀ t, 0 < pause t

namespace Polling

variable {ε α : Type} (p : Polling ε α)

/-- When the next question is asked, if the one that is asked at this time is refused. -/
def next (t : ℕ) : ℕ := t + p.lasts t + p.pause (t + p.lasts t)

theorem lt_next (t : ℕ) : t < p.next t := by
  have hpause := p.pause_pos (t + p.lasts t)
  rw [next]
  omega

/-- **The loop**, with the last refusal: what comes of it, and when. -/
def run (limit now : ℕ) (last : Option ε) : Except (Option ε) α × ℕ :=
  if now < limit then
    match p.answer now with
    | .ok a => (.ok a, now + p.lasts now)
    | .error e => run limit (p.next now) (some e)
  else (.error last, now)
termination_by limit - now
decreasing_by
  have hlater := p.lt_next now
  omega

/-- When a question is asked, if all before it are refused. -/
def asked : ℕ → ℕ
  | 0 => 0
  | i + 1 => p.next (asked i)

/-- The refusal before a question. -/
def lastRefusal : ℕ → Option ε
  | 0 => none
  | i + 1 =>
    match p.answer (p.asked i) with
    | .ok _ => none
    | .error e => some e

/-- **Every question before this one is asked in time, and refused.** -/
def Reaches (limit i : ℕ) : Prop :=
  ∀ j < i, p.asked j < limit ∧ ∃ e, p.answer (p.asked j) = .error e

variable {p} {limit : ℕ}

theorem run_of_refused {now : ℕ} {e : ε} {last : Option ε} (hnow : now < limit)
    (h : p.answer now = .error e) : p.run limit now last = p.run limit (p.next now) (some e) := by
  rw [run, if_pos hnow, h]

theorem run_of_answered {now : ℕ} {a : α} {last : Option ε} (hnow : now < limit)
    (h : p.answer now = .ok a) : p.run limit now last = (.ok a, now + p.lasts now) := by
  rw [run, if_pos hnow, h]

theorem run_of_late {now : ℕ} {last : Option ε} (hnow : limit ≤ now) :
    p.run limit now last = (.error last, now) := by
  rw [run, if_neg (Nat.not_lt.mpr hnow)]

/-- The loop gets to every question that it reaches. -/
theorem run_eq_of_reaches {i : ℕ} (h : p.Reaches limit i) :
    p.run limit 0 none = p.run limit (p.asked i) (p.lastRefusal i) := by
  induction i with
  | zero => rfl
  | succ i ih =>
    obtain ⟨hnow, e, he⟩ := h i (Nat.lt_succ_self i)
    rw [ih fun j hj => h j (Nat.lt_succ_of_lt hj), run_of_refused hnow he, asked, lastRefusal, he]

/-! ### How it ends -/

/-- The questions are as far apart as the pauses are long. -/
theorem asked_add_le {q : ℕ} (hpause : ∀ t, q ≤ p.pause t) (i : ℕ) :
    p.asked i + q ≤ p.asked (i + 1) := by
  have hq := hpause (p.asked i + p.lasts (p.asked i))
  rw [asked, next]
  omega

theorem mul_le_asked {q : ℕ} (hpause : ∀ t, q ≤ p.pause t) (i : ℕ) : i * q ≤ p.asked i := by
  induction i with
  | zero =>
    rw [Nat.zero_mul]
    exact Nat.zero_le _
  | succ i ih =>
    rw [Nat.succ_mul]
    exact (Nat.add_le_add_right ih q).trans (asked_add_le hpause i)

/-- Some question is answered, or is asked too late. -/
theorem exists_end (limit : ℕ) : ∃ i, p.Reaches limit i ∧
    (limit ≤ p.asked i ∨ ∃ a, p.answer (p.asked i) = .ok a) := by
  have hlate : ∃ i, limit ≤ p.asked i ∨ ∃ a, p.answer (p.asked i) = .ok a := by
    refine ⟨limit, .inl ?_⟩
    have hapart := p.mul_le_asked (fun t => p.pause_pos t) limit
    omega
  classical
  refine ⟨Nat.find hlate, fun j hj => ?_, Nat.find_spec hlate⟩
  obtain ⟨hnow, hrefused⟩ := not_or.mp (Nat.find_min hlate hj)
  refine ⟨Nat.not_le.mp hnow, ?_⟩
  cases he : p.answer (p.asked j) with
  | ok a => exact absurd ⟨a, he⟩ hrefused
  | error e => exact ⟨e, rfl⟩

/-- **The two ways in which the loop ends.** -/
theorem run_cases (p : Polling ε α) (limit : ℕ) : ∃ i, p.Reaches limit i ∧
    ((∃ a, p.asked i < limit ∧ p.answer (p.asked i) = .ok a ∧
        p.run limit 0 none = (.ok a, p.asked i + p.lasts (p.asked i))) ∨
      (limit ≤ p.asked i ∧ p.run limit 0 none = (.error (p.lastRefusal i), p.asked i))) := by
  obtain ⟨i, hreaches, hend⟩ := p.exists_end limit
  refine ⟨i, hreaches, ?_⟩
  rw [run_eq_of_reaches hreaches]
  rcases Nat.lt_or_ge (p.asked i) limit with hnow | hnow
  · rcases hend with hlate | ⟨a, ha⟩
    · omega
    · exact .inl ⟨a, hnow, ha, run_of_answered hnow ha⟩
  · exact .inr ⟨hnow, run_of_late hnow⟩

/-- Where it ends is the only place that it reaches and does not go on from. -/
theorem Reaches.le {i j : ℕ} (hi : p.Reaches limit i) {a : α} (hj : p.answer (p.asked j) = .ok a) :
    i ≤ j := by
  by_contra hlt
  obtain ⟨-, e, he⟩ := hi j (Nat.not_le.mp hlt)
  rw [hj] at he
  cases he

/-- **An answer is got exactly if some question is asked in time and answered.** -/
theorem run_ok_iff (p : Polling ε α) (limit : ℕ) :
    (∃ a time, p.run limit 0 none = (.ok a, time)) ↔
      ∃ i a, p.asked i < limit ∧ p.answer (p.asked i) = .ok a := by
  obtain ⟨i, hreaches, ⟨a, hnow, ha, hrun⟩ | ⟨hlate, hrun⟩⟩ := p.run_cases limit
  · exact ⟨fun _ => ⟨i, a, hnow, ha⟩, fun _ => ⟨a, _, hrun⟩⟩
  · constructor
    · rintro ⟨a, time, hok⟩
      rw [hrun] at hok
      cases hok
    · rintro ⟨j, a, hnow, ha⟩
      -- what is asked later is asked later
      have hmono : StrictMono p.asked := strictMono_nat_of_lt_succ fun j => p.lt_next (p.asked j)
      have hle := hmono.monotone (hreaches.le ha)
      omega

/-! ### In time -/

/-- A question is asked soon after the one before. -/
theorem asked_lt {D P : ℕ} (hlasts : ∀ s, p.lasts s ≤ D) (hpause : ∀ s, p.pause s ≤ P) {t : ℕ} :
    ∀ {i : ℕ}, (∀ j < i, p.asked j < t) → p.asked i < t + D + P
  | 0, _ => by
    have hpos := p.pause_pos 0
    have hP := hpause 0
    rw [asked]
    omega
  | i + 1, h => by
    have hbefore := h i (Nat.lt_succ_self i)
    have hD := hlasts (p.asked i)
    have hP := hpause (p.asked i + p.lasts (p.asked i))
    rw [asked, next]
    omega

/-- **A service that answers from some time on is found** if there is still time for one question
and one pause. -/
theorem run_of_up {t D P : ℕ} (hup : ∀ s, t ≤ s → ∃ a, p.answer s = .ok a)
    (hlasts : ∀ s, p.lasts s ≤ D) (hpause : ∀ s, p.pause s ≤ P) (hfit : t + D + P ≤ limit) :
    ∃ a i, p.run limit 0 none = (.ok a, p.asked i + p.lasts (p.asked i)) ∧
      p.asked i < t + D + P := by
  obtain ⟨i, hreaches, hend⟩ := p.run_cases limit
  have hearly : ∀ j < i, p.asked j < t := by
    intro j hj
    obtain ⟨-, e, he⟩ := hreaches j hj
    by_contra hlate
    obtain ⟨a, ha⟩ := hup _ (Nat.not_lt.mp hlate)
    rw [ha] at he
    cases he
  have hsoon := asked_lt hlasts hpause hearly
  rcases hend with ⟨a, -, -, hrun⟩ | ⟨hlate, -⟩
  · exact ⟨a, i, hrun, hsoon⟩
  · omega

/-- **The loop does not last much longer than it may.** -/
theorem run_time {D P : ℕ} (hlasts : ∀ s, p.lasts s ≤ D) (hpause : ∀ s, p.pause s ≤ P) :
    (p.run limit 0 none).2 < limit + D + P := by
  obtain ⟨i, hreaches, ⟨a, hnow, -, hrun⟩ | ⟨-, hrun⟩⟩ := p.run_cases limit
  · have hD := hlasts (p.asked i)
    have hpos := p.pause_pos 0
    have hP := hpause 0
    rw [hrun]
    dsimp only
    omega
  · rw [hrun]
    exact asked_lt hlasts hpause fun j hj => (hreaches j hj).1

end Polling
