import Mathlib.Data.Int.Order.Basic
import Mathlib.Data.List.Induction

/-!
# The failures of a BLE device

`BLEDeviceStatistic` counts the failures of a device, and `isFaulty` is meant to clear the counts
when the last failure is more than five minutes ago. It subtracts the clock from the time of the
failure and not the other way round, so that the difference is never positive (`isFaulty_eq`) and
the counts stay. `Penalty` says what should happen; the counters follow it modulo 256 for as long as
no clearing is missed (`Agrees.apply`).
-/

namespace SnGateway

/-- `std::chrono::system_clock` counts nanoseconds. -/
def NANOSECONDS_PER_SECOND : Int := 1000000000

/-- The conversion to whole seconds. -/
def durationCastSeconds (difference : Int) : Int := difference.tdiv NANOSECONDS_PER_SECOND

structure BLEDeviceStatistic where
  connectFailed : UInt8
  serviceFailed : UInt8
  lastChanged : Int
deriving DecidableEq

namespace BLEDeviceStatistic

def construct (now : Int) : BLEDeviceStatistic := ⟨0, 0, now⟩

def incrementConnectFailed (now : Int) (s : BLEDeviceStatistic) : UInt8 × BLEDeviceStatistic :=
  (s.connectFailed + 1, { s with connectFailed := s.connectFailed + 1, lastChanged := now })

def incrementServiceFailed (now : Int) (s : BLEDeviceStatistic) : UInt8 × BLEDeviceStatistic :=
  (s.serviceFailed + 1, { s with serviceFailed := s.serviceFailed + 1, lastChanged := now })

def reset (now : Int) (_ : BLEDeviceStatistic) : BLEDeviceStatistic := ⟨0, 0, now⟩

def isFaulty (now : Int) (s : BLEDeviceStatistic) : Bool × BLEDeviceStatistic :=
  let difference := durationCastSeconds (s.lastChanged - now)
  if 300 < difference then (false, ⟨0, 0, now⟩)
  else (3 < s.connectFailed || 3 < s.serviceFailed, s)

end BLEDeviceStatistic

/-- The failures since the last clearing, and when the last failure or clearing was. -/
structure Penalty where
  connectFailures : Nat
  serviceFailures : Nat
  since : Int
deriving DecidableEq

namespace Penalty

/-- More than 300 seconds have passed. -/
def Expired (now : Int) (p : Penalty) : Prop := 300 * NANOSECONDS_PER_SECOND < now - p.since

instance (now : Int) (p : Penalty) : Decidable (p.Expired now) :=
  inferInstanceAs (Decidable (_ < _))

/-- The device is to be left alone. -/
def Faulty (now : Int) (p : Penalty) : Prop :=
  (3 < p.connectFailures ∨ 3 < p.serviceFailures) ∧ ¬ p.Expired now

instance (now : Int) (p : Penalty) : Decidable (p.Faulty now) := inferInstanceAs (Decidable (_ ∧ _))

end Penalty

inductive StatisticMethod where
  | incrementConnectFailed
  | incrementServiceFailed
  | reset
  | isFaulty
deriving DecidableEq

/-- A call, and the nanoseconds since the one before. -/
structure StatisticCall where
  elapsed : Nat
  method : StatisticMethod
deriving DecidableEq

def BLEDeviceStatistic.apply (now : Int) (s : BLEDeviceStatistic) :
    StatisticMethod → BLEDeviceStatistic
  | .incrementConnectFailed => (s.incrementConnectFailed now).2
  | .incrementServiceFailed => (s.incrementServiceFailed now).2
  | .reset => s.reset now
  | .isFaulty => (s.isFaulty now).2

/-- A penalty that has expired is cleared when the device is looked at. -/
def Penalty.apply (now : Int) (p : Penalty) : StatisticMethod → Penalty
  | .incrementConnectFailed => { p with connectFailures := p.connectFailures + 1, since := now }
  | .incrementServiceFailed => { p with serviceFailures := p.serviceFailures + 1, since := now }
  | .reset => ⟨0, 0, now⟩
  | .isFaulty => if p.Expired now then ⟨0, 0, now⟩ else p

/-- The clock, the statistic and the penalty after calls. -/
structure StatisticRun where
  now : Int
  statistic : BLEDeviceStatistic
  penalty : Penalty

def StatisticRun.call (r : StatisticRun) (c : StatisticCall) : StatisticRun :=
  let now := r.now + c.elapsed
  ⟨now, r.statistic.apply now c.method, r.penalty.apply now c.method⟩

/-- A device that is new at `start`, after the calls. -/
def runStatistic (start : Int) (calls : List StatisticCall) : StatisticRun :=
  calls.foldl StatisticRun.call ⟨start, .construct start, ⟨0, 0, start⟩⟩

namespace StatisticRun

/-- `isFaulty` says what it should, and leaves no count behind when the penalty has expired. -/
structure AnswersRight (now : Int) (s : BLEDeviceStatistic) (p : Penalty) : Prop where
  answer : (s.isFaulty now).1 = true ↔ p.Faulty now
  cleared : p.Expired now → (s.isFaulty now).2.connectFailed = 0 ∧
    (s.isFaulty now).2.serviceFailed = 0

/-- With counters of eight bits, and none of them cleared when the penalty expires,
nothing shows. -/
def Unnoticed (now : Int) (p : Penalty) : Prop :=
  if p.Expired now then p.connectFailures % 256 = 0 ∧ p.serviceFailures % 256 = 0
  else (3 < p.connectFailures ∨ 3 < p.serviceFailures) ↔
    (3 < p.connectFailures % 256 ∨ 3 < p.serviceFailures % 256)

/-- The counters are the counts modulo 256, and the clock has not gone back. -/
structure Agrees (now : Int) (s : BLEDeviceStatistic) (p : Penalty) : Prop where
  connectFailed : s.connectFailed.toNat = p.connectFailures % 256
  serviceFailed : s.serviceFailed.toNat = p.serviceFailures % 256
  lastChanged : s.lastChanged ≤ now

variable {now now' : Int} {s : BLEDeviceStatistic} {p : Penalty}

/-- The branch that clears is never taken. -/
theorem isFaulty_eq (h : s.lastChanged ≤ now) :
    s.isFaulty now = (3 < s.connectFailed || 3 < s.serviceFailed, s) := by
  have hpos : 0 ≤ (now - s.lastChanged).tdiv NANOSECONDS_PER_SECOND :=
    Int.tdiv_nonneg (Int.sub_nonneg_of_le h) (by decide)
  have hcast : durationCastSeconds (s.lastChanged - now) = -(now - s.lastChanged).tdiv
      NANOSECONDS_PER_SECOND := by
    rw [durationCastSeconds, ← Int.neg_tdiv, Int.neg_sub]
  exact if_neg (by omega)

theorem lt_of_toNat_eq {b : UInt8} {n : Nat} (h : b.toNat = n % 256) : 3 < b ↔ 3 < n % 256 := by
  rw [UInt8.lt_iff_toNat_lt, h]
  rfl

theorem eq_zero_of_toNat_eq {b : UInt8} {n : Nat} (h : b.toNat = n % 256) :
    b = 0 ↔ n % 256 = 0 := by
  rw [← UInt8.toNat_inj, h]
  rfl

theorem Agrees.answersRight_iff (h : Agrees now s p) : AnswersRight now s p ↔ Unnoticed now p := by
  have heq := isFaulty_eq h.lastChanged
  have hanswer : (s.isFaulty now).1 = true ↔ 3 < p.connectFailures % 256 ∨
      3 < p.serviceFailures % 256 := by
    rw [heq, Bool.or_eq_true, decide_eq_true_eq, decide_eq_true_eq, lt_of_toNat_eq h.connectFailed,
      lt_of_toNat_eq h.serviceFailed]
  rw [Unnoticed]
  by_cases hexp : p.Expired now
  · rw [if_pos hexp]
    constructor
    · intro hr
      obtain ⟨hconnect, hservice⟩ := hr.cleared hexp
      rw [heq] at hconnect hservice
      exact ⟨(eq_zero_of_toNat_eq h.connectFailed).1 hconnect,
        (eq_zero_of_toNat_eq h.serviceFailed).1 hservice⟩
    · rintro ⟨hconnect, hservice⟩
      refine ⟨?_, fun _ => ?_⟩
      · rw [hanswer, hconnect, hservice]
        simp [Penalty.Faulty, hexp]
      · rw [heq]
        exact ⟨(eq_zero_of_toNat_eq h.connectFailed).2 hconnect,
          (eq_zero_of_toNat_eq h.serviceFailed).2 hservice⟩
  · rw [if_neg hexp]
    have hfaulty : p.Faulty now ↔ 3 < p.connectFailures ∨ 3 < p.serviceFailures := and_iff_left hexp
    constructor
    · intro hr
      rw [← hfaulty, ← hr.answer, hanswer]
    · intro hsame
      exact ⟨by rw [hanswer, hfaulty, hsame], fun h => absurd h hexp⟩

theorem Agrees.mono (h : Agrees now s p) (hle : now ≤ now') : Agrees now' s p :=
  ⟨h.connectFailed, h.serviceFailed, Int.le_trans h.lastChanged hle⟩

theorem toNat_succ_eq {b : UInt8} {n : Nat} (h : b.toNat = n % 256) :
    (b + 1).toNat = (n + 1) % 256 := by
  rw [UInt8.toNat_add, h, show (1 : UInt8).toNat = 1 from rfl]
  omega

theorem Agrees.apply (h : Agrees now s p) (method : StatisticMethod)
    (hu : method = .isFaulty → Unnoticed now p) :
    Agrees now (s.apply now method) (p.apply now method) := by
  cases method with
  | incrementConnectFailed => exact ⟨toNat_succ_eq h.connectFailed, h.serviceFailed, le_rfl⟩
  | incrementServiceFailed => exact ⟨h.connectFailed, toNat_succ_eq h.serviceFailed, le_rfl⟩
  | reset => exact ⟨rfl, rfl, le_rfl⟩
  | isFaulty =>
    have hu := hu rfl
    rw [Unnoticed] at hu
    rw [BLEDeviceStatistic.apply, isFaulty_eq h.lastChanged, Penalty.apply]
    by_cases hexp : p.Expired now
    · -- the counters are kept, but they are zero
      rw [if_pos hexp] at hu ⊢
      exact ⟨h.connectFailed.trans hu.1, h.serviceFailed.trans hu.2, h.lastChanged⟩
    · rw [if_neg hexp]
      exact h

/-! ### Runs -/

/-- Every call of `isFaulty` has the right answer. -/
def AllRight (start : Int) (calls : List StatisticCall) : Prop :=
  ∀ before (elapsed : Nat), before ++ [⟨elapsed, .isFaulty⟩] <+: calls →
    AnswersRight ((runStatistic start before).now + elapsed) (runStatistic start before).statistic
      (runStatistic start before).penalty

/-- No call of `isFaulty` meets a difference. -/
def AllUnnoticed (start : Int) (calls : List StatisticCall) : Prop :=
  ∀ before (elapsed : Nat), before ++ [⟨elapsed, .isFaulty⟩] <+: calls →
    Unnoticed ((runStatistic start before).now + elapsed) (runStatistic start before).penalty

theorem runStatistic_concat (start : Int) (calls : List StatisticCall) (c : StatisticCall) :
    runStatistic start (calls ++ [c]) = (runStatistic start calls).call c := by
  rw [runStatistic, List.foldl_append]
  rfl

/-- The counters agree all along the calls, if each call of `isFaulty` they agree at
is unnoticed. -/
theorem agrees_run {start : Int} {calls : List StatisticCall}
    (hu : ∀ before (elapsed : Nat), before ++ [⟨elapsed, .isFaulty⟩] <+: calls →
      Agrees ((runStatistic start before).now + elapsed) (runStatistic start before).statistic
        (runStatistic start before).penalty →
      Unnoticed ((runStatistic start before).now + elapsed) (runStatistic start before).penalty)
    {before : List StatisticCall} (hp : before <+: calls) :
    Agrees (runStatistic start before).now (runStatistic start before).statistic
      (runStatistic start before).penalty := by
  induction before using List.reverseRecOn with
  | nil => exact ⟨rfl, rfl, le_rfl⟩
  | append_singleton before c ih =>
    obtain ⟨elapsed, method⟩ := c
    have hle : (runStatistic start before).now ≤ (runStatistic start before).now + elapsed := by
      omega
    have hagrees := (ih ((List.prefix_append before _).trans hp)).mono hle
    rw [runStatistic_concat]
    refine hagrees.apply method fun h => ?_
    subst h
    exact hu before elapsed hp hagrees

/-- The penalty ends in time if and only if no count shows at an end and none has passed a multiple
of 256. -/
theorem isFaulty_right_iff (start : Int) (calls : List StatisticCall) :
    AllRight start calls ↔ AllUnnoticed start calls := by
  constructor
  · intro h before elapsed hp
    have hagrees :=
      agrees_run (fun before elapsed hp hagrees => hagrees.answersRight_iff.1 (h before elapsed hp))
      ((List.prefix_append before _).trans hp)
    exact (hagrees.mono (by omega)).answersRight_iff.1 (h before elapsed hp)
  · intro h before elapsed hp
    have hagrees := agrees_run (fun before elapsed hp _ => h before elapsed hp)
      ((List.prefix_append before _).trans hp)
    exact (hagrees.mono (by omega)).answersRight_iff.2 (h before elapsed hp)

/-- Four failures, and 301 seconds later. -/
def quietDevice : List StatisticCall :=
  [⟨0, .incrementConnectFailed⟩, ⟨0, .incrementConnectFailed⟩, ⟨0, .incrementConnectFailed⟩,
    ⟨0, .incrementConnectFailed⟩, ⟨301000000000, .isFaulty⟩]

/-- The device is never tried again. -/
theorem quiet_device_faulty : ¬ AllRight 0 quietDevice := by
  intro h
  have hr := h (quietDevice.take 4) 301000000000 (by decide)
  exact absurd (hr.answer.1 (by decide)) (by decide)

end StatisticRun

end SnGateway
