import Mathlib.Data.List.Induction
import Mathlib.Algebra.Order.Group.Nat

/-!
# The timers of the gateway

`LinuxSystem` keeps two readings of `millis()`, which starts again from 0 every 2^32 milliseconds,
and subtracts them from the next ones in 32 bits. `CallTimes` says when the calls really were; the
readings stay exact for as long as no call comes too late (`Exact.call`).
-/

namespace SnGateway

/-- The reading at a time, in milliseconds since the start. -/
def millis (time : Nat) : UInt32 := UInt32.ofNat time

structure LinuxSystem where
  heartbeatPeriod : UInt32
  heartbeatCurrent : UInt32
  elapsedCurrent : UInt32
deriving DecidableEq

namespace LinuxSystem

/-- The constructor leaves the members at their initializers. -/
def construct : LinuxSystem := ⟨10000, 0, 0⟩

def setHeartbeat (period : UInt32) (s : LinuxSystem) : LinuxSystem :=
  { s with heartbeatPeriod := period }

def getHeartbeat (s : LinuxSystem) : UInt32 := s.heartbeatPeriod

def hasBeaten (now : Nat) (s : LinuxSystem) : Bool × LinuxSystem :=
  let current := millis now
  if s.heartbeatPeriod < current - s.heartbeatCurrent then
    (true, { s with heartbeatCurrent := current })
  else (false, s)

def getElapsedTime (now : Nat) (s : LinuxSystem) : UInt32 × LinuxSystem :=
  let current := millis now
  (current - s.elapsedCurrent, { s with elapsedCurrent := current })

end LinuxSystem

inductive SystemMethod where
  | setHeartbeat (period : UInt32)
  | getHeartbeat
  | hasBeaten
  | getElapsedTime
  | sleep (duration : UInt32)
deriving DecidableEq

/-- A call, and the milliseconds since the one before. -/
structure TimedCall where
  elapsed : Nat
  method : SystemMethod
deriving DecidableEq

/-- The time, and when `hasBeaten` and `getElapsedTime` were called last. -/
structure CallTimes where
  now : Nat
  tested : Nat
  measured : Nat
deriving DecidableEq

def CallTimes.call (t : CallTimes) (c : TimedCall) : CallTimes :=
  let now := t.now + c.elapsed
  match c.method with
  | .hasBeaten => ⟨now, now, t.measured⟩
  | .getElapsedTime => ⟨now, t.tested, now⟩
  | _ => ⟨now, t.tested, t.measured⟩

def callTimes (calls : List TimedCall) : CallTimes := calls.foldl CallTimes.call ⟨0, 0, 0⟩

/-- The system after calls, with the time of the last beat and the sum of the elapsed times it
returned. -/
structure SystemRun where
  times : CallTimes
  system : LinuxSystem
  beat : Nat
  total : Nat

def SystemRun.call (r : SystemRun) (c : TimedCall) : SystemRun :=
  let times := r.times.call c
  match c.method with
  | .setHeartbeat period => { r with times := times, system := r.system.setHeartbeat period }
  | .hasBeaten =>
    let (beaten, system) := r.system.hasBeaten times.now
    { r with times := times, system := system, beat := if beaten then times.now else r.beat }
  | .getElapsedTime =>
    let (elapsed, system) := r.system.getElapsedTime times.now
    { r with times := times, system := system, total := r.total + elapsed.toNat }
  | .getHeartbeat | .sleep _ => { r with times := times }

/-- A system with a period, after the calls. -/
def runSystem (period : UInt32) (calls : List TimedCall) : SystemRun :=
  calls.foldl SystemRun.call ⟨⟨0, 0, 0⟩, .setHeartbeat period .construct, 0, 0⟩

namespace LinuxSystem

/-- The call leaves the period as it is, and 32 bits hold what it has to measure. -/
def OnTime (period : UInt32) (t : CallTimes) (c : TimedCall) : Prop :=
  match c.method with
  | .setHeartbeat p => p = period
  | .hasBeaten => period.toNat + (t.now + c.elapsed - t.tested) < 2 ^ 32
  | .getElapsedTime => t.now + c.elapsed - t.measured < 2 ^ 32
  | .getHeartbeat | .sleep _ => True

instance (period : UInt32) (t : CallTimes) : (c : TimedCall) → Decidable (OnTime period t c)
  | ⟨_, .setHeartbeat _⟩ => inferInstanceAs (Decidable (_ = _))
  | ⟨_, .hasBeaten⟩ => inferInstanceAs (Decidable (_ < _))
  | ⟨_, .getElapsedTime⟩ => inferInstanceAs (Decidable (_ < _))
  | ⟨_, .getHeartbeat⟩ => inferInstanceAs (Decidable True)
  | ⟨_, .sleep _⟩ => inferInstanceAs (Decidable True)

def Punctual (period : UInt32) (calls : List TimedCall) : Prop :=
  ∀ before c, before ++ [c] <+: calls → OnTime period (callTimes before) c

/-- Every call of `hasBeaten` is answered by the time since the last beat. -/
def BeatsRight (period : UInt32) (calls : List TimedCall) : Prop :=
  ∀ before elapsed, before ++ [⟨elapsed, .hasBeaten⟩] <+: calls →
    let r := runSystem period before
    (r.system.hasBeaten (r.times.now + elapsed)).1 = true ↔
      period.toNat < r.times.now + elapsed - r.beat

variable {period : UInt32} {s : LinuxSystem} {r : SystemRun} {calls before : List TimedCall}
    {now since : Nat}

/-! ### One call -/

theorem toNat_millis_sub (hle : since ≤ now) (hlt : now - since < 2 ^ 32) :
    (millis now - millis since).toNat = now - since := by
  rw [UInt32.toNat_sub, millis, millis, UInt32.toNat_ofNat', UInt32.toNat_ofNat']
  omega

theorem hasBeaten_cases (now : Nat) (s : LinuxSystem) :
    s.hasBeaten now = (true, { s with heartbeatCurrent := millis now }) ∨
      s.hasBeaten now = (false, s) := by
  rw [hasBeaten]
  split
  · exact .inl rfl
  · exact .inr rfl

theorem hasBeaten_iff (hs : s.heartbeatCurrent = millis since) (hle : since ≤ now)
    (hlt : now - since < 2 ^ 32) :
    (s.hasBeaten now).1 = true ↔ s.heartbeatPeriod.toNat < now - since := by
  have hiff : s.heartbeatPeriod < millis now - s.heartbeatCurrent ↔
      s.heartbeatPeriod.toNat < now - since := by
    rw [UInt32.lt_iff_toNat_lt, hs, toNat_millis_sub hle hlt]
  rw [hasBeaten, ← hiff]
  split
  · next hbeat => exact iff_of_true rfl hbeat
  · next hbeat => exact iff_of_false Bool.false_ne_true hbeat

theorem getElapsedTime_eq (hs : s.elapsedCurrent = millis since) (hle : since ≤ now)
    (hlt : now - since < 2 ^ 32) : (s.getElapsedTime now).1.toNat = now - since := by
  rw [getElapsedTime, hs]
  exact toNat_millis_sub hle hlt

/-- The readings are of the times they stand for, and the last beat is not longer ago at a call of
`hasBeaten` than the period. -/
structure Exact (period : UInt32) (r : SystemRun) : Prop where
  heartbeatPeriod : r.system.heartbeatPeriod = period
  heartbeatCurrent : r.system.heartbeatCurrent = millis r.beat
  elapsedCurrent : r.system.elapsedCurrent = millis r.times.measured
  beat_le : r.beat ≤ r.times.tested
  tested_le : r.times.tested ≤ r.times.now
  measured_le : r.times.measured ≤ r.times.now
  recent : r.times.tested - r.beat ≤ period.toNat
  total : r.total = r.times.measured

/-- `hasBeaten` has the right answer, if it is not called too late. -/
theorem Exact.hasBeaten_iff (h : Exact period r) (elapsed : Nat)
    (hlt : period.toNat + (r.times.now + elapsed - r.times.tested) < 2 ^ 32) :
    (r.system.hasBeaten (r.times.now + elapsed)).1 = true ↔
      period.toNat < r.times.now + elapsed - r.beat := by
  have hbeat := h.beat_le
  have htested := h.tested_le
  have hrecent := h.recent
  rw [← h.heartbeatPeriod]
  exact LinuxSystem.hasBeaten_iff h.heartbeatCurrent (by omega) (by omega)

theorem Exact.call {c : TimedCall} (h : Exact period r) (hc : OnTime period r.times c) :
    Exact period (r.call c) := by
  obtain ⟨elapsed, method⟩ := c
  have hnow : r.times.now ≤ r.times.now + elapsed := Nat.le_add_right _ _
  have htested := h.tested_le.trans hnow
  have hmeasured := h.measured_le.trans hnow
  cases method with
  | setHeartbeat p =>
    exact ⟨hc, h.heartbeatCurrent, h.elapsedCurrent, h.beat_le, htested, hmeasured,
      h.recent, h.total⟩
  | getHeartbeat | sleep =>
    exact ⟨h.heartbeatPeriod, h.heartbeatCurrent, h.elapsedCurrent, h.beat_le, htested, hmeasured,
      h.recent, h.total⟩
  | hasBeaten =>
    have hanswer := h.hasBeaten_iff elapsed hc
    rcases hasBeaten_cases (r.times.now + elapsed) r.system with heq | heq <;> rw [heq] at hanswer
    · have hcall : r.call ⟨elapsed, .hasBeaten⟩ =
          ⟨⟨r.times.now + elapsed, r.times.now + elapsed, r.times.measured⟩,
            { r.system with heartbeatCurrent := millis (r.times.now + elapsed) },
            r.times.now + elapsed, r.total⟩ := by
        simp [SystemRun.call, CallTimes.call, heq]
      rw [hcall]
      exact ⟨h.heartbeatPeriod, rfl, h.elapsedCurrent, le_rfl, le_rfl, hmeasured, by simp, h.total⟩
    · have hcall : r.call ⟨elapsed, .hasBeaten⟩ =
          ⟨⟨r.times.now + elapsed, r.times.now + elapsed, r.times.measured⟩, r.system, r.beat,
            r.total⟩ := by
        simp [SystemRun.call, CallTimes.call, heq]
      have hrecent : ¬ period.toNat < r.times.now + elapsed - r.beat :=
        fun hlt => Bool.false_ne_true (hanswer.2 hlt)
      rw [hcall]
      exact ⟨h.heartbeatPeriod, h.heartbeatCurrent, h.elapsedCurrent, h.beat_le.trans htested,
        le_rfl, hmeasured,
        Nat.not_lt.1 hrecent, h.total⟩
  | getElapsedTime =>
    have helapsed := getElapsedTime_eq h.elapsedCurrent hmeasured hc
    refine ⟨h.heartbeatPeriod, h.heartbeatCurrent, rfl, h.beat_le, htested, le_rfl, h.recent, ?_⟩
    -- the sum reaches from the start to the call before, the result from there
    calc r.total + (r.system.getElapsedTime (r.times.now + elapsed)).1.toNat
        = r.times.measured + (r.times.now + elapsed - r.times.measured) := by rw [h.total, helapsed]
      _ = r.times.now + elapsed := Nat.add_sub_of_le hmeasured

/-! ### Runs -/

theorem runSystem_concat (period : UInt32) (calls : List TimedCall) (c : TimedCall) :
    runSystem period (calls ++ [c]) = (runSystem period calls).call c := by
  rw [runSystem, List.foldl_append]
  rfl

theorem callTimes_concat (calls : List TimedCall) (c : TimedCall) :
    callTimes (calls ++ [c]) = (callTimes calls).call c := by
  rw [callTimes, List.foldl_append]
  rfl

theorem times_call (r : SystemRun) (c : TimedCall) : (r.call c).times = r.times.call c := by
  rw [SystemRun.call]
  split <;> rfl

theorem times_runSystem (period : UInt32) (calls : List TimedCall) :
    (runSystem period calls).times = callTimes calls := by
  induction calls using List.reverseRecOn with
  | nil => rfl
  | append_singleton calls c ih => rw [runSystem_concat, callTimes_concat, times_call, ih]

theorem Punctual.of_prefix (h : Punctual period calls) (hp : before <+: calls) :
    Punctual period before :=
  fun before' c hp' => h before' c (hp'.trans hp)

theorem punctual_concat_iff {c : TimedCall} :
    Punctual period (calls ++ [c]) ↔ Punctual period calls ∧ OnTime period (callTimes calls) c := by
  constructor
  · intro h
    exact ⟨h.of_prefix (List.prefix_append ..), h calls c List.prefix_rfl⟩
  · rintro ⟨h, hc⟩ before c' hp
    rcases List.prefix_concat_iff.1 hp with heq | hp
    · obtain ⟨rfl, hc'⟩ := List.append_inj' heq rfl
      cases hc'
      exact hc
    · exact h before c' hp

theorem punctual_iff :
    Punctual period calls ↔ ∀ i : Fin calls.length,
      OnTime period (callTimes (calls.take i)) calls[i] := by
  constructor
  · intro h i
    exact h _ _ ⟨calls.drop (i + 1), by simp⟩
  · rintro h before c ⟨after, rfl⟩
    simpa using h ⟨before.length, by simp⟩

theorem exact_run (h : Punctual period calls) : Exact period (runSystem period calls) := by
  induction calls using List.reverseRecOn with
  | nil => exact ⟨rfl, rfl, rfl, le_rfl, le_rfl, le_rfl, Nat.zero_le _, rfl⟩
  | append_singleton calls c ih =>
    obtain ⟨hcalls, hc⟩ := punctual_concat_iff.1 h
    rw [runSystem_concat]
    refine (ih hcalls).call ?_
    rw [times_runSystem]
    exact hc

/-- `hasBeaten` measures from its last beat, and the results of `getElapsedTime` add up to the time
of its last call, however often the reading has started again from 0. -/
theorem timers_survive_wrap (h : Punctual period calls) :
    BeatsRight period calls ∧ (runSystem period calls).total = (callTimes calls).measured := by
  constructor
  · intro before elapsed hp
    obtain ⟨hbefore, hc⟩ := punctual_concat_iff.1 (h.of_prefix hp)
    rw [← times_runSystem period] at hc
    exact (exact_run hbefore).hasBeaten_iff elapsed hc
  · rw [← times_runSystem period calls]
    exact (exact_run h).total

/-- The reading starts again before the fourth call and before the last. -/
def slowCalls : List TimedCall :=
  [⟨9000, .hasBeaten⟩, ⟨3000, .hasBeaten⟩, ⟨4000000000, .getElapsedTime⟩, ⟨294956000, .hasBeaten⟩,
    ⟨9999, .hasBeaten⟩, ⟨4000000000, .getElapsedTime⟩, ⟨294957000, .hasBeaten⟩]

theorem slowCalls_survive_wrap :
    Punctual 10000 slowCalls ∧ BeatsRight 10000 slowCalls ∧ (runSystem 10000 slowCalls).total =
      8294977999 := by
  have h : Punctual 10000 slowCalls := punctual_iff.2 (by decide)
  obtain ⟨hbeats, htotal⟩ := timers_survive_wrap h
  exact ⟨h, hbeats, htotal.trans (by decide)⟩

end LinuxSystem

end SnGateway
