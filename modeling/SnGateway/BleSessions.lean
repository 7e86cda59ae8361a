import SnGateway.BleSystem

/-!
# The sessions of the BLE devices

A device never has two connections at a time (`run_one_connection`). One whose MAC is empty at the
wrong moment stays marked (`run_abandoned`), and one with too many failures is left alone
(`run_given_up`): neither is ever connected again.
-/

namespace SnGateway
open Run Threads RecordStore

namespace BLESystem

variable {s s' : BLESystem} {slack : Nat} {junk : DeviceAddress} {e : BLEEvent}
    {es is : List BLEEvent} {j k : Nat} {m : List UInt8}

/-! ### One connection for a device -/

/-- `connectionInProgress` is set as long as a connection claims it, and one connection at most
does. -/
structure Claimed (s : BLESystem) : Prop where
  unique : ∀ j k, (s.phase j).Claims → (s.phase k).Claims → s.mac j = s.mac k → j = k
  flag : ∀ m, s.isConnectionInProgress m = true ↔ s.acceptor = .spawning m ∨ ∃ k,
    (s.phase k).Claims ∧ s.mac k = m
  pending : ∀ m, s.acceptor = .checked m ∨ s.acceptor = .starting m →
    (s.deviceStatistics m).isSome ∧ s.isConnectionInProgress m = false
  spawning : ∀ m, s.acceptor = .spawning m → ∀ k, (s.phase k).Claims → s.mac k ≠ m
  fresh : ∀ k, s.count ≤ k → s.phase k = .absent

theorem Claimed.start (now : Int) : Claimed (start now) where
  unique _ _ h := h.elim
  flag m := by simp [BLESystem.start, isConnectionInProgress, ConnectionPhase.Claims]
  pending m h := by rcases h with h | h <;> cases h
  spawning m h := by cases h
  fresh _ _ := rfl

theorem Claimed.no_claims (hs : Claimed s) (h : s.isConnectionInProgress m = false) (k : Nat)
    (hk : (s.phase k).Claims) :
    s.mac k ≠ m := fun hmac => by
  rw [(hs.flag m).2 (.inr ⟨k, hk, hmac⟩)] at h
  cases h

theorem Claimed.lt_count (hs : Claimed s) (hk : s.phase k ≠ .absent) : k < s.count :=
  Nat.lt_of_not_le fun h => hk (hs.fresh k h)

/-- The acceptor goes on without a claim. -/
theorem Claimed.congr (hs : Claimed s) (hmac : s'.mac = s.mac) (hphase : s'.phase = s.phase)
    (hcount : s'.count = s.count)
    (hflag : ∀ m, s'.isConnectionInProgress m = s.isConnectionInProgress m)
    (hacceptor : ∀ m, s'.acceptor = .spawning m ↔ s.acceptor = .spawning m)
    (hpending : ∀ m, s'.acceptor = .checked m ∨ s'.acceptor = .starting m →
      (s'.deviceStatistics m).isSome ∧ s'.isConnectionInProgress m = false) : Claimed s' where
  unique := by rw [hmac, hphase]; exact hs.unique
  flag m := by rw [hflag, hacceptor, hmac, hphase]; exact hs.flag m
  pending := hpending
  spawning m h := by rw [hmac, hphase]; exact hs.spawning m ((hacceptor m).1 h)
  fresh := by rw [hcount, hphase]; exact hs.fresh

theorem Claimed.look (hs : Claimed s) (hnext : s.acceptor = .next) (m : List UInt8)
    (broken : Bool) : Claimed (s.look m broken) := by
  unfold BLESystem.look
  split_ifs with hskip
  · exact hs
  cases hfound : s.deviceStatistics m with
  | none =>
    dsimp only
    refine hs.congr rfl rfl rfl (fun m' => ?_) (fun m' => Iff.rfl) fun m' h => ?_
    · unfold isConnectionInProgress
      dsimp only
      by_cases h : m' = m
      · rw [h, Function.update_self, hfound]; rfl
      · rw [Function.update_of_ne h]
    · dsimp only at h
      rw [hnext] at h
      rcases h with h | h <;> cases h
  | some d =>
    dsimp only
    split_ifs with hflag
    · exact hs
    refine hs.congr rfl rfl rfl (fun m' => rfl)
      (fun m' => iff_of_false (by simp) (by rw [hnext]; simp)) fun m' h => ?_
    obtain rfl : m = m' := by
      rcases h with h | h
      · exact AcceptorPhase.checked.inj h
      · cases h
    show (s.deviceStatistics m).isSome ∧
      (s.deviceStatistics m).any DeviceStatistic.connectionInProgress = false
    rw [hfound]
    exact ⟨rfl, by simpa using hflag⟩

theorem Claimed.askFaulty (hs : Claimed s) (hchecked : s.acceptor = .checked m) :
    Claimed (s.askFaulty m) := by
  obtain ⟨hsome, hflag⟩ := hs.pending m (.inl hchecked)
  unfold BLESystem.askFaulty
  dsimp only
  refine hs.congr rfl rfl rfl (fun m' => isConnectionInProgress_statistic s m m' .isFaulty)
    (fun m' => iff_of_false (by dsimp only; split <;> simp) (by rw [hchecked]; simp)) fun m' h => ?_
  have hm : m = m' := by
    dsimp only at h
    split_ifs at h
    · rcases h with h | h <;> cases h
    · rcases h with h | h
      · cases h
      · exact AcceptorPhase.starting.inj h
  rw [← hm]
  exact ⟨(isSome_statistic s m m .isFaulty).trans hsome,
    (isConnectionInProgress_statistic s m m .isFaulty).trans hflag⟩

theorem Claimed.setInProgress (hs : Claimed s) (hstarting : s.acceptor = .starting m) :
    Claimed { s.setConnectionInProgress m true with acceptor := .spawning m } where
  unique := hs.unique
  flag m' := by
    obtain ⟨hsome, hflag⟩ := hs.pending m (.inr hstarting)
    refine ((Bool.eq_iff_iff.1 (isConnectionInProgress_set s m m' true)).trans ?_)
    by_cases h : m' = m
    · rw [if_pos h, hsome, h]
      exact iff_of_true rfl (.inl rfl)
    · rw [if_neg h, hs.flag m', hstarting]
      refine or_congr_left (iff_of_false (by simp) fun h' => h (AcceptorPhase.spawning.inj h').symm)
  pending m' h := by rcases h with h | h <;> cases h
  spawning m' h := by
    obtain rfl : m = m' := AcceptorPhase.spawning.inj h
    exact hs.no_claims (hs.pending m (.inr hstarting)).2
  fresh := hs.fresh

theorem Claimed.spawn (hs : Claimed s) (hspawning : s.acceptor = .spawning m) :
    Claimed (s.spawn m) := by
  have hclaims (k : Nat) (hk : (Function.update s.phase s.count .connecting k).Claims) :
      (k = s.count ∧ Function.update s.mac s.count m k = m) ∨
        (k ≠ s.count ∧ (s.phase k).Claims ∧ Function.update s.mac s.count m k = s.mac k) := by
    rcases update_eq_or s.phase s.count k .connecting with ⟨rfl, -⟩ | ⟨hne, hother⟩
    · exact .inl ⟨rfl, Function.update_self ..⟩
    · exact .inr ⟨hne, hother ▸ hk, Function.update_of_ne hne ..⟩
  exact {
    unique := fun j k hj hk hmac => by
      change Function.update s.mac s.count m j = Function.update s.mac s.count m k at hmac
      rcases hclaims j hj with ⟨rfl, hm⟩ | ⟨-, hj, hm⟩ <;> rcases hclaims k hk with ⟨rfl, hm'⟩ |
        ⟨-, hk, hm'⟩
      · rfl
      · exact absurd (hm'.symm.trans (hmac.symm.trans hm)) (hs.spawning m hspawning k hk)
      · exact absurd (hm.symm.trans (hmac.trans hm')) (hs.spawning m hspawning j hj)
      · exact hs.unique j k hj hk (hm.symm.trans (hmac.trans hm'))
    flag := fun m' => by
      refine (hs.flag m').trans ?_
      rw [hspawning]
      constructor
      · rintro (h | ⟨k, hk, rfl⟩)
        · obtain rfl := AcceptorPhase.spawning.inj h
          exact .inr
            ⟨s.count, by simp [BLESystem.spawn, ConnectionPhase.Claims], by simp [BLESystem.spawn]⟩
        · have hne : k ≠ s.count := (hs.lt_count fun h => by rw [h] at hk; exact hk).ne
          exact .inr ⟨k, by simpa [BLESystem.spawn, hne] using hk, by simp [BLESystem.spawn, hne]⟩
      · rintro (h | ⟨k, hk, hmac⟩)
        · cases h
        rcases hclaims k hk with ⟨rfl, hm⟩ | ⟨-, hk, hm⟩
        · exact .inl (congrArg _ (hm.symm.trans hmac))
        · exact .inr ⟨k, hk, hm.symm.trans hmac⟩
    pending := fun m' h => by rcases h with h | h <;> cases h
    spawning := fun m' h => by cases h
    fresh := fun k hk => by
      have hne : k ≠ s.count := (Nat.lt_of_succ_le hk).ne'
      show Function.update s.phase s.count .connecting k = .absent
      rw [Function.update_of_ne hne]
      exact hs.fresh k (Nat.le_of_succ_le hk) }

/-- The claims after a step of a connection. -/
theorem claims_session {event : SessionEvent} (hk : s.phase k = event.before) (j : Nat) :
    (Function.update s.phase k event.after j).Claims ↔ (s.phase j).Claims ∧
      ¬ (j = k ∧ event.Releases) := by
  rcases update_eq_or s.phase k j event.after with ⟨rfl, hself⟩ | ⟨hne, hother⟩
  · rw [hself, SessionEvent.claims_after, hk]
    simp
  · rw [hother]
    simp [hne]

theorem Claimed.session (hs : Claimed s) {event : SessionEvent} (hk : s.phase k = event.before) :
    Claimed ((s.effect k event).goTo k event.after) := by
  have hclaims := claims_session hk
  have hflag (m : List UInt8) := isConnectionInProgress_effect s k m event
  exact {
    unique := fun i j hi hj hmac => by
      simp only [goTo_phase, effect_phase, hclaims, goTo_mac, effect_mac] at hi hj hmac
      exact hs.unique i j hi.1 hj.1 hmac
    flag := fun m => by
      simp only [goTo_phase, effect_phase, hclaims, goTo_mac, effect_mac, goTo_acceptor,
        effect_acceptor]
      refine (Bool.eq_iff_iff.1 (hflag m)).trans ?_
      split_ifs with hreleased
      · -- the claim that is given up was the only one
        obtain ⟨hrel, rfl⟩ := hreleased
        have hclaim : (s.phase k).Claims := hk ▸ SessionEvent.before_claims_of_releases hrel
        refine iff_of_false (by simp) ?_
        rintro (h | ⟨j, ⟨hj, hne⟩, hmac⟩)
        · exact hs.spawning _ h k hclaim rfl
        · exact hne ⟨hs.unique j k hj hclaim hmac, hrel⟩
      · rw [hs.flag m]
        refine or_congr_right (exists_congr fun j => ?_)
        constructor
        · rintro ⟨hj, rfl⟩
          exact ⟨⟨hj, fun h => hreleased ⟨h.2, by rw [h.1]⟩⟩, rfl⟩
        · rintro ⟨⟨hj, -⟩, rfl⟩
          exact ⟨hj, rfl⟩
    pending := fun m h => by
      rw [goTo_acceptor, effect_acceptor] at h
      obtain ⟨hsome, hfalse⟩ := hs.pending m h
      refine ⟨(isSome_effect s k m event).trans hsome, (hflag m).trans ?_⟩
      rw [hfalse, ite_self]
    spawning := fun m h j hj => by
      rw [goTo_acceptor, effect_acceptor] at h
      rw [goTo_mac, effect_mac]
      simp only [goTo_phase, effect_phase, hclaims] at hj
      exact hs.spawning m h j hj.1
    fresh := fun j hj => by
      rw [goTo_count, effect_count] at hj
      have hne : j ≠ k := by
        rintro rfl
        exact SessionEvent.before_ne_absent event (hk.symm.trans (hs.fresh j hj))
      simp only [goTo_phase, effect_phase, Function.update_of_ne hne]
      exact hs.fresh j hj }

theorem step_claimed (hs : Claimed s) (h : step slack junk s e = some s') : Claimed s' := by
  cases e with
  | tick elapsed =>
    cases h
    exact hs.congr rfl rfl rfl (fun _ => rfl) (fun _ => Iff.rfl) hs.pending
  | look m broken =>
    rw [step] at h
    split_ifs at h with hnext
    cases h
    exact hs.look hnext m broken
  | askFaulty =>
    rw [step] at h
    split at h
    · next m hchecked => cases h; exact hs.askFaulty hchecked
    · cases h
  | setInProgress =>
    rw [step] at h
    split at h
    · next m hstarting => cases h; exact hs.setInProgress hstarting
    · cases h
  | spawn =>
    rw [step] at h
    split at h
    · next m hspawning => cases h; exact hs.spawn hspawning
    · cases h
  | session k event =>
    rw [step] at h
    split_ifs at h with hk
    cases h
    exact hs.session hk
  | send destination bytes =>
    cases h
    exact hs.congr rfl rfl rfl (fun _ => rfl) (fun _ => Iff.rfl) hs.pending
  | loop =>
    obtain ⟨notices, queue, -, rfl⟩ := loop_eq h
    exact hs.congr rfl rfl rfl (fun _ => rfl) (fun _ => Iff.rfl) hs.pending

theorem reachable_claimed {now : Int} (h : run (step slack junk) (start now) es = some s) :
    Claimed s := by
  have hstep (s : BLESystem) (e : BLEEvent) (s' : BLESystem) (hs : Claimed s) (_ : True)
      (h : step slack junk s e = some s') : Claimed s' := step_claimed hs h
  exact run_inv hstep (.start now) (fun _ _ => trivial) h

/-- In every order of steps no two connections of a device are under way at a time, and the device
is marked exactly for as long as there is one, or its thread is about to be made, or one has
returned for want of a MAC. -/
theorem run_one_connection {now : Int} (h : run (step slack junk) (start now) es = some s) :
    (∀ j k, (s.phase j).Claims → (s.phase k).Claims → s.mac j = s.mac k → j = k) ∧
      ∀ m, s.isConnectionInProgress m = true ↔
        s.acceptor = .spawning m ∨ ∃ k, (s.phase k).Claims ∧ s.mac k = m :=
  ⟨(reachable_claimed h).unique, (reachable_claimed h).flag⟩

/-- A device is looked at until its connection is to ask for the MAC. -/
def connected : List BLEEvent :=
  [.look BLESocket.sensor.mac false, .look BLESocket.sensor.mac false, .askFaulty,
    .setInProgress, .spawn,
    .session 0 (.connect true), .session 0 (.discover ⟨true, true, [[2, 22]]⟩)]

theorem run_one_connection_connected :
    ∃ s, run (step 1 (Record.zero 6)) (start 0) connected = some s ∧
    ∀ j k, (s.phase j).Claims → (s.phase k).Claims → s.mac j = s.mac k → j = k := by
  have h : run (step 1 (Record.zero 6)) (start 0) connected = some _ := rfl
  exact ⟨_, h, (run_one_connection h).1⟩

/-! ### Devices that are not connected again -/

/-- A step leaves the connections alone, or is one of theirs, or makes one. -/
theorem step_cases (h : step slack junk s e = some s') :
    (s'.phase = s.phase ∧ s'.mac = s.mac) ∨
      (∃ k event, e = .session k event ∧ s.phase k = event.before ∧
        s' = (s.effect k event).goTo k event.after) ∨
      ∃ m, s.acceptor = .spawning m ∧ s' = s.spawn m := by
  rcases step_eq h with hsession | ⟨destination, bytes, -, rfl⟩ | ⟨notices, queue, -, -, rfl⟩ |
    ⟨-, -, hphase | hspawn⟩
  · exact .inr (.inl hsession)
  · exact .inl ⟨rfl, rfl⟩
  · exact .inl ⟨rfl, rfl⟩
  · exact .inl hphase
  · exact .inr (.inr hspawn)

/-- A connection keeps its device. -/
theorem step_mac (hs : Claimed s) (h : step slack junk s e = some s') (hk : s.phase k ≠ .absent) :
    s'.mac k = s.mac k := by
  rcases step_cases h with ⟨-, hmac⟩ | ⟨j, event, -, -, rfl⟩ | ⟨m, -, rfl⟩
  · rw [hmac]
  · rw [goTo_mac, effect_mac]
  · exact Function.update_of_ne (hs.lt_count hk).ne ..

theorem step_phase (hs : Claimed s) (h : step slack junk s e = some s') (hk : s.phase k ≠ .absent) :
    s'.phase k = s.phase k ∨
      ∃ event, e = .session k event ∧ s.phase k = event.before ∧ s'.phase k = event.after := by
  rcases step_cases h with ⟨hphase, -⟩ | ⟨j, event, rfl, hj, rfl⟩ | ⟨m, -, rfl⟩
  · exact .inl (congrFun hphase k)
  · rw [goTo_phase, effect_phase]
    rcases update_eq_or s.phase j k event.after with ⟨rfl, hself⟩ | ⟨-, hother⟩
    · exact .inr ⟨event, rfl, hj, hself⟩
    · exact .inl hother
  · exact .inl (Function.update_of_ne (hs.lt_count hk).ne ..)

/-- A connection that is new was about to be made. -/
theorem step_made (h : step slack junk s e = some s') (hk : s.phase k = .absent)
    (hk' : s'.phase k ≠ .absent) : s.acceptor = .spawning (s'.mac k) := by
  rcases step_cases h with ⟨hphase, -⟩ | ⟨j, event, -, hj, rfl⟩ | ⟨m, hspawning, rfl⟩
  · exact absurd (hphase ▸ hk) hk'
  · rw [goTo_phase, effect_phase] at hk'
    rcases update_eq_or s.phase j k event.after with ⟨rfl, -⟩ | ⟨-, hother⟩
    · exact absurd (hj.symm.trans hk) (SessionEvent.before_ne_absent event)
    · exact absurd (hother.trans hk) hk'
  · rcases update_eq_or s.phase s.count k .connecting with ⟨rfl, -⟩ | ⟨-, hother⟩
    · rw [hspawning]
      exact congrArg AcceptorPhase.spawning (Function.update_self s.count m s.mac).symm
    · exact absurd (hother.trans hk) hk'

/-- The device has no connection from the `n`-th on. -/
def NoneMade (n : Nat) (m : List UInt8) (s : BLESystem) : Prop :=
  ∀ k, n ≤ k → s.phase k ≠ .absent → s.mac k ≠ m

theorem NoneMade.step (hs : Claimed s) {n : Nat} (hnone : NoneMade n m s)
    (hacceptor : s.acceptor ≠ .spawning m) (h : step slack junk s e = some s') :
    NoneMade n m s' := by
  intro k hn hk' hmac
  by_cases hk : s.phase k = .absent
  · exact hacceptor (hmac ▸ step_made h hk hk')
  · exact hnone k hn hk ((step_mac hs h hk).symm.trans hmac)

theorem NoneMade.count (hs : Claimed s) (m : List UInt8) : NoneMade s.count m s :=
  fun k hn hk => absurd (hs.fresh k hn) hk

theorem step_abandoned (hs : Claimed s) (hk : s.phase k = .abandoned)
    (h : step slack junk s e = some s') : s'.phase k = .abandoned := by
  rcases step_phase hs h (k := k) (by rw [hk]; simp) with hphase | ⟨event, -, hbefore, -⟩
  · rw [hphase, hk]
  · rw [hk] at hbefore
    cases event <;> cases hbefore

/-- A device whose MAC was empty when its connection asked for it stays marked, and never gets
another connection. -/
theorem run_abandoned {now : Int} (h : run (step slack junk) (start now) es = some s)
    (hk : s.phase k = .abandoned) (h' : run (step slack junk) s is = some s') :
    s'.isConnectionInProgress (s.mac k) = true ∧
      ∀ j, s.count ≤ j → s'.phase j ≠ .absent → s'.mac j ≠ s.mac k := by
  have hs := reachable_claimed h
  have hstep (t : BLESystem) (e : BLEEvent) (t' : BLESystem)
      (ht : Claimed t ∧ t.phase k = .abandoned ∧ t.mac k = s.mac k ∧ NoneMade s.count (s.mac k) t)
        (_ : True)
      (hstep : step slack junk t e = some t') :
      Claimed t' ∧ t'.phase k = .abandoned ∧ t'.mac k = s.mac k ∧
        NoneMade s.count (s.mac k) t' := by
    obtain ⟨ht, hk, hmac, hnone⟩ := ht
    have hacceptor : t.acceptor ≠ .spawning (s.mac k) :=
      fun h => ht.spawning _ h k (by rw [hk]; trivial) hmac
    exact ⟨step_claimed ht hstep, step_abandoned ht hk hstep,
      (step_mac ht hstep (by rw [hk]; simp)).trans hmac, hnone.step ht hacceptor hstep⟩
  obtain ⟨hs', hk', hmac, hnone⟩ := run_inv hstep ⟨hs, hk, rfl, .count hs _⟩ (fun _ _ => trivial) h'
  exact ⟨(hs'.flag _).2 (.inr ⟨k, by rw [hk']; trivial, hmac⟩), hnone⟩

theorem run_abandoned_connected : ∃ s s',
    run (step 1 (Record.zero 6)) (start 0) (connected ++ [.session 0 (.name true)]) = some s ∧
      run (step 1 (Record.zero 6)) s [.look BLESocket.sensor.mac false] = some s' ∧
      s'.isConnectionInProgress (s.mac 0) = true := by
  have h : run (step 1 (Record.zero 6)) (start 0) (connected ++ [.session 0 (.name true)]) =
      some _ := rfl
  exact ⟨_, _, h, rfl, (run_abandoned h rfl
    (show run (step 1 (Record.zero 6)) _ [.look BLESocket.sensor.mac false] = some _ from rfl)).1⟩

/-- The clock has not gone back. -/
def Dated (s : BLESystem) : Prop := ∀ m, ∀ d ∈ s.deviceStatistics m, d.counts.lastChanged ≤ s.now

theorem lastChanged_apply {now : Int} {counts : BLEDeviceStatistic} (h : counts.lastChanged ≤ now)
    (method : StatisticMethod) : (counts.apply now method).lastChanged ≤ now := by
  cases method with
  | isFaulty =>
    unfold BLEDeviceStatistic.apply BLEDeviceStatistic.isFaulty
    dsimp only
    split_ifs
    · exact le_refl now
    · exact h
  | incrementConnectFailed | incrementServiceFailed | reset => exact le_refl now

theorem Dated.statistic (hs : Dated s) (m : List UInt8) (method : StatisticMethod) :
    Dated (s.statistic m method) := by
  intro m' d hd
  unfold BLESystem.statistic at hd
  dsimp only at hd
  by_cases h : m' = m
  · rw [h, Function.update_self] at hd
    obtain ⟨d', hd', rfl⟩ := Option.mem_map.1 hd
    exact lastChanged_apply (hs m d' hd') method
  · rw [Function.update_of_ne h] at hd
    exact hs m' d hd

theorem Dated.set (hs : Dated s) (m : List UInt8) (value : Bool) :
    Dated (s.setConnectionInProgress m value) := by
  intro m' d hd
  unfold setConnectionInProgress at hd
  dsimp only at hd
  by_cases h : m' = m
  · rw [h, Function.update_self] at hd
    obtain ⟨d', hd', rfl⟩ := Option.mem_map.1 hd
    exact hs m d' hd'
  · rw [Function.update_of_ne h] at hd
    exact hs m' d hd

theorem Dated.effect (hs : Dated s) (k : Nat) (event : SessionEvent) :
    Dated (s.effect k event) := by
  cases event with
  | connect ok => cases ok; exacts [hs.statistic _ _, hs]
  | discover nus =>
    unfold BLESystem.effect
    dsimp only
    split
    · exact hs
    · exact hs.statistic _ _
  | message msg => unfold BLESystem.effect addBLEMessage; dsimp only; split <;> exact hs
  | giveUp | unset => exact hs.set _ _
  | reset => exact hs.statistic _ _
  | name | add | close | disconnect | remove | exit => exact hs

theorem step_dated (hs : Dated s) (h : step slack junk s e = some s') : Dated s' := by
  cases e with
  | tick elapsed =>
    cases h
    exact fun m d hd => (hs m d hd).trans (by simp)
  | look m broken =>
    rw [step] at h
    split_ifs at h
    cases h
    unfold BLESystem.look
    split_ifs
    · exact hs
    · cases hfound : s.deviceStatistics m with
      | none =>
        intro m' d hd
        dsimp only at hd
        by_cases h : m' = m
        · rw [h, Function.update_self, Option.mem_some_iff] at hd
          subst hd
          exact le_refl s.now
        · rw [Function.update_of_ne h] at hd
          exact hs m' d hd
      | some d => dsimp only; split_ifs <;> exact hs
  | askFaulty =>
    rw [step] at h
    split at h
    · cases h; exact hs.statistic _ .isFaulty
    · cases h
  | setInProgress =>
    rw [step] at h
    split at h
    · cases h; exact hs.set _ true
    · cases h
  | spawn =>
    rw [step] at h
    split at h
    · cases h; exact hs
    · cases h
  | session k event =>
    rw [step] at h
    split_ifs at h
    cases h
    exact hs.effect k event
  | send destination bytes => cases h; exact hs
  | loop =>
    obtain ⟨notices, queue, -, rfl⟩ := loop_eq h
    exact hs

/-- The counts keep the device from being connected, and nothing is under way. -/
structure GivenUp (m : List UInt8) (s : BLESystem) : Prop where
  faulty : ∃ d, s.deviceStatistics m = some d ∧
    (3 < d.counts.connectFailed ∨ 3 < d.counts.serviceFailed)
  idle : s.isConnectionInProgress m = false
  acceptor : s.acceptor ≠ .starting m

theorem effect_deviceStatistics {event : SessionEvent} (h : s.mac k ≠ m ∨ ¬ event.before.Claims) :
    (s.effect k event).deviceStatistics m = s.deviceStatistics m := by
  rcases h with hne | hclaims
  · have hstatistic (method : StatisticMethod) : (s.statistic (s.mac k) method).deviceStatistics m =
      s.deviceStatistics m :=
      Function.update_of_ne hne.symm ..
    have hset (value : Bool) : (s.setConnectionInProgress (s.mac k) value).deviceStatistics m =
      s.deviceStatistics m :=
      Function.update_of_ne hne.symm ..
    cases event with
    | connect ok => cases ok; exacts [hstatistic _, rfl]
    | discover nus =>
      unfold BLESystem.effect
      dsimp only
      split
      · rfl
      · exact hstatistic _
    | message msg => unfold BLESystem.effect addBLEMessage; dsimp only; split <;> rfl
    | giveUp | unset => exact hset false
    | reset => exact hstatistic _
    | name | add | close | disconnect | remove | exit => rfl
  · cases event <;> first | rfl | exact absurd trivial hclaims

theorem step_given_up (hs : Claimed s) (hdated : Dated s) (hgiven : GivenUp m s)
    (h : step slack junk s e = some s') : GivenUp m s' := by
  obtain ⟨d, hd, hfaulty⟩ := hgiven.faulty
  have hsame (hstatistics : s'.deviceStatistics m = s.deviceStatistics m)
    (hacceptor : s'.acceptor ≠ .starting m) : GivenUp m s' := by
    refine ⟨⟨d, hstatistics.trans hd, hfaulty⟩, ?_, hacceptor⟩
    rw [isConnectionInProgress, hstatistics]
    exact hgiven.idle
  cases e with
  | tick elapsed => cases h; exact hsame rfl hgiven.acceptor
  | look m' broken =>
    rw [step] at h
    split_ifs at h
    cases h
    unfold BLESystem.look at hsame ⊢
    split_ifs at hsame ⊢
    · exact hsame rfl hgiven.acceptor
    · cases hfound : s.deviceStatistics m' with
      | none =>
        rw [hfound] at hsame
        have hne : m ≠ m' := by rintro rfl; rw [hd] at hfound; cases hfound
        exact hsame (Function.update_of_ne hne ..) hgiven.acceptor
      | some d' =>
        rw [hfound] at hsame
        dsimp only at hsame ⊢
        split_ifs at hsame ⊢
        · exact hsame rfl hgiven.acceptor
        · exact hsame rfl (by simp)
  | askFaulty =>
    rw [step] at h
    split at h
    · next m' hchecked =>
      cases h
      by_cases hm : m = m'
      · -- the clearing of the counts is never due, so the answer is yes
        subst hm
        have hcounts := StatisticRun.isFaulty_eq (hdated m d hd)
        refine hsame ?_ ?_
        · show Function.update s.deviceStatistics m _ m = _
          rw [Function.update_self, hd, Option.map_some, BLEDeviceStatistic.apply, hcounts]
        · unfold BLESystem.askFaulty
          dsimp only
          rw [hd, Option.any_some, hcounts, if_pos (by simpa using hfaulty)]
          simp
      · refine hsame (Function.update_of_ne hm ..) ?_
        unfold BLESystem.askFaulty
        dsimp only
        split
        · simp
        · exact fun h => hm (AcceptorPhase.starting.inj h).symm
    · cases h
  | setInProgress =>
    rw [step] at h
    split at h
    · next m' hstarting =>
      cases h
      have hne : m ≠ m' := by rintro rfl; exact hgiven.acceptor hstarting
      exact hsame (Function.update_of_ne hne ..) (by simp)
    · cases h
  | spawn =>
    rw [step] at h
    split at h
    · cases h; exact hsame rfl (by simp [BLESystem.spawn])
    · cases h
  | session k event =>
    rw [step] at h
    split_ifs at h with hk
    cases h
    refine hsame (effect_deviceStatistics ?_)
      (by rw [goTo_acceptor, effect_acceptor]; exact hgiven.acceptor)
    by_cases hclaims : event.before.Claims
    · exact .inl (hs.no_claims hgiven.idle k (hk ▸ hclaims))
    · exact .inr hclaims
  | send destination bytes => cases h; exact hsame rfl hgiven.acceptor
  | loop =>
    obtain ⟨notices, queue, -, rfl⟩ := loop_eq h
    exact hsame rfl hgiven.acceptor

/-- A device that is about to be connected has not failed too often. -/
def Permitted (s : BLESystem) : Prop :=
  ∀ m, s.acceptor = .starting m → ∀ d ∈ s.deviceStatistics m,
    ¬ (3 < d.counts.connectFailed ∨ 3 < d.counts.serviceFailed)

theorem step_permitted (hs : Claimed s) (hdated : Dated s) (hpermitted : Permitted s)
    (h : step slack junk s e = some s') : Permitted s' := by
  have hnot (hacceptor : ∀ m, s'.acceptor ≠ .starting m) : Permitted s' :=
    fun m hm => absurd hm (hacceptor m)
  cases e with
  | tick elapsed => cases h; exact hpermitted
  | look m' broken =>
    rw [step] at h
    split_ifs at h with hnext
    cases h
    refine hnot fun m => ?_
    unfold BLESystem.look
    split_ifs
    · simp [hnext]
    · cases s.deviceStatistics m' with
      | none => simp [hnext]
      | some d => dsimp only; split_ifs <;> simp [hnext]
  | askFaulty =>
    rw [step] at h
    split at h
    · next m' hchecked =>
      cases h
      intro m hm d hd
      unfold BLESystem.askFaulty at hm hd
      dsimp only at hm hd
      split_ifs at hm with hanswer
      obtain rfl : m' = m := AcceptorPhase.starting.inj hm
      -- the clearing of the counts is never due, so the answer tells the counts
      unfold BLESystem.statistic at hd
      dsimp only at hd
      rw [Function.update_self] at hd
      obtain ⟨d', hd', rfl⟩ := Option.mem_map.1 hd
      have hcounts := StatisticRun.isFaulty_eq (hdated m' d' hd')
      rw [Option.mem_def.1 hd', Option.any_some, hcounts] at hanswer
      dsimp only
      rw [BLEDeviceStatistic.apply, hcounts]
      simpa using hanswer
    · cases h
  | setInProgress =>
    rw [step] at h
    split at h
    · cases h; exact hnot fun m => by simp
    · cases h
  | spawn =>
    rw [step] at h
    split at h
    · cases h; exact hnot fun m => by simp [BLESystem.spawn]
    · cases h
  | session k event =>
    rw [step] at h
    split_ifs at h with hk
    cases h
    intro m hm d hd
    rw [goTo_acceptor, effect_acceptor] at hm
    have hsame : (s.effect k event).deviceStatistics m = s.deviceStatistics m := by
      refine effect_deviceStatistics ?_
      by_cases hclaims : event.before.Claims
      · exact .inl (hs.no_claims (hs.pending m (.inr hm)).2 k (hk ▸ hclaims))
      · exact .inr hclaims
    exact hpermitted m hm d (hsame ▸ hd)
  | send destination bytes => cases h; exact hpermitted
  | loop =>
    obtain ⟨notices, queue, -, rfl⟩ := loop_eq h
    exact hpermitted

/-- A device with more than three failures is left alone for good, however much time goes by: from
any point at which it has no connection under way, it never gets another one. -/
theorem run_given_up {now : Int} (h : run (step slack junk) (start now) es = some s)
    {d : DeviceStatistic} (hd : s.deviceStatistics m = some d)
    (hfaulty : 3 < d.counts.connectFailed ∨ 3 < d.counts.serviceFailed)
    (hidle : d.connectionInProgress = false) (h' : run (step slack junk) s is = some s') :
    ∀ k, s.count ≤ k → s'.phase k ≠ .absent → s'.mac k ≠ m := by
  have hstart (s : BLESystem) (e : BLEEvent) (s' : BLESystem) (hs : Claimed s ∧ Dated s ∧
    Permitted s) (_ : True)
      (h : step slack junk s e = some s') : Claimed s' ∧ Dated s' ∧ Permitted s' :=
    ⟨step_claimed hs.1 h, step_dated hs.2.1 h, step_permitted hs.1 hs.2.1 hs.2.2 h⟩
  obtain ⟨hclaimed, hdated, hpermitted⟩ :=
    run_inv hstart ⟨.start now, (fun m d hd => by cases hd), fun m hm => by cases hm⟩
      (fun _ _ => trivial) h
  have hstep (t : BLESystem) (e : BLEEvent) (t' : BLESystem)
      (ht : Claimed t ∧ Dated t ∧ GivenUp m t ∧ NoneMade s.count m t) (_ : True)
      (h : step slack junk t e = some t') : Claimed t' ∧ Dated t' ∧ GivenUp m t' ∧
        NoneMade s.count m t' := by
    obtain ⟨ht, hdated, hgiven, hnone⟩ := ht
    have hspawning : t.acceptor ≠ .spawning m := fun h => by
      have hflag := (ht.flag m).2 (.inl h)
      rw [hgiven.idle] at hflag
      cases hflag
    exact ⟨step_claimed ht h, step_dated hdated h, step_given_up ht hdated hgiven h,
      hnone.step ht hspawning h⟩
  have hgiven : GivenUp m s :=
    ⟨⟨d, hd, hfaulty⟩, by rw [isConnectionInProgress, hd]; exact hidle, fun hm =>
      hpermitted m hm d hd hfaulty⟩
  exact (run_inv hstep ⟨hclaimed, hdated, hgiven, .count hclaimed m⟩ (fun _ _ => trivial) h').2.2.2

def failure (k : Nat) : List BLEEvent :=
  [.look BLESocket.sensor.mac false, .askFaulty, .setInProgress, .spawn,
    .session k (.connect false), .session k .giveUp]

theorem run_given_up_failures : ∃ s s',
    run (step 1 (Record.zero 6)) (start 0)
      (.look BLESocket.sensor.mac false :: (List.range 4).flatMap failure) = some s ∧
      run (step 1 (Record.zero 6)) s [.tick 1000000000000, .look BLESocket.sensor.mac false,
        .askFaulty] = some s' ∧
      ∀ k, s.count ≤ k → s'.phase k ≠ .absent → s'.mac k ≠ BLESocket.sensor.mac := by
  have h : run (step 1 (Record.zero 6)) (start 0)
    (.look BLESocket.sensor.mac false :: (List.range 4).flatMap failure) = some _ := rfl
  exact ⟨_, _, h, rfl, run_given_up h (d := ⟨⟨4, 0, 0⟩, false⟩) rfl (.inl (by decide)) rfl
    (show run (step 1 (Record.zero 6)) _ [.tick 1000000000000, .look BLESocket.sensor.mac false,
      .askFaulty] = some _
      from rfl)⟩

end BLESystem

end SnGateway
