import SnGateway.BleSessions

/-!
# What the BLE socket sends and receives

What is sent to a device reaches the connection that serves it as long as no disconnect throws
(`run_reaches`); otherwise the entry of the connection before may be in the way (`run_reached_iff`).
What is received is handed over in order (`run_messages`), and with a byte to spare behind `tmp_mac`
the handing over always has a result.
-/

namespace SnGateway
open Run Threads FirstMatch RecordStore

namespace BLESystem

variable {s s' : BLESystem} {slack : Nat} {junk : DeviceAddress} {e : BLEEvent}
    {es is : List BLEEvent} {j k : Nat} {m : List UInt8}

/-! ### The connections in the map -/

theorem effect_bleConnections {event : SessionEvent} (hadd : event ≠ .add)
    (hremove : event ≠ .remove) : (s.effect k event).bleConnections = s.bleConnections := by
  cases event with
  | connect ok => cases ok <;> rfl
  | discover nus => unfold effect; dsimp only; split <;> rfl
  | message msg => unfold effect addBLEMessage; dsimp only; split <;> rfl
  | add => exact absurd rfl hadd
  | remove => exact absurd rfl hremove
  | giveUp | name | reset | close | disconnect | unset | exit => rfl

/-- What a step does to the map. -/
theorem step_map (h : step slack junk s e = some s') :
    (∃ k, e = .session k .add ∧ s'.bleConnections = BLESocket.addBLEConnection s.bleConnections
      (s.connection k)) ∨
      (∃ k, e = .session k .remove ∧ s'.bleConnections = BLESocket.removeBLEConnection
        s.bleConnections (s.mac k)) ∨
      (∃ destination bytes, e = .send destination bytes ∧
        s'.bleConnections = (BLESocket.send s.alive s.bleConnections destination bytes).2.2) ∨
      s'.bleConnections = s.bleConnections ∧ ∀ k, e ≠ .session k .add ∧ e ≠ .session k .remove := by
  rcases step_eq h with ⟨k, event, rfl, -, rfl⟩ | ⟨destination, bytes, rfl, rfl⟩ |
    ⟨notices, queue, rfl, -, rfl⟩ |
    ⟨hs', hne, -⟩
  · by_cases hadd : event = .add
    · subst hadd; exact .inl ⟨k, rfl, rfl⟩
    by_cases hremove : event = .remove
    · subst hremove; exact .inr (.inl ⟨k, rfl, rfl⟩)
    refine .inr
      (.inr (.inr ⟨effect_bleConnections hadd hremove, fun j => ⟨fun h => ?_, fun h => ?_⟩⟩))
    · cases h; exact hadd rfl
    · cases h; exact hremove rfl
  · exact .inr (.inr (.inl ⟨destination, bytes, rfl, rfl⟩))
  · exact .inr (.inr (.inr ⟨rfl, fun _ => ⟨by simp, by simp⟩⟩))
  · exact .inr (.inr (.inr ⟨by rw [hs'], fun k => ⟨hne k .add, hne k .remove⟩⟩))

theorem lookup_send (alive : BLEConnection → Bool) (bleConnections : List BLEConnection)
    (destination : DeviceAddress) (bytes mac : List UInt8) :
    lookup BLEConnection.mac mac (BLESocket.send alive bleConnections destination bytes).2.2 =
      if mac = BLESocket.getMacFromDeviceAddress destination then
        (lookup BLEConnection.mac mac bleConnections).filter alive
      else lookup BLEConnection.mac mac bleConnections := by
  unfold BLESocket.send
  dsimp only
  cases hfound : lookup BLEConnection.mac (BLESocket.getMacFromDeviceAddress destination)
    bleConnections with
  | none =>
    dsimp only
    split_ifs with hmac
    · rw [hmac, hfound, Option.filter_none]
    · rfl
  | some c =>
    dsimp only
    by_cases hc : alive c = true
    · rw [if_pos hc]
      split_ifs with hmac
      · rw [hmac, hfound, Option.filter_some, if_pos hc]
      · rfl
    · rw [if_neg hc, lookup_filter_ne]
      split_ifs with hmac
      · rw [hmac, hfound, Option.filter_some, if_neg hc]
      · rfl

/-- The entry under the MAC of the connection is the connection. -/
def Reached (s : BLESystem) (k : Nat) : Prop :=
  lookup BLEConnection.mac (s.mac k) s.bleConnections = some (s.connection k)

theorem Claimed.mac_ne (hs : Claimed s) (hj : (s.phase j).Claims) (hk : (s.phase k).Claims)
    (hne : j ≠ k) :
    s.mac j ≠ s.mac k := fun h => hne (hs.unique j k hj hk h)

/-- As long as a connection is registered, whether it is reached does not change. -/
theorem step_reached (hs : Claimed s) (h : step slack junk s e = some s')
    (hk : (s.phase k).Registered) (hk' : (s'.phase k).Registered) : Reached s' k ↔ Reached s k := by
  have hmac : s'.mac k = s.mac k := step_mac hs h fun h => by rw [h] at hk; exact hk
  have hconnection : s'.connection k = s.connection k := by rw [connection, hmac]; rfl
  unfold Reached
  rw [hconnection, hmac]
  rcases step_map h with ⟨j, rfl, hmap⟩ | ⟨j, rfl, hmap⟩ | ⟨destination, bytes, rfl, hmap⟩ |
    ⟨hmap, -⟩ <;> rw [hmap]
  · have hj : s.phase j = .adding := by
      rw [step] at h
      split_ifs at h with hj
      exact hj
    have hne : j ≠ k := by rintro rfl; rw [hj] at hk; exact hk
    have hkey : s.mac j ≠ s.mac k := hs.mac_ne (hj ▸ trivial) hk.claims hne
    rw [BLESocket.addBLEConnection, lookup_insertNew, lookup_append]
    rw [show lookup BLEConnection.mac (s.mac k) [s.connection j] = none from
      lookup_eq_none_iff.2 fun c hc => by rw [List.mem_singleton.1 hc]; exact hkey, Option.or_none]
  · have hj : s.phase j = .removing := by
      rw [step] at h
      split_ifs at h with hj
      exact hj
    have hne : j ≠ k := by
      rintro rfl
      cases h.symm.trans (if_pos hj)
      rw [goTo_phase, Function.update_self] at hk'
      exact hk'
    rw [BLESocket.lookup_removeBLEConnection, if_neg (hs.mac_ne (hj ▸ trivial) hk.claims hne).symm]
  · rw [lookup_send]
    split_ifs with hdest
    · -- the entry of a connection that is alive is not erased
      rw [Option.filter_eq_some_iff]
      exact and_iff_left hk.alive
    · rfl

/-- Each entry is that of a connection in one of the phases `P`, under its MAC. -/
def Entries (P : ConnectionPhase → Prop) (s : BLESystem) : Prop :=
  ∀ c ∈ s.bleConnections, P (s.phase c.pointer) ∧ c = s.connection c.pointer

theorem mem_send {alive : BLEConnection → Bool} {bleConnections : List BLEConnection}
    {destination : DeviceAddress} {bytes : List UInt8} {c : BLEConnection}
    (h : c ∈ (BLESocket.send alive bleConnections destination bytes).2.2) : c ∈ bleConnections := by
  unfold BLESocket.send at h
  dsimp only at h
  split at h
  · exact h
  · split_ifs at h
    · exact h
    · exact (List.mem_filter.1 h).1

/-- `Ok` are the events that are allowed. They keep the phases, a removal apart. -/
theorem step_entries {P : ConnectionPhase → Prop} (Ok : SessionEvent → Prop) (habsent : ¬ P .absent)
    (hserving : P .serving)
    (hkept : ∀ event, Ok event → event ≠ .remove → P event.before → P event.after) (hs : Claimed s)
    (hentries : Entries P s) (hok : ∀ k event, e = .session k event → Ok event)
    (h : step slack junk s e = some s') : Entries P s' := by
  have hold (c : BLEConnection) (hc : c ∈ s.bleConnections) (hne : ∀ k, e = .session k .remove →
    c.pointer ≠ k) : P (s'.phase c.pointer) ∧ c = s'.connection c.pointer := by
    obtain ⟨hp, hconnection⟩ := hentries c hc
    have hpresent : s.phase c.pointer ≠ .absent := fun h => habsent (h ▸ hp)
    refine ⟨?_, by rw [connection, step_mac hs h hpresent]; exact hconnection⟩
    rcases step_phase hs h hpresent with hphase | ⟨event, rfl, hbefore, hafter⟩
    · rwa [hphase]
    · rw [hafter]
      have hremove : event ≠ .remove := by rintro rfl; exact hne c.pointer rfl rfl
      exact hkept event (hok c.pointer event rfl) hremove (hbefore ▸ hp)
  intro c hc
  rcases step_map h with ⟨k, rfl, hmap⟩ | ⟨k, rfl, hmap⟩ | ⟨destination, bytes, rfl, hmap⟩ |
    ⟨hmap, hne⟩ <;>
    rw [hmap] at hc
  · rcases mem_insertNew hc with hc | rfl
    · exact hold c hc (by simp)
    · rw [step] at h
      split_ifs at h
      cases h
      refine ⟨?_, by rw [connection, connection, goTo_mac, effect_mac]⟩
      show P (Function.update (s.effect k .add).phase k SessionEvent.add.after k)
      rw [Function.update_self]
      exact hserving
  · obtain ⟨hmem, hmac⟩ := List.mem_filter.1 hc
    refine hold c hmem fun j hj => ?_
    rintro rfl
    cases hj
    rw [(hentries c hmem).2] at hmac
    simp [connection] at hmac
  · exact hold c (mem_send hc) (by simp)
  · exact hold c hc fun k hk => absurd hk (hne k).2

/-! ### What is sent to a device -/

/-- What is sent to an address goes to the connection that its MAC has in the map, if that is still
there. -/
theorem send_eq (alive : BLEConnection → Bool) (bleConnections : List BLEConnection)
    (destination : DeviceAddress) (bytes : List UInt8) :
    (BLESocket.send alive bleConnections destination bytes).2.1 =
      (((lookup BLEConnection.mac (BLESocket.getMacFromDeviceAddress destination)
        bleConnections).filter alive).map
        fun c => (c, bytes)).toList := by
  unfold BLESocket.send
  dsimp only
  cases lookup BLEConnection.mac (BLESocket.getMacFromDeviceAddress destination) bleConnections with
  | none => rfl
  | some c =>
    dsimp only
    by_cases hc : alive c = true
    · rw [if_pos hc, Option.filter_some, if_pos hc]; rfl
    · rw [if_neg hc, Option.filter_some, if_neg hc]; rfl

theorem send_iff_reached {destination : DeviceAddress} (hk : (s.phase k).Registered)
    (hdest : BLESocket.getMacFromDeviceAddress destination = s.mac k) (bytes : List UInt8) :
    (BLESocket.send s.alive s.bleConnections destination bytes).2.1 = [(s.connection k, bytes)] ↔
      Reached s k := by
  rw [send_eq, hdest, Reached]
  cases lookup BLEConnection.mac (s.mac k) s.bleConnections with
  | none => simp
  | some c =>
    rw [Option.filter_some]
    constructor
    · intro h
      split_ifs at h
      · simpa using h
      · cases h
    · intro h
      obtain rfl : c = s.connection k := by simpa using h
      rw [if_pos (show s.alive (s.connection k) = true from hk.alive)]
      rfl

/-- An entry is that of a connection that is registered, or was and is over. -/
theorem reachable_entries {now : Int} (h : run (step slack junk) (start now) es = some s) :
    Entries (fun p => p.Registered ∨ p.Over) s := by
  have hkept (event : SessionEvent) (_ : True) (_ : event ≠ .remove)
      (hbefore : event.before.Registered ∨ event.before.Over) : event.after.Registered ∨
        event.after.Over := by
    cases event with
    | disconnect throws =>
      cases throws <;> simp [SessionEvent.after, ConnectionPhase.Registered, ConnectionPhase.Over]
    | message | close | remove | unset | exit =>
      simp [SessionEvent.after, ConnectionPhase.Registered, ConnectionPhase.Over]
    | connect | discover | giveUp | name | reset | add =>
      simp [SessionEvent.before, ConnectionPhase.Registered, ConnectionPhase.Over] at hbefore
  have hstep (s : BLESystem) (e : BLEEvent) (s' : BLESystem)
      (hs : Claimed s ∧ Entries (fun p => p.Registered ∨ p.Over) s) (_ : True)
        (h : step slack junk s e = some s') :
      Claimed s' ∧ Entries (fun p => p.Registered ∨ p.Over) s' :=
    ⟨step_claimed hs.1 h,
      step_entries (fun _ => True) (by simp [ConnectionPhase.Registered, ConnectionPhase.Over])
      (.inl trivial) hkept hs.1 hs.2 (fun _ _ _ => trivial) h⟩
  exact (run_inv hstep ⟨.start now, fun c hc => by cases hc⟩ (fun _ _ => trivial) h).2

/-- The entry of another connection that is left in the map keeps a new one out of it. -/
theorem reached_add (hentries : Entries (fun p => p.Registered ∨ p.Over) s)
    (hk : s.phase k = .adding) :
    Reached ((s.effect k .add).goTo k .serving) k ↔
      lookup BLEConnection.mac (s.mac k) s.bleConnections = none := by
  show lookup BLEConnection.mac (s.mac k)
    (BLESocket.addBLEConnection s.bleConnections (s.connection k)) =
      some (s.connection k) ↔ _
  rw [BLESocket.addBLEConnection, lookup_insertNew, lookup_append]
  cases hfound : lookup BLEConnection.mac (s.mac k) s.bleConnections with
  | none => simp [lookup, connection]
  | some c =>
    refine iff_of_false (fun h => ?_) (by simp)
    obtain rfl : c = s.connection k := by simpa using h
    have hphase := (hentries _ (mem_of_lookup hfound)).1
    rw [show s.phase (s.connection k).pointer = .adding from hk] at hphase
    simp [ConnectionPhase.Registered, ConnectionPhase.Over] at hphase

theorem step_over (hs : Claimed s) (h : step slack junk s e = some s')
    (hk : (s.phase k).Registered ∨ (s.phase k).Over) :
    (s.phase k).Registered ∧ (s'.phase k).Registered ∨ (s'.phase k).Over := by
  have hpresent : s.phase k ≠ .absent := by
    intro h
    rw [h] at hk
    exact hk.elim id id
  rcases step_phase hs h hpresent with hphase | ⟨event, -, hbefore, hafter⟩
  · rw [hphase]
    exact hk.imp_left fun hk => ⟨hk, hk⟩
  · rw [hbefore] at hk ⊢
    rw [hafter]
    cases event with
    | disconnect throws =>
      cases throws <;> simp [SessionEvent.before, SessionEvent.after, ConnectionPhase.Registered,
        ConnectionPhase.Over]
    | message | close | remove | unset | exit =>
      simp [SessionEvent.before, SessionEvent.after, ConnectionPhase.Registered,
        ConnectionPhase.Over]
    | connect | discover | giveUp | name | reset | add =>
      simp [SessionEvent.before, ConnectionPhase.Registered, ConnectionPhase.Over] at hk

/-- What is sent to a device reaches the connection that serves it, for as long as that is
registered, if and only if the map had no entry for the device when the connection was added. Such
an entry is that of a connection that has come to its end without being removed. -/
theorem run_reached_iff {now : Int} (h : run (step slack junk) (start now) es = some s)
    (hk : s.phase k = .adding) (h' : run (step slack junk) s (.session k .add :: is) = some s')
    (hreg : (s'.phase k).Registered) {destination : DeviceAddress}
    (hdest : BLESocket.getMacFromDeviceAddress destination = s'.mac k) (bytes : List UInt8) :
    ((BLESocket.send s'.alive s'.bleConnections destination bytes).2.1 =
      [(s'.connection k, bytes)] ↔
      lookup BLEConnection.mac (s.mac k) s.bleConnections = none) ∧
    ∀ c, lookup BLEConnection.mac (s.mac k) s.bleConnections = some c →
      s.phase c.pointer = .ending ∨ s.phase c.pointer = .gone := by
  have hs := reachable_claimed h
  have hentries := reachable_entries h
  constructor
  · obtain ⟨t, ht, h'⟩ := run_cons.1 h'
    have hadded : t = (s.effect k .add).goTo k .serving := by
      rw [step] at ht
      split_ifs at ht
      cases ht
      rfl
    have hstep (t : BLESystem) (e : BLEEvent) (t' : BLESystem)
        (ht : Claimed t ∧ ((t.phase k).Registered ∧
          (Reached t k ↔ lookup BLEConnection.mac (s.mac k) s.bleConnections = none) ∨
          (t.phase k).Over)) (_ : True)
        (hstep : step slack junk t e = some t') :
        Claimed t' ∧ ((t'.phase k).Registered ∧
          (Reached t' k ↔ lookup BLEConnection.mac (s.mac k) s.bleConnections = none) ∨
          (t'.phase k).Over) := by
      refine ⟨step_claimed ht.1 hstep, ?_⟩
      rcases step_over ht.1 hstep (ht.2.imp_left And.left) with ⟨hreg, hreg'⟩ | hover
      · rcases ht.2 with ⟨-, hreached⟩ | hover
        · exact .inl ⟨hreg', (step_reached ht.1 hstep hreg hreg').trans hreached⟩
        · exact absurd hover hreg.not_over
      · exact .inr hover
    have hstart : (t.phase k).Registered ∧
        (Reached t k ↔ lookup BLEConnection.mac (s.mac k) s.bleConnections = none) := by
      rw [hadded]
      exact ⟨by rw [goTo_phase, Function.update_self]; trivial, reached_add hentries hk⟩
    obtain ⟨-, ⟨-, hreached⟩ | hover⟩ :=
      run_inv hstep ⟨step_claimed hs ht, .inl hstart⟩ (fun _ _ => trivial) h'
    · exact (send_iff_reached hreg hdest bytes).trans hreached
    · exact absurd hover hreg.not_over
  · intro c hc
    obtain ⟨hphase, hconnection⟩ := hentries c (mem_of_lookup hc)
    have hmac : s.mac c.pointer = s.mac k :=
      (congrArg BLEConnection.mac hconnection).symm.trans (key_of_lookup hc)
    have hclaims : ¬ (s.phase c.pointer).Claims := fun hclaims => by
      have heq := hs.unique c.pointer k hclaims (by rw [hk]; trivial) hmac
      rw [heq, hk] at hphase
      exact hphase.elim id id
    generalize s.phase c.pointer = p at hphase hclaims ⊢
    cases p <;> simp [ConnectionPhase.Registered, ConnectionPhase.Over, ConnectionPhase.Claims]
      at hphase hclaims ⊢

/-- The connection is added, and a message comes in. -/
def served : List BLEEvent :=
  connected ++ [.session 0 (.name false), .session 0 .reset, .session 0 .add,
    .session 0 (.message [2, 22])]

def sensorAddress : DeviceAddress := ⟨[0xC4, 0x7C, 0x8D, 0x0A, 0, 0xFF], rfl⟩

/-- The disconnect of a first connection throws, and the next one is to be added. -/
def stale : List BLEEvent := served ++
  [.session 0 .close, .session 0 (.disconnect true), .session 0 .unset, .session 0 .exit,
    .look BLESocket.sensor.mac false,
    .askFaulty, .setInProgress, .spawn, .session 1 (.connect true),
    .session 1 (.discover ⟨true, true, [[2, 22]]⟩),
    .session 1 (.name false), .session 1 .reset]

theorem run_reached_iff_stale : ∃ s s', run (step 1 (Record.zero 6)) (start 0) stale = some s ∧
    run (step 1 (Record.zero 6)) s [.session 1 .add] = some s' ∧
      ((BLESocket.send s'.alive s'.bleConnections sensorAddress [2, 23]).2.1 =
        [(s'.connection 1, [2, 23])] ↔
        lookup BLEConnection.mac (s.mac 1) s.bleConnections = none) := by
  have h : run (step 1 (Record.zero 6)) (start 0) stale = some _ := rfl
  exact ⟨_, _, h, rfl, (run_reached_iff h rfl
    (show run (step 1 (Record.zero 6)) _ [.session 1 .add] = some _ from rfl) trivial
    (by decide +kernel) [2, 23]).1⟩

theorem step_entries_orderly (hs : Claimed s) (hentries : Entries ConnectionPhase.Registered s)
    (he : ∀ k, e ≠ .session k (.disconnect true)) (h : step slack junk s e = some s') :
    Entries ConnectionPhase.Registered s' := by
  refine step_entries (· ≠ .disconnect true) not_false trivial (fun event hne hremove hbefore => ?_)
    hs hentries
    (fun k event heq hevent => he k (heq.trans (by rw [hevent]))) h
  cases event with
  | disconnect throws => cases throws <;> trivial
  | remove => exact absurd rfl hremove
  | message | close => trivial
  | connect | discover | giveUp | name | reset | add | unset | exit => exact hbefore.elim

/-- A connection that is registered now was so before, or is added. -/
theorem step_registered (hs : Claimed s) (h : step slack junk s e = some s')
    (hk' : (s'.phase k).Registered) :
    (s.phase k).Registered ∨ s.phase k = .adding ∧ s' = (s.effect k .add).goTo k .serving := by
  by_cases hk : s.phase k = .absent
  · rcases step_cases h with ⟨hphase, -⟩ | ⟨j, event, -, hj, rfl⟩ | ⟨m, -, rfl⟩
    · rw [hphase, hk] at hk'; exact hk'.elim
    · have hne : k ≠ j := by
        rintro rfl
        exact SessionEvent.before_ne_absent event (hj.symm.trans hk)
      rw [goTo_phase, effect_phase, Function.update_of_ne hne, hk] at hk'
      exact hk'.elim
    · change (Function.update s.phase s.count .connecting k).Registered at hk'
      rcases update_eq_or s.phase s.count k .connecting with ⟨-, hself⟩ | ⟨-, hother⟩
      · rw [hself] at hk'; exact hk'.elim
      · rw [hother, hk] at hk'; exact hk'.elim
  · rcases step_phase hs h hk with hphase | ⟨event, rfl, hbefore, hafter⟩
    · exact .inl (hphase ▸ hk')
    · rw [hafter] at hk'
      cases event with
      | add =>
        rw [step, if_pos hbefore] at h
        cases h
        exact .inr ⟨hbefore, rfl⟩
      | message | close | disconnect => exact .inl (hbefore ▸ trivial)
      | connect ok => cases ok <;> exact hk'.elim
      | discover nus =>
        unfold SessionEvent.after at hk'
        dsimp only at hk'
        split_ifs at hk' <;> exact hk'.elim
      | name empty => cases empty <;> exact hk'.elim
      | giveUp | reset | remove | unset | exit => exact hk'.elim

/-- As long as no disconnect throws, what is sent to a device reaches the connection that is
registered for it, and nothing is sent anywhere else. -/
theorem run_reaches {now : Int} (h : run (step slack junk) (start now) es = some s)
    (hes : ∀ k, BLEEvent.session k (.disconnect true) ∉ es) (destination : DeviceAddress)
    (bytes : List UInt8) :
    (∀ k, (s.phase k).Registered → s.mac k = BLESocket.getMacFromDeviceAddress destination →
      (BLESocket.send s.alive s.bleConnections destination bytes).2.1 = [(s.connection k, bytes)]) ∧
    ((∀ k, (s.phase k).Registered → s.mac k ≠ BLESocket.getMacFromDeviceAddress destination) →
      BLESocket.send s.alive s.bleConnections destination bytes =
        (true, [], s.bleConnections)) := by
  have hstep (s : BLESystem) (e : BLEEvent) (s' : BLESystem)
      (hs : Claimed s ∧ Entries ConnectionPhase.Registered s ∧ ∀ k, (s.phase k).Registered →
        Reached s k)
      (he : ∀ k, e ≠ .session k (.disconnect true)) (h : step slack junk s e = some s') :
      Claimed s' ∧ Entries ConnectionPhase.Registered s' ∧ ∀ k, (s'.phase k).Registered →
        Reached s' k := by
    obtain ⟨hs, hentries, hreached⟩ := hs
    refine ⟨step_claimed hs h, step_entries_orderly hs hentries he h, fun k hk' => ?_⟩
    rcases step_registered hs h hk' with hk | ⟨hk, rfl⟩
    · exact (step_reached hs h hk hk').2 (hreached k hk)
    · refine (reached_add (fun c hc => (hentries c hc).imp_left .inl) hk).2
        (lookup_eq_none_iff.2 fun c hc hmac => ?_)
      -- an entry under the MAC would be that of another connection of the device
      obtain ⟨hphase, hconnection⟩ := hentries c hc
      have heq := hs.unique c.pointer k hphase.claims (by rw [hk]; trivial)
        ((congrArg BLEConnection.mac hconnection).symm.trans hmac)
      rw [heq, hk] at hphase
      exact hphase
  obtain ⟨hs, hentries, hreached⟩ :=
    run_inv hstep ⟨.start now, (fun c hc => by cases hc), fun k hk => hk.elim⟩
      (fun e he k heq => hes k (heq ▸ he)) h
  refine ⟨fun k hk hmac => (send_iff_reached hk hmac.symm bytes).2 (hreached k hk), fun hnone => ?_⟩
  have hfound : lookup BLEConnection.mac (BLESocket.getMacFromDeviceAddress destination)
      s.bleConnections = none := by
    refine lookup_eq_none_iff.2 fun c hc hmac => ?_
    obtain ⟨hphase, hconnection⟩ := hentries c hc
    exact hnone c.pointer hphase ((congrArg BLEConnection.mac hconnection).symm.trans hmac)
  unfold BLESocket.send
  dsimp only
  rw [hfound]

theorem run_reaches_served : ∃ s, run (step 1 (Record.zero 6)) (start 0) served = some s ∧
    (BLESocket.send s.alive s.bleConnections sensorAddress [2, 23]).2.1 =
      [(s.connection 0, [2, 23])] := by
  have h : run (step 1 (Record.zero 6)) (start 0) served = some _ := rfl
  have horderly : ∀ k, BLEEvent.session k (.disconnect true) ∉ served := by simp [served, connected]
  exact ⟨_, h, (run_reaches h horderly sensorAddress [2, 23]).1 0 trivial (by decide +kernel)⟩

/-! ### What is received -/

/-- A message as it is handed to the message handler. -/
def Delivers (slack : Nat) (junk : DeviceAddress) (notice : Notice) (message : BLEMessage) : Prop :=
  ∃ address, BLESocket.getDeviceAddressFromMac slack junk message.mac = some (.ok address) ∧
    notice = .receiveData address (message.data ++ List.replicate (255 - message.data.length) 0)

/-- The messages that are not too long. -/
def accepted (messages : List BLEMessage) : List BLEMessage :=
  messages.filter fun message => message.data.length ≤ 255

/-- What was received is what was handled and what is still in the queue, and what was handled was
handed over. -/
structure Handed (slack : Nat) (junk : DeviceAddress) (s : BLESystem) : Prop where
  order : s.received = s.handled ++ s.bleMessageQueue
  delivers : List.Forall₂ (Delivers slack junk) s.notices (accepted s.handled)

theorem loop_handed (hs : Handed slack junk s) (h : s.loop slack junk = some s') :
    Handed slack junk s' := by
  obtain ⟨notices, queue, hloop, rfl⟩ := loop_eq h
  obtain ⟨horder, hdelivers⟩ := hs
  cases hqueue : s.bleMessageQueue with
  | nil =>
    rw [hqueue] at hloop horder
    cases hloop
    exact ⟨by simpa using horder, by simpa using hdelivers⟩
  | cons message rest =>
    rw [hqueue] at hloop horder
    unfold BLESocket.loop at hloop
    dsimp only at hloop
    split_ifs at hloop with hlong
    · cases hloop
      refine ⟨by simpa using horder, ?_⟩
      simp only [List.append_nil, List.take_succ_cons, List.take_zero, accepted, List.filter_append]
      rw [List.filter_cons_of_neg (by simpa using hlong)]
      simpa [accepted] using hdelivers
    · split at hloop
      · cases hloop
      · cases hloop
      · next address haddress =>
        cases hloop
        refine ⟨by simpa using horder, ?_⟩
        simp only [List.take_succ_cons, List.take_zero, accepted, List.filter_append]
        rw [List.filter_cons_of_pos (by simpa using hlong)]
        exact List.rel_append hdelivers (.cons ⟨address, haddress, rfl⟩ .nil)

theorem step_handed (hs : Handed slack junk s) (h : step slack junk s e = some s') :
    Handed slack junk s' := by
  obtain ⟨horder, hdelivers⟩ := hs
  rcases step_eq h with ⟨k, event, rfl, -, rfl⟩ | ⟨destination, bytes, -, rfl⟩ |
    ⟨notices, queue, rfl, -, -⟩ | ⟨hs', -⟩
  · cases event with
    | message msg =>
      unfold effect addBLEMessage
      dsimp only
      split
      · exact ⟨horder, hdelivers⟩
      · exact ⟨(congrArg (· ++ [_]) horder).trans (List.append_assoc ..), hdelivers⟩
    | connect ok => cases ok <;> exact ⟨horder, hdelivers⟩
    | discover nus => unfold effect; dsimp only; split <;> exact ⟨horder, hdelivers⟩
    | giveUp | name | reset | add | close | disconnect | remove | unset | exit =>
      exact ⟨horder, hdelivers⟩
  · exact ⟨horder, hdelivers⟩
  · exact loop_handed ⟨horder, hdelivers⟩ h
  · rw [hs']
    exact ⟨horder, hdelivers⟩

/-- The devices that the acceptor looks at have MACs of 17 characters; one without a MAC
is skipped. -/
def ProperMac (e : BLEEvent) : Prop := ∀ m broken, e = .look m broken → m ≠ [] → BLESocket.IsMac m

/-- The acceptor is about to connect the device. -/
def OnDevice (m : List UInt8) (p : AcceptorPhase) : Prop :=
  p = .checked m ∨ p = .starting m ∨ p = .spawning m

theorem not_on_next (m : List UInt8) : ¬ OnDevice m .next := by
  rintro (h | h | h) <;> cases h

/-- A device comes to the acceptor when it is looked at. -/
theorem step_on (h : step slack junk s e = some s') (hm : OnDevice m s'.acceptor) :
    OnDevice m s.acceptor ∨ m ≠ [] ∧ ∃ broken, e = .look m broken := by
  cases e with
  | tick elapsed => cases h; exact .inl hm
  | look m' broken =>
    rw [step] at h
    split_ifs at h with hnext
    cases h
    unfold BLESystem.look at hm
    split_ifs at hm with hskip
    · exact .inl hm
    · cases hfound : s.deviceStatistics m' with
      | none => rw [hfound] at hm; exact .inl hm
      | some d =>
        rw [hfound] at hm
        dsimp only at hm
        split_ifs at hm
        · exact .inl hm
        · obtain rfl : m' = m := by
            rcases hm with h | h | h
            · exact AcceptorPhase.checked.inj h
            · cases h
            · cases h
          exact .inr ⟨fun h => hskip (by simp [h]), broken, rfl⟩
  | askFaulty =>
    rw [step] at h
    split at h
    · next m' hchecked =>
      cases h
      unfold BLESystem.askFaulty at hm
      dsimp only at hm
      split_ifs at hm
      · exact absurd hm (not_on_next m)
      · rcases hm with h | h | h
        · cases h
        · rw [AcceptorPhase.starting.inj h] at hchecked
          exact .inl (.inl hchecked)
        · cases h
    · cases h
  | setInProgress =>
    rw [step] at h
    split at h
    · next m' hstarting =>
      cases h
      rcases hm with h | h | h
      · cases h
      · cases h
      · rw [AcceptorPhase.spawning.inj h] at hstarting
        exact .inl (.inr (.inl hstarting))
    · cases h
  | spawn =>
    rw [step] at h
    split at h
    · cases h; exact absurd hm (not_on_next m)
    · cases h
  | session k event =>
    rw [step] at h
    split_ifs at h
    cases h
    rw [goTo_acceptor, effect_acceptor] at hm
    exact .inl hm
  | send destination bytes => cases h; exact .inl hm
  | loop =>
    obtain ⟨notices, queue, -, rfl⟩ := loop_eq h
    exact .inl hm

/-- What is in the queue was there before, or comes from a connection that is there. -/
theorem step_queue (h : step slack junk s e = some s') {message : BLEMessage}
    (hmem : message ∈ s'.bleMessageQueue) :
    message ∈ s.bleMessageQueue ∨ ∃ k, s.phase k ≠ .absent ∧ message.mac = s.mac k := by
  rcases step_eq h with ⟨k, event, rfl, hk, rfl⟩ | ⟨destination, bytes, -, rfl⟩ |
    ⟨notices, queue, -, hloop, rfl⟩ | ⟨hs', -⟩
  · have hpresent : s.phase k ≠ .absent := hk ▸ event.before_ne_absent
    cases event with
    | message msg =>
      unfold goTo effect addBLEMessage at hmem
      dsimp only at hmem
      split_ifs at hmem
      · exact .inl hmem
      · rcases List.mem_append.1 hmem with hold | hnew
        · exact .inl hold
        · rw [List.mem_singleton.1 hnew]
          exact .inr ⟨k, hpresent, rfl⟩
    | connect ok => cases ok <;> exact .inl hmem
    | discover nus =>
      unfold goTo effect at hmem
      dsimp only at hmem
      split_ifs at hmem <;> exact .inl hmem
    | giveUp | name | reset | add | close | disconnect | remove | unset | exit => exact .inl hmem
  · exact .inl hmem
  · -- the queue has lost its head, if it had one
    dsimp only at hmem
    rcases hqueue : s.bleMessageQueue with - | ⟨first, rest⟩
    · rw [hqueue] at hloop
      cases hloop
      cases hmem
    · rw [hqueue, BLESocket.loop] at hloop
      split_ifs at hloop
      · cases hloop
        exact .inl (List.mem_cons_of_mem _ hmem)
      · split at hloop
        · cases hloop
        · cases hloop
        · cases hloop
          exact .inl (List.mem_cons_of_mem _ hmem)
  · rw [hs'] at hmem
    exact .inl hmem

/-- All devices in use have proper MACs. -/
structure Named (s : BLESystem) : Prop where
  acceptor : ∀ m, OnDevice m s.acceptor → BLESocket.IsMac m
  connections : ∀ k, s.phase k ≠ .absent → BLESocket.IsMac (s.mac k)
  queue : ∀ message ∈ s.bleMessageQueue, BLESocket.IsMac message.mac

theorem step_named (hs : Claimed s) (hnamed : Named s) (he : ProperMac e)
    (h : step slack junk s e = some s') : Named s' where
  acceptor m hm := by
    rcases step_on h hm with hon | ⟨hne, broken, hlook⟩
    · exact hnamed.acceptor m hon
    · exact he m broken hlook hne
  connections k hk' := by
    by_cases hk : s.phase k = .absent
    · exact hnamed.acceptor _ (.inr (.inr (step_made h hk hk')))
    · rw [step_mac hs h hk]
      exact hnamed.connections k hk
  queue message hmem := by
    rcases step_queue h hmem with hold | ⟨k, hk, hmac⟩
    · exact hnamed.queue message hold
    · rw [hmac]
      exact hnamed.connections k hk

/-- A loop takes the first message out of the queue. -/
structure Takes (s s' : BLESystem) : Prop where
  handled : s'.handled = s.handled ++ s.bleMessageQueue.take 1
  queue : s'.bleMessageQueue = s.bleMessageQueue.drop 1

theorem Named.loop (hnamed : Named s) (hslack : 1 ≤ slack) :
    ∃ s', step slack junk s .loop = some s' ∧ Takes s s' := by
  show ∃ s', s.loop slack junk = some s' ∧ Takes s s'
  unfold BLESystem.loop
  rcases hqueue : s.bleMessageQueue with - | ⟨message, rest⟩
  · exact ⟨_, rfl, by rw [hqueue], by rw [hqueue]; rfl⟩
  · rw [BLESocket.loop]
    split_ifs
    · exact ⟨_, rfl, by rw [hqueue], by rw [hqueue]; rfl⟩
    · have hmac := hnamed.queue message (hqueue ▸ List.mem_cons_self)
      obtain ⟨address, haddress, -⟩ :=
        ((BLESocket.roundTrips_iff slack).2 hslack).mac junk message.mac hmac
      rw [haddress]
      exact ⟨_, rfl, by rw [hqueue], by rw [hqueue]; rfl⟩

/-- What the devices have sent so far is handed to the message handler in the order in which it came
in, each message once and under the address of its device, apart from what is too long and what is
still in the queue. With a byte to spare behind `tmp_mac` and proper MACs the next `loop` has a
result, and takes the oldest message of the queue. -/
theorem run_messages {now : Int} (h : run (step slack junk) (start now) es = some s) :
    s.received = s.handled ++ s.bleMessageQueue ∧ List.Forall₂ (Delivers slack junk) s.notices
      (accepted s.handled) ∧
      (1 ≤ slack → (∀ e ∈ es, ProperMac e) → ∃ s', step slack junk s .loop = some s' ∧
        Takes s s') := by
  have hstep (s : BLESystem) (e : BLEEvent) (s' : BLESystem) (hs : Handed slack junk s) (_ : True)
      (h : step slack junk s e = some s') : Handed slack junk s' := step_handed hs h
  have hs := run_inv hstep ⟨rfl, .nil⟩ (fun _ _ => trivial) h
  refine ⟨hs.order, hs.delivers, fun hslack hproper => ?_⟩
  have hstep (s : BLESystem) (e : BLEEvent) (s' : BLESystem) (hs : Claimed s ∧ Named s)
    (he : ProperMac e)
      (h : step slack junk s e = some s') : Claimed s' ∧ Named s' :=
        ⟨step_claimed hs.1 h, step_named hs.1 hs.2 he h⟩
  have hstart : Named (start now) :=
    ⟨fun m hm => absurd hm (not_on_next m), fun k hk => absurd rfl hk,
      fun message hmem => by cases hmem⟩
  exact (run_inv hstep ⟨.start now, hstart⟩ hproper h).2.loop hslack

theorem properMac_served : ∀ e ∈ served, ProperMac e := by
  intro e he m broken hlook hne
  subst hlook
  obtain rfl : m = BLESocket.sensor.mac := by
    simp only [served, connected, List.cons_append, List.nil_append, List.mem_cons,
      BLEEvent.look.injEq, reduceCtorEq,
      or_false, List.not_mem_nil] at he
    rcases he with ⟨rfl, -⟩ | ⟨rfl, -⟩ <;> rfl
  exact BLESocket.isMac_sensor

theorem run_messages_served : ∃ s s', run (step 1 (Record.zero 6)) (start 0) served = some s ∧
    step 1 (Record.zero 6) s .loop = some s' ∧ s.received.length = 1 ∧ s'.bleMessageQueue = [] ∧
    s'.notices = [.receiveData sensorAddress ([2, 22] ++ List.replicate 253 0)] := by
  have h : run (step 1 (Record.zero 6)) (start 0) served = some _ := rfl
  obtain ⟨-, -, hloop⟩ := run_messages h
  obtain ⟨s', hstep, htakes⟩ := hloop (le_refl 1) properMac_served
  refine ⟨_, s', h, hstep, rfl, htakes.queue, ?_⟩
  have hs' : step 1 (Record.zero 6) _ .loop = some _ := hstep
  rw [show step 1 (Record.zero 6) _ .loop = some _ from rfl] at hs'
  rw [← Option.some.inj hs']
  decide +kernel

end BLESystem

end SnGateway
