import SnGateway.BleSocket
import SnGateway.BleStatistic
import SnGateway.Lib.Run
import SnGateway.Lib.Threads

/-!
# The threads of the BLE socket

One thread of the `BLEConnectionAcceptor` looks at the devices and starts a `BLEConnection` for each
one it can reach, `handleConnection` runs in a thread of its own, and the gateway sends and receives
through the `BLESocket`. The steps of all of them come in any order. What the devices answer is not
part of the program: it stands in the events.
-/

namespace SnGateway
open Run Threads FirstMatch

structure DeviceStatistic where
  counts : BLEDeviceStatistic
  connectionInProgress : Bool

/-- `hasNUS` and `hasMultipleNUS` of a device, and `getLastMessage` of its NUS connections. -/
structure NusServices where
  hasNUS : Bool
  hasMultipleNUS : Bool
  lastMessages : List (List UInt8)

/-- `bleNUSConnection` after the choice: the first one with a message. The single one of a device is
set back to `nullptr`. -/
def NusServices.bleNUSConnection (nus : NusServices) : Option Nat :=
  if nus.hasMultipleNUS then nus.lastMessages.findIdx? (· ≠ []) else none

/-- Where `BLEConnectionAcceptor::loop` is. -/
inductive AcceptorPhase where
  /-- The next device. -/
  | next
  /-- No connection is in progress. -/
  | checked (mac : List UInt8)
  /-- And the device is not faulty. -/
  | starting (mac : List UInt8)
  /-- `setConnectionInProgress()` is done, the thread is not there yet. -/
  | spawning (mac : List UInt8)
deriving DecidableEq

/-- Where `handleConnection` is. -/
inductive ConnectionPhase where
  | absent
  /-- `bleDevice->connect()`. -/
  | connecting
  /-- The NUS services. -/
  | discovering
  /-- A failure is counted. -/
  | failed
  /-- `bleDevice->getMac()`. -/
  | naming
  /-- `bleNUSConnection->connect()` and `reset()`. -/
  | resetting
  /-- `addBLEConnection`. -/
  | adding
  /-- The loop. -/
  | serving
  /-- The disconnects. -/
  | closing
  /-- `removeBLEConnection`. -/
  | removing
  /-- `unsetConnectionInProgress()`. -/
  | leaving
  /-- At the end of the function, with the connection still there. -/
  | ending
  | gone
  /-- It has returned for want of a MAC. -/
  | abandoned
deriving DecidableEq

namespace ConnectionPhase

/-- `connectionInProgress` stands for this connection. -/
def Claims : ConnectionPhase → Prop
  | absent | ending | gone => False
  | _ => True

instance : DecidablePred Claims := fun p => by cases p <;> unfold Claims <;> infer_instance

/-- `addBLEConnection` has been called, and `removeBLEConnection` has not. -/
def Registered : ConnectionPhase → Prop
  | serving | closing | removing => True
  | _ => False

/-- The `weak_ptr` can be locked. -/
def alive : ConnectionPhase → Bool
  | absent | gone | abandoned => false
  | _ => true

/-- `handleConnection` is done with the socket. -/
def Over : ConnectionPhase → Prop
  | leaving | ending | gone => True
  | _ => False

theorem Registered.claims {p : ConnectionPhase} (h : p.Registered) : p.Claims := by
  cases p <;> trivial

theorem Registered.not_over {p : ConnectionPhase} (h : p.Registered) : ¬ p.Over := by
  intro hover
  cases p <;> trivial

theorem Registered.alive {p : ConnectionPhase} (h : p.Registered) : p.alive = true := by
  cases p <;> trivial

end ConnectionPhase

/-- A step of `handleConnection`, with what the device answers. -/
inductive SessionEvent where
  | connect (ok : Bool)
  | discover (nus : NusServices)
  /-- `removeBLEDevice` and `unsetConnectionInProgress` after a failure. -/
  | giveUp
  | name (empty : Bool)
  | reset
  | add
  | message (msg : List UInt8)
  /-- `isConnected()` is false, or the connection is to stop. -/
  | close
  | disconnect (throws : Bool)
  | remove
  | unset
  | exit

namespace SessionEvent

def before : SessionEvent → ConnectionPhase
  | connect _ => .connecting
  | discover _ => .discovering
  | giveUp => .failed
  | name _ => .naming
  | reset => .resetting
  | add => .adding
  | message _ => .serving
  | close => .serving
  | disconnect _ => .closing
  | remove => .removing
  | unset => .leaving
  | exit => .ending

def after : SessionEvent → ConnectionPhase
  | connect ok => if ok then .discovering else .failed
  | discover nus => if nus.hasNUS && nus.bleNUSConnection.isSome then .naming else .failed
  | giveUp => .ending
  | name empty => if empty then .abandoned else .resetting
  | reset => .adding
  | add => .serving
  | message _ => .serving
  | close => .closing
  | disconnect throws => if throws then .leaving else .removing
  | remove => .leaving
  | unset => .ending
  | exit => .gone

/-- `unsetConnectionInProgress` is called. -/
def Releases : SessionEvent → Prop
  | giveUp | unset => True
  | _ => False

instance : DecidablePred Releases :=
  fun event => by cases event <;> unfold Releases <;> infer_instance

theorem claims_after (event : SessionEvent) :
    event.after.Claims ↔ event.before.Claims ∧ ¬ event.Releases := by
  cases event with
  | connect ok => cases ok <;> simp [after, before, ConnectionPhase.Claims, Releases]
  | discover nus =>
    unfold after; dsimp only; split <;> simp [before, ConnectionPhase.Claims, Releases]
  | name empty => cases empty <;> simp [after, before, ConnectionPhase.Claims, Releases]
  | disconnect throws => cases throws <;> simp [after, before, ConnectionPhase.Claims, Releases]
  | giveUp | reset | add | message | close | remove | unset | exit =>
    simp [after, before, ConnectionPhase.Claims, Releases]

theorem before_claims_of_releases {event : SessionEvent} (h : event.Releases) :
    event.before.Claims := by
  cases event <;> trivial

theorem before_ne_absent (event : SessionEvent) : event.before ≠ .absent := by
  cases event <;> simp [SessionEvent.before]

end SessionEvent

/-- The connections are numbered; `mac` is the MAC of their device. `received` and `handled` are all
the messages that were put into the queue and taken out of it so far, `notices` what the message
handler was told. -/
structure BLESystem where
  now : Int
  deviceStatistics : List UInt8 → Option DeviceStatistic
  acceptor : AcceptorPhase
  count : Nat
  mac : Nat → List UInt8
  phase : Nat → ConnectionPhase
  bleConnections : List BLEConnection
  bleMessageQueue : List BLEMessage
  received : List BLEMessage
  handled : List BLEMessage
  notices : List Notice

inductive BLEEvent where
  | tick (elapsed : Nat)
  /-- The next device of the list. -/
  | look (mac : List UInt8) (broken : Bool)
  | askFaulty
  | setInProgress
  | spawn
  | session (k : Nat) (event : SessionEvent)
  | send (destination : DeviceAddress) (bytes : List UInt8)
  | loop

namespace BLESystem

def start (now : Int) : BLESystem :=
  ⟨now, fun _ => none, .next, 0, fun _ => [], fun _ => .absent, [], [], [], [], []⟩

def goTo (k : Nat) (p : ConnectionPhase) (s : BLESystem) : BLESystem :=
  { s with phase := Function.update s.phase k p }

/-- A method of the statistic of a device. -/
def statistic (mac : List UInt8) (method : StatisticMethod) (s : BLESystem) : BLESystem :=
  let d := (s.deviceStatistics mac).map fun d => { d with counts := d.counts.apply s.now method }
  { s with deviceStatistics := Function.update s.deviceStatistics mac d }

/-- `setConnectionInProgress` and `unsetConnectionInProgress`. -/
def setConnectionInProgress (mac : List UInt8) (value : Bool) (s : BLESystem) : BLESystem :=
  let d := (s.deviceStatistics mac).map fun d => { d with connectionInProgress := value }
  { s with deviceStatistics := Function.update s.deviceStatistics mac d }

def isConnectionInProgress (s : BLESystem) (mac : List UInt8) : Bool :=
  (s.deviceStatistics mac).any DeviceStatistic.connectionInProgress

def alive (s : BLESystem) (c : BLEConnection) : Bool := (s.phase c.pointer).alive

/-- The connection `k` in the map. -/
def connection (s : BLESystem) (k : Nat) : BLEConnection := ⟨k, s.mac k⟩

/-- An empty message is skipped. -/
def addBLEMessage (message : BLEMessage) (s : BLESystem) : BLESystem :=
  if message.data = [] then s
  else
    { s with
      bleMessageQueue := s.bleMessageQueue ++ [message], received := s.received ++ [message] }

/-- What a step of `handleConnection` does to the others. -/
def effect (k : Nat) (s : BLESystem) : SessionEvent → BLESystem
  | .connect ok => if ok then s else s.statistic (s.mac k) .incrementConnectFailed
  | .discover nus =>
    if nus.hasNUS && nus.bleNUSConnection.isSome then
      s
    else s.statistic (s.mac k) .incrementServiceFailed
  | .giveUp | .unset => s.setConnectionInProgress (s.mac k) false
  | .reset => s.statistic (s.mac k) .reset
  | .add =>
    { s with bleConnections := BLESocket.addBLEConnection s.bleConnections (s.connection k) }
  | .message msg => s.addBLEMessage ⟨s.mac k, msg⟩
  | .remove => { s with bleConnections := BLESocket.removeBLEConnection s.bleConnections (s.mac k) }
  | .name _ | .close | .disconnect _ | .exit => s

/-- Broken devices and empty MACs are skipped. -/
def look (mac : List UInt8) (broken : Bool) (s : BLESystem) : BLESystem :=
  if broken || mac.isEmpty then s
  else
    match s.deviceStatistics mac with
    | none =>
      { s with
        deviceStatistics :=
          Function.update s.deviceStatistics mac (some ⟨.construct s.now, false⟩) }
    | some d => if d.connectionInProgress then s else { s with acceptor := .checked mac }

def askFaulty (mac : List UInt8) (s : BLESystem) : BLESystem :=
  let faulty := (s.deviceStatistics mac).any fun d => (d.counts.isFaulty s.now).1
  { s.statistic mac .isFaulty with acceptor := if faulty then .next else .starting mac }

def spawn (mac : List UInt8) (s : BLESystem) : BLESystem :=
  { s with
    acceptor := .next
    count := s.count + 1
    mac := Function.update s.mac s.count mac
    phase := Function.update s.phase s.count .connecting }

/-- `BLESocket::loop`; an exception ends the program. -/
def loop (slack : Nat) (junk : DeviceAddress) (s : BLESystem) : Option BLESystem :=
  match BLESocket.loop slack junk s.bleMessageQueue with
  | some (.ok (notices, queue)) =>
    some { s with
      bleMessageQueue := queue
      handled := s.handled ++ s.bleMessageQueue.take 1
      notices := s.notices ++ notices }
  | _ => none

def step (slack : Nat) (junk : DeviceAddress) (s : BLESystem) : BLEEvent → Option BLESystem
  | .tick elapsed => some { s with now := s.now + elapsed }
  | .look mac broken => if s.acceptor = .next then some (s.look mac broken) else none
  | .askFaulty =>
    match s.acceptor with
    | .checked mac => some (s.askFaulty mac)
    | _ => none
  | .setInProgress =>
    match s.acceptor with
    | .starting mac => some { s.setConnectionInProgress mac true with acceptor := .spawning mac }
    | _ => none
  | .spawn =>
    match s.acceptor with
    | .spawning mac => some (s.spawn mac)
    | _ => none
  | .session k event =>
    if s.phase k = event.before then some ((s.effect k event).goTo k event.after) else none
  | .send destination bytes =>
    some { s with
      bleConnections := (BLESocket.send s.alive s.bleConnections destination bytes).2.2 }
  | .loop => s.loop slack junk

variable {s s' : BLESystem} {slack : Nat} {junk : DeviceAddress} {e : BLEEvent}
    {es is : List BLEEvent} {j k : Nat} {m : List UInt8}

/-! ### What the steps leave alone -/

section
variable (s : BLESystem) (k : Nat) (m m' : List UInt8) (event : SessionEvent)

@[simp] theorem goTo_phase (p : ConnectionPhase) :
    (s.goTo k p).phase = Function.update s.phase k p := rfl
@[simp] theorem goTo_mac (p : ConnectionPhase) : (s.goTo k p).mac = s.mac := rfl
@[simp] theorem goTo_acceptor (p : ConnectionPhase) : (s.goTo k p).acceptor = s.acceptor := rfl
@[simp] theorem goTo_count (p : ConnectionPhase) : (s.goTo k p).count = s.count := rfl
@[simp] theorem goTo_bleConnections (p : ConnectionPhase) :
    (s.goTo k p).bleConnections = s.bleConnections := rfl

theorem effect_eq : s.effect k event = { s with
    deviceStatistics := (s.effect k event).deviceStatistics
    bleConnections := (s.effect k event).bleConnections
    bleMessageQueue := (s.effect k event).bleMessageQueue
    received := (s.effect k event).received } := by
  cases event with
  | connect ok => cases ok <;> rfl
  | discover nus => unfold effect; dsimp only; split <;> rfl
  | message msg => unfold effect addBLEMessage; dsimp only; split <;> rfl
  | giveUp | name | reset | add | close | disconnect | remove | unset | exit => rfl

@[simp] theorem effect_acceptor : (s.effect k event).acceptor = s.acceptor := by rw [effect_eq]
@[simp] theorem effect_count : (s.effect k event).count = s.count := by rw [effect_eq]
@[simp] theorem effect_mac : (s.effect k event).mac = s.mac := by rw [effect_eq]
@[simp] theorem effect_phase : (s.effect k event).phase = s.phase := by rw [effect_eq]

@[simp] theorem isConnectionInProgress_statistic (method : StatisticMethod) :
    (s.statistic m method).isConnectionInProgress m' = s.isConnectionInProgress m' := by
  unfold isConnectionInProgress statistic
  dsimp only
  by_cases h : m' = m
  · rw [h, Function.update_self]
    cases s.deviceStatistics m <;> rfl
  · rw [Function.update_of_ne h]

theorem isConnectionInProgress_set (value : Bool) :
    (s.setConnectionInProgress m value).isConnectionInProgress m' =
      if m' = m then (s.deviceStatistics m).isSome && value else s.isConnectionInProgress m' := by
  unfold isConnectionInProgress setConnectionInProgress
  dsimp only
  by_cases h : m' = m
  · rw [h, Function.update_self, if_pos rfl]
    cases s.deviceStatistics m <;> rfl
  · rw [Function.update_of_ne h, if_neg h]

@[simp] theorem isSome_statistic (method : StatisticMethod) :
    ((s.statistic m method).deviceStatistics m').isSome = (s.deviceStatistics m').isSome := by
  unfold statistic
  dsimp only
  by_cases h : m' = m
  · rw [h, Function.update_self, Option.isSome_map]
  · rw [Function.update_of_ne h]

@[simp] theorem isSome_set (value : Bool) :
    ((s.setConnectionInProgress m value).deviceStatistics m').isSome =
      (s.deviceStatistics m').isSome := by
  unfold setConnectionInProgress
  dsimp only
  by_cases h : m' = m
  · rw [h, Function.update_self, Option.isSome_map]
  · rw [Function.update_of_ne h]

theorem isSome_effect :
    ((s.effect k event).deviceStatistics m).isSome = (s.deviceStatistics m).isSome := by
  cases event with
  | connect ok => cases ok <;> simp [effect]
  | discover nus => unfold effect; dsimp only; split <;> simp
  | message msg => unfold effect addBLEMessage; dsimp only; split <;> rfl
  | giveUp | reset | unset => simp [effect]
  | name | add | close | disconnect | remove | exit => rfl

theorem isConnectionInProgress_effect : (s.effect k event).isConnectionInProgress m =
    if event.Releases ∧ m = s.mac k then false else s.isConnectionInProgress m := by
  cases event with
  | connect ok => cases ok <;> simp [effect, SessionEvent.Releases]
  | discover nus => unfold effect; dsimp only; split <;> simp [SessionEvent.Releases]
  | message msg =>
    unfold effect addBLEMessage; dsimp only; split <;>
      simp [SessionEvent.Releases, isConnectionInProgress]
  | giveUp | unset => simp [effect, SessionEvent.Releases, isConnectionInProgress_set]
  | reset => simp [effect, SessionEvent.Releases]
  | name | add | close | disconnect | remove | exit =>
    simp [effect, SessionEvent.Releases, isConnectionInProgress]

end

theorem loop_eq (h : s.loop slack junk = some s') : ∃ notices queue,
    BLESocket.loop slack junk s.bleMessageQueue = some (.ok (notices, queue)) ∧
      s' = { s with
        bleMessageQueue := queue
        handled := s.handled ++ s.bleMessageQueue.take 1
        notices := s.notices ++ notices } := by
  unfold loop at h
  split at h
  · next notices queue hloop => cases h; exact ⟨notices, queue, hloop, rfl⟩
  · cases h

/-- A step is one of a connection, of `send`, of `loop`, or of the acceptor, which leaves the socket
alone. -/
theorem step_eq (h : step slack junk s e = some s') :
    (∃ k event, e = .session k event ∧ s.phase k = event.before ∧
      s' = (s.effect k event).goTo k event.after) ∨
    (∃ destination bytes, e = .send destination bytes ∧
      s' =
      { s with
        bleConnections := (BLESocket.send s.alive s.bleConnections destination bytes).2.2 }) ∨
    (∃ notices queue, e = .loop ∧ BLESocket.loop slack junk s.bleMessageQueue =
      some (.ok (notices, queue)) ∧
      s' = { s with
        bleMessageQueue := queue
        handled := s.handled ++ s.bleMessageQueue.take 1
        notices := s.notices ++ notices }) ∨
    s' = { s with
      now := s'.now
      deviceStatistics := s'.deviceStatistics
      acceptor := s'.acceptor
      count := s'.count
      mac := s'.mac
      phase := s'.phase } ∧ (∀ k event, e ≠ .session k event) ∧
      (s'.phase = s.phase ∧ s'.mac = s.mac ∨ ∃ m, s.acceptor = .spawning m ∧ s' = s.spawn m) := by
  cases e with
  | tick elapsed => cases h; exact .inr (.inr (.inr ⟨rfl, by simp, .inl ⟨rfl, rfl⟩⟩))
  | look m broken =>
    rw [step] at h
    split_ifs at h
    cases h
    refine .inr (.inr (.inr ?_))
    unfold BLESystem.look
    split_ifs
    · exact ⟨rfl, by simp, .inl ⟨rfl, rfl⟩⟩
    · split
      · exact ⟨rfl, by simp, .inl ⟨rfl, rfl⟩⟩
      · split_ifs <;> exact ⟨rfl, by simp, .inl ⟨rfl, rfl⟩⟩
  | askFaulty =>
    rw [step] at h
    split at h
    · cases h; exact .inr (.inr (.inr ⟨rfl, by simp, .inl ⟨rfl, rfl⟩⟩))
    · cases h
  | setInProgress =>
    rw [step] at h
    split at h
    · cases h; exact .inr (.inr (.inr ⟨rfl, by simp, .inl ⟨rfl, rfl⟩⟩))
    · cases h
  | spawn =>
    rw [step] at h
    split at h
    · next m hspawning => cases h; exact .inr (.inr (.inr ⟨rfl, by simp, .inr ⟨m, hspawning, rfl⟩⟩))
    · cases h
  | session k event =>
    rw [step] at h
    split_ifs at h with hk
    cases h
    exact .inl ⟨k, event, rfl, hk, rfl⟩
  | send destination bytes => cases h; exact .inr (.inl ⟨destination, bytes, rfl, rfl⟩)
  | loop =>
    obtain ⟨notices, queue, hloop, rfl⟩ := loop_eq h
    exact .inr (.inr (.inl ⟨notices, queue, rfl, hloop, rfl⟩))

end BLESystem

end SnGateway
