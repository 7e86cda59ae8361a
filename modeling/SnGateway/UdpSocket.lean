import SnGateway.Tcp
import SnGateway.TcpConnections

/-!
# The UDP socket

`LinuxUdpSocket` has a socket for its peers and one for the multicast group, and hands over what
arrives on either under the address of the sender. A reply goes to that address through the first of
them. The IPv4 address and the port of a peer can be read back from the bytes of its address, a port
of zero apart, for which `PORT` stands.
-/

namespace SnGateway
open RecordStore

/-- `PORT`, in the order of the bytes that `htons` would change. -/
def UDP_PORT : UInt16 := 8888

/-- `224.0.0.0` and `htons(1234)`. -/
def multicastGroup : Peer := ⟨0xE0, 0xD204⟩

/-- What a call of `recvfrom` copies into the buffer, and from whom. -/
structure Datagram where
  peer : Peer
  data : Payload
deriving DecidableEq

/-- What the system calls of `initUdpSocket` and `initMulticastUdpSocket` return. -/
structure UdpSetup where
  socket : Int
  reuseaddr : Int
  bind : Int
  rcvtimeo : Int
  broadcast : Int
  multicastSocket : Int
  multicastReuseaddr : Int
  multicastBind : Int
  multicastLoop : Int
  addMembership : Int
  multicastRcvtimeo : Int

/-- What a call of `loop` gets from the system: a set-up, if it makes one, and the datagrams of its
two calls of `recvfrom`, if they have one. -/
structure UdpArrival where
  setup : UdpSetup
  unicast : Option Datagram
  multicast : Option Datagram

/-- `send` tells the broadcast address by the pointer. -/
inductive UdpDestination where
  | broadcast
  | address (address : DeviceAddress)

structure LinuxUdpSocket where
  udpSocket : Int
  socketDescriptor : Int
  siOther : Peer
  broadcastAddress : DeviceAddress
  /-- A message handler is set. -/
  handler : Bool

namespace LinuxUdpSocket

def getDeviceAddress (peer : Peer) : DeviceAddress :=
  let port := if peer.sinPort = 0 then UDP_PORT else peer.sinPort
  ((Record.zero 6).putNat ⟨0, 4⟩ peer.sinAddr.toNat).putNat ⟨4, 2⟩ port.toNat

def getIpAddress (address : DeviceAddress) : UInt32 := UInt32.ofNat (address.getNat ⟨0, 4⟩)

def getPort (address : DeviceAddress) : UInt16 := UInt16.ofNat (address.getNat ⟨4, 2⟩)

def initUdpSocket (sys : UdpSetup) (s : LinuxUdpSocket) : Bool × LinuxUdpSocket :=
  let s := { s with udpSocket := sys.socket }
  if sys.socket = -1 then (false, s)
  else if sys.reuseaddr = -1 then (false, s)
  else if sys.bind = -1 then (false, s)
  else if sys.rcvtimeo = -1 then (false, s)
  else if sys.broadcast = -1 then (false, s)
  else (true, s)

/-- `none`: the program exits. -/
def initMulticastUdpSocket (sys : UdpSetup) (s : LinuxUdpSocket) : Option (Bool × LinuxUdpSocket) :=
  let s := { s with socketDescriptor := sys.multicastSocket }
  if sys.multicastSocket = -1 then some (false, s)
  else if sys.multicastReuseaddr < 0 then none
  else if sys.multicastBind < 0 then some (false, s)
  else if sys.multicastLoop < 0 then some (false, s)
  else if sys.addMembership < 0 then some (false, s)
  else if sys.multicastRcvtimeo = -1 then some (false, s)
  else some (true, { s with broadcastAddress := getDeviceAddress multicastGroup })

def begin (sys : UdpSetup) (s : LinuxUdpSocket) : Option (Bool × LinuxUdpSocket × List Notice) :=
  if !s.handler then some (false, s, [])
  else
    let (ok, s) := initUdpSocket sys s
    if !ok then some (false, s, [])
    else
      match initMulticastUdpSocket sys s with
      | none => none
      | some (false, s) => some (false, s, [])
      | some (true, s) =>
        some (decide (0 ≤ s.udpSocket), s,
          if 0 ≤ s.udpSocket ∧ 0 ≤ s.socketDescriptor then [.socketConnected] else [])

/-- The buffer is cleared before the call. A datagram fills 255 bytes at most, so that the
comparison of `recv_len` with `UINT8_MAX` always holds. -/
def receive (datagram : Option Datagram) (s : LinuxUdpSocket) : LinuxUdpSocket × List Notice :=
  match datagram with
  | none => (s, [])
  | some d =>
    ({ s with siOther := d.peer },
      [.receiveData (getDeviceAddress d.peer)
        (d.data.bytes ++ List.replicate (BUFLEN - d.data.bytes.length) 0)])

def loop (arrival : UdpArrival) (s : LinuxUdpSocket) :
    Option (Bool × LinuxUdpSocket × List Notice) :=
  if s.udpSocket < 0 then
    match begin arrival.setup s with
    | none => none
    | some (true, s, notices) =>
      some (true, s, .socketDisconnected :: notices ++ [.socketConnected])
    | some (false, s, notices) => some (false, s, .socketDisconnected :: notices)
  else
    let (s, notices) := receive arrival.unicast s
    let (s, notices') := receive arrival.multicast s
    some (decide (0 ≤ s.udpSocket), s, notices ++ notices')

/-- What is sent on which socket to whom. -/
def send (destination : UdpDestination) (bytes : List UInt8) (s : LinuxUdpSocket) :
    Bool × LinuxUdpSocket × List (Int × Peer × List UInt8) :=
  match destination with
  | .broadcast =>
    (decide (0 ≤ s.socketDescriptor), s, [(s.socketDescriptor, multicastGroup, bytes)])
  | .address address =>
    let s := { s with siOther := ⟨getIpAddress address, getPort address⟩ }
    (decide (0 ≤ s.udpSocket), s, [(s.udpSocket, s.siOther, bytes)])

end LinuxUdpSocket

/-- A call of `loop` or of `send`. -/
inductive UdpCall where
  | loop (arrival : UdpArrival)
  | send (destination : UdpDestination) (bytes : List UInt8)

namespace LinuxUdpSocket

/-- The notices of the calls, one after the other. -/
def runCalls : LinuxUdpSocket → List UdpCall → Option (LinuxUdpSocket × List Notice)
  | s, [] => some (s, [])
  | s, .loop arrival :: calls => do
    let (_, s, notices) ← s.loop arrival
    let (s, notices') ← runCalls s calls
    pure (s, notices ++ notices')
  | s, .send destination bytes :: calls => runCalls (s.send destination bytes).2.1 calls

/-- The datagrams that arrive during the calls. -/
def datagrams (calls : List UdpCall) : List Datagram :=
  calls.flatMap fun
    | .loop arrival => arrival.unicast.toList ++ arrival.multicast.toList
    | .send _ _ => []

/-- Whom a reply to a peer goes to. -/
def replyTo (peer : Peer) : Peer :=
  ⟨peer.sinAddr, if peer.sinPort = 0 then UDP_PORT else peer.sinPort⟩

theorem getIpAddress_getDeviceAddress (peer : Peer) :
    getIpAddress (getDeviceAddress peer) = peer.sinAddr := by
  have hdisjoint : Field.Disjoint ⟨0, 4⟩ ⟨4, 2⟩ := .inl (Nat.le_refl 4)
  have haddr : peer.sinAddr.toNat < 256 ^ 4 := peer.sinAddr.toNat_lt
  rw [getIpAddress, getDeviceAddress, Record.getNat_putNat_of_disjoint hdisjoint,
    Record.getNat_putNat_self _ (by decide),
    Nat.mod_eq_of_lt haddr, UInt32.ofNat_toNat]

theorem getPort_getDeviceAddress (peer : Peer) :
    getPort (getDeviceAddress peer) = (replyTo peer).sinPort := by
  have hport : (replyTo peer).sinPort.toNat < 256 ^ 2 := UInt16.toNat_lt _
  rw [getPort, getDeviceAddress, Record.getNat_putNat_self _ (by decide)]
  exact (congrArg UInt16.ofNat (Nat.mod_eq_of_lt hport)).trans UInt16.ofNat_toNat

/-- How a datagram is handed over. -/
def handedOver (d : Datagram) : Notice :=
  .receiveData (getDeviceAddress d.peer)
    (d.data.bytes ++ List.replicate (BUFLEN - d.data.bytes.length) 0)

theorem receive_notices (d : Option Datagram) (s : LinuxUdpSocket) :
    (receive d s).2 = d.toList.map handedOver := by
  cases d <;> rfl

theorem receive_udpSocket (d : Option Datagram) (s : LinuxUdpSocket) :
    (receive d s).1.udpSocket = s.udpSocket := by
  cases d <;> rfl

/-- A socket that is open stays open, and hands over what arrives. -/
theorem runCalls_receives {s : LinuxUdpSocket} (hs : 0 ≤ s.udpSocket) (calls : List UdpCall) :
    ∃ s', s.runCalls calls = some (s', (datagrams calls).map handedOver) ∧
      s'.udpSocket = s.udpSocket := by
  induction calls generalizing s with
  | nil => exact ⟨s, rfl, rfl⟩
  | cons call calls ih =>
    cases call with
    | loop arrival =>
      have hsocket : (receive arrival.multicast (receive arrival.unicast s).1).1.udpSocket =
          s.udpSocket := by
        rw [receive_udpSocket, receive_udpSocket]
      obtain ⟨s', hrun, hs'⟩ :=
        ih (s := (receive arrival.multicast (receive arrival.unicast s).1).1) (hsocket ▸ hs)
      refine ⟨s', ?_, hs'.trans hsocket⟩
      rw [runCalls, loop, if_neg (by omega)]
      simp only [Option.bind_eq_bind, Option.bind_some, hrun, receive_notices]
      simp [datagrams]
    | send destination bytes =>
      have hsocket : (s.send destination bytes).2.1.udpSocket = s.udpSocket := by
        cases destination <;> rfl
      obtain ⟨s', hrun, hs'⟩ := ih (hsocket ▸ hs)
      exact ⟨s', hrun, hs'.trans hsocket⟩

/-- The messages in the datagrams are read as they were sent. -/
theorem receivedMessages_handedOver {ds : List Datagram} {ms : List SnMessage}
    (h : ds.map (fun d => d.data.bytes) = ms.map SnMessage.bytes) :
    receivedMessages (ds.map handedOver) = ms.map SnMessage.bytes := by
  have hread : receivedMessages (ds.map handedOver) = (ds.map fun d => d.data.bytes).map
      readSegment := by
    rw [receivedMessages, List.filterMap_map, List.map_map]
    exact List.filterMap_eq_map_iff_forall_eq_some.2 fun d _ => rfl
  rw [hread, h, List.map_map]
  exact List.map_congr_left fun m _ => readSegment_message m

theorem begin_open {sys : UdpSetup} {s s' : LinuxUdpSocket} {notices : List Notice}
    (h : begin sys s = some (true, s', notices)) : 0 ≤ s'.udpSocket := by
  unfold begin at h
  split_ifs at h with hnone
  · cases h
  obtain ⟨ok, t⟩ := initUdpSocket sys s
  dsimp only at h
  split_ifs at h with hfailed
  · cases h
  split at h
  · cases h
  · cases h
  · obtain ⟨hopen, h⟩ := Prod.mk.inj (Option.some.inj h)
    obtain rfl := (Prod.mk.inj h).1
    exact of_decide_eq_true hopen

/-- After a `begin` that succeeds, in any order of calls: each datagram is handed over once and in
order, a message in one datagram as it was sent, and a reply to the address it came under goes to
the peer it came from, unless the port of that is zero. -/
theorem run_hands_over {sys : UdpSetup} {s s₀ : LinuxUdpSocket} {notices : List Notice}
    (hbegin : begin sys s = some (true, s₀, notices)) (calls : List UdpCall) :
    ∃ s', s₀.runCalls calls = some (s', (datagrams calls).map handedOver) ∧
      (∀ ms : List SnMessage, (datagrams calls).map (fun d => d.data.bytes) =
        ms.map SnMessage.bytes →
        receivedMessages ((datagrams calls).map handedOver) = ms.map SnMessage.bytes) ∧
      ∀ d ∈ datagrams calls, ∀ bytes,
        (s'.send (.address (getDeviceAddress d.peer)) bytes).2.2 =
        [(s₀.udpSocket, replyTo d.peer, bytes)] ∧
          (replyTo d.peer = d.peer ↔ d.peer.sinPort ≠ 0) := by
  obtain ⟨s', hrun, hs'⟩ := runCalls_receives (begin_open hbegin) calls
  refine ⟨s', hrun, fun ms h => receivedMessages_handedOver h, fun d _ bytes => ⟨?_, ?_⟩⟩
  · show [(s'.udpSocket, Peer.mk (getIpAddress _) (getPort _), bytes)] = _
    rw [getIpAddress_getDeviceAddress, getPort_getDeviceAddress, hs']
    rfl
  · unfold replyTo
    constructor
    · intro h hzero
      rw [if_pos hzero] at h
      cases hzero.symm.trans (congrArg Peer.sinPort h).symm
    · intro h
      rw [if_neg h]

def setup : UdpSetup := ⟨3, 0, 0, 0, 0, 4, 0, 0, 0, 0, 0⟩

/-- A message from a peer, and a reply to another one before the next message. -/
def peerCalls : List UdpCall :=
  [.loop ⟨setup, some ⟨⟨0x0100007F, 0x3930⟩, ⟨ping.bytes, by decide⟩⟩, none⟩,
    .send (.address (Record.zero 6)) [2, 23],
    .loop ⟨setup, none, some ⟨⟨0x0100007F, 0⟩, ⟨regack.bytes, by decide⟩⟩⟩]

theorem run_hands_over_peerCalls : ∃ s₀ s' notices,
    begin setup ⟨-1, -1, ⟨0, 0⟩, Record.zero 6, true⟩ = some (true, s₀, notices) ∧
      s₀.runCalls peerCalls = some (s', (datagrams peerCalls).map handedOver) := by
  have hbegin : begin setup ⟨-1, -1, ⟨0, 0⟩, Record.zero 6, true⟩ = some (true, _, _) := rfl
  obtain ⟨s', hrun, -⟩ := run_hands_over hbegin peerCalls
  exact ⟨_, s', _, hbegin, hrun⟩

end LinuxUdpSocket

end SnGateway
